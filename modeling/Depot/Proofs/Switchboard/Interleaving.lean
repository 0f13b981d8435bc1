import Mathlib.Data.List.Nodup
import Depot.Proofs.Operation.Alone
import Depot.Proofs.Switchboard.Courses

/-!
# Operations side by side

Downloads and uploads that run side by side do not see each other, as long as no upload stores a file on
the way that another one goes. For each job there is the run that its operation would take alone, with
all its packets there from the beginning and nobody else in the scene. On every course each operation has
come as far as its own run has after so many steps (`Standing`), what it has said is what it says alone,
and the tree is what it would be alone but for the files of the others (`Sees`). One operation moves at a
time, and it moves as it does alone; the others do not see that (`Together.move`). So when the switchboard
is quiet all that was said and stored depends on the runs alone, and not on the course.

## Key results

- `together_of_course`: what every course comes to
- `interleaving_unseen`: operations that are interleaved say and store what they do one by one
-/

namespace Depot

/-- What waits for the peer and carries an operation id. -/
def Scene.said (s : Scene) (id : UInt8) : List Packet :=
  s.session.outbound.waiting.filter (·.operation == id)

/-- An operation is heard under its own id only. -/
theorem Scene.said_of_postAll {s s' : Scene} {posts : List Packet} {operation : UInt8}
    (hreaches : s.reachesPeer = true) (hsession : s'.session = s.session.postAll posts)
    (hposts : ∀ p ∈ posts, p.operation = operation) (id : UInt8) :
    s'.said id = s.said id ++ if id = operation then posts else [] := by
  have hwaiting : s'.session.outbound.waiting = s.session.outbound.waiting ++ posts := by
    rw [hsession]
    exact Scene.waiting_postAll hreaches posts
  simp only [said, hwaiting, List.filter_append]
  congr 1
  -- All of the posts are those of one operation, so all of them are said under an id or none is.
  split
  · next hid =>
    apply List.filter_eq_self.mpr
    intro p hp
    exact beq_iff_eq.mpr ((hposts p hp).trans hid.symm)
  · next hid =>
    apply List.filter_eq_nil_iff.mpr
    intro p hp
    rw [hposts p hp, beq_iff_eq]
    exact Ne.symm hid

/-- Under another id nothing more is said. -/
theorem Scene.said_of_ne {s s' : Scene} {posts : List Packet} {operation id : UInt8}
    (hreaches : s.reachesPeer = true) (hsession : s'.session = s.session.postAll posts)
    (hposts : ∀ p ∈ posts, p.operation = operation) (hid : operation ≠ id) : s'.said id = s.said id := by
  rw [said_of_postAll hreaches hsession hposts, if_neg (Ne.symm hid), List.append_nil]

open Storage

/-- An operation that was given one of the packets that come later. -/
theorem Operation.Twin.push {service : Service} {target : Option Path} {p : Packet}
    {later : List Packet} {op solo : Operation} (h : Twin service target (p :: later) op solo) :
    Twin service target later { op with inbox := op.inbox.push p } solo := by
  have hwaiting := Queue.waiting_push p h.receptive.1
  obtain ⟨hreceiver, hsenders⟩ := Queue.ends_push op.inbox p
  refine { h with aims := ?_, receptive := ?_, harmless := ?_, waiting_eq := fun hnot => ?_ }
  · have haims := h.aims
    unfold Aims at haims ⊢
    split at haims
    · next hstage =>
      -- The packet that opens the operation is still in front.
      obtain ⟨hkind, first, rest, hfirst, htarget⟩ := haims
      simp only [hstage]
      exact ⟨hkind, first, rest ++ [p], by rw [hwaiting, hfirst]; rfl, htarget⟩
    all_goals
      next hstage =>
      simp only [hstage]
      exact haims
  · exact ⟨hreceiver.trans h.receptive.1, hsenders ▸ h.receptive.2⟩
  · simp only [hwaiting, List.append_assoc, List.singleton_append]
    exact h.harmless
  · simp only [hwaiting, List.append_assoc, List.singleton_append]
    exact h.waiting_eq hnot

namespace Switchboard

namespace Job

/-- The kind of the operation. -/
def kind (j : Job) : OperationKind := if j.opening.request = .fileInfo then .upload else .download

/-- The path of the file that a job is about, if there is one. -/
def target? (service : Service) (j : Job) : Option Path :=
  Operation.target? service j.kind j.opening

/-- Whether a job is to store a file at a place. -/
def Writes (service : Service) (j : Job) (place : Place) : Prop :=
  j.kind = .upload ∧ ∃ path, j.target? service = some path ∧ path.destination = place

/-- The path of a file ends where the file is. -/
theorem destination_mem_way {service : Service} {j : Job} {path : Path}
    (h : j.target? service = some path) : path.destination ∈ path.way := by
  -- A file is a child of its directory, so the last place on the way is its own.
  have hchild {kind : FileKind} {user : UInt32} {name : String}
      (h : (service.store.resolve kind user name).toOption = some path) :
      path.destination ∈ path.way := by
    cases hresolve : service.store.resolve kind user name with
    | error e => rw [hresolve] at h; cases h
    | ok found =>
      rw [hresolve] at h
      cases h
      obtain ⟨hplain, dir, -, rfl⟩ := Store.resolve_eq_ok hresolve
      rw [Path.way_child dir (Path.ofPiece_of_plain hplain)]
      exact List.mem_append_right _ (List.mem_singleton_self _)
  unfold target? Operation.target? at h
  split at h
  · split at h
    · exact hchild h
    · cases h
  · split at h
    · exact hchild h
    · cases h
  · cases h

/-- The operation of a job when it is alone and has all its packets. -/
def solo (j : Job) : Operation :=
  { id := j.id, kind := j.kind, inbox := j.packets.foldl Queue.push {} }

end Job

/-- Whether no job is to store a file that another one reads or writes. To follow a path is to read every
entry that it passes, and not only the last. -/
def Apart (service : Service) (jobs : List Job) : Prop :=
  ∀ j ∈ jobs, ∀ j' ∈ jobs, j.id ≠ j'.id → ∀ place path,
    j.Writes service place → j'.target? service = some path → place ∉ path.way

/-- How far a job has come that was given some of its packets, and the scene in which it would be if it
were alone. -/
inductive Standing (service : Service) (scene : Scene) (j : Job) :
    List Packet → Option Entry → Scene → Prop
  | unopened : Standing service scene j [] none scene
  | running {given later : List Packet} {e : Entry} {solo : Operation} {s₀ : Scene} {steps : Nat}
      (hopened : given ≠ []) (hgiven : given ++ later = j.packets)
      (hid : e.operation.id = j.id) (hkind : e.operation.kind = j.kind)
      (hrun : j.solo.runFor service steps scene = (some solo, s₀))
      (htwin : e.operation.Twin service (j.target? service) later solo) :
      Standing service scene j given (some e) s₀
  | ended {given : List Packet} {s₀ : Scene} {steps : Nat} (hopened : given ≠ [])
      (hrun : j.solo.runFor service steps scene = (none, s₀)) :
      Standing service scene j given none s₀

/-- What a scene has in common with the one in which a job is alone. -/
structure Sees (service : Service) (jobs : List Job) (j : Job) (s s₀ : Scene) : Prop where
  reaches : s₀.reachesPeer = true
  said : s₀.said j.id = s.said j.id
  stored : ∀ q, (∀ j' ∈ jobs, j'.id ≠ j.id → ¬j'.Writes service q) → s₀.tree.get? q = s.tree.get? q

/-- What a switchboard and the scene have come to after some packets of jobs. -/
structure Together (service : Service) (scene : Scene) (jobs : List Job) (given : List Packet)
    (b : Switchboard) (s : Scene) : Prop where
  reaches : s.reachesPeer = true
  each : ∀ j ∈ jobs, ∃ s₀, Standing service scene j (given.filter (·.operation == j.id))
    (b.entries.find? j.id) s₀ ∧ Sees service jobs j s s₀
  entries : ∀ id e, b.entries.find? id = some e → ∃ j ∈ jobs, j.id = id
  said : ∀ id, (∀ j ∈ jobs, j.id ≠ id) → s.said id = scene.said id
  stored : ∀ q, (∀ j ∈ jobs, ¬j.Writes service q) → s.tree.get? q = scene.tree.get? q

section

variable {service : Service} {scene : Scene} {jobs : List Job} {given : List Packet}
  {b b' : Switchboard} {s s' s₀ s₀' : Scene} {j : Job} {posts : List Packet}

/-- On the way to its own file a job sees the tree that it sees alone, for nobody else writes there. -/
theorem Sees.agreeOn (h : Sees service jobs j s s₀) (hapart : Apart service jobs) (hj : j ∈ jobs) :
    ∀ path, j.target? service = some path → Tree.AgreeOn path.way s₀.tree s.tree := by
  intro path htarget q hq
  refine (h.stored q fun j' hj' hid hwrites => ?_).symm
  exact hapart j' hj' j hj hid q path hwrites htarget hq

/-- A job leaves alone what it is not to store. -/
private theorem Job.get?_of_not_writes (htree : s'.tree = s.tree ∨
      ∃ place node, j.Writes service place ∧ s'.tree = s.tree.set place node)
    {q : Place} (hq : ¬j.Writes service q) : s'.tree.get? q = s.tree.get? q := by
  rcases htree with hsame | ⟨place, node, hwrites, hset⟩
  · rw [hsame]
  · have hne : q ≠ place := by
      rintro rfl
      exact hq hwrites
    rw [hset, Tree.get?_set_of_ne _ _ hne]

/-- What a job does alone as well as in the scene. -/
theorem Sees.move (h : Sees service jobs j s s₀) (hreaches : s.reachesPeer = true)
    (hposts : ∀ p ∈ posts, p.operation = j.id) (hsession : s'.session = s.session.postAll posts)
    (hsession₀ : s₀'.session = s₀.session.postAll posts)
    (htree : s'.tree = s.tree ∧ s₀'.tree = s₀.tree ∨ ∃ place node, j.Writes service place ∧
      s'.tree = s.tree.set place node ∧ s₀'.tree = s₀.tree.set place node) :
    Sees service jobs j s' s₀' where
  reaches := (Scene.reachesPeer_of_session hsession₀).trans h.reaches
  said := by
    rw [Scene.said_of_postAll hreaches hsession hposts,
      Scene.said_of_postAll h.reaches hsession₀ hposts, h.said]
  -- Both trees change at the same place, if at all.
  stored := fun q hq => by
    rcases htree with ⟨hsame, hsame₀⟩ | ⟨place, node, -, hset, hset₀⟩
    · rw [hsame, hsame₀]
      exact h.stored q hq
    · rw [hset, hset₀]
      exact Tree.get?_set_congr place node (h.stored q hq)

/-- What another job does is not seen. -/
theorem Sees.frame {j' : Job} (h : Sees service jobs j' s s₀) (hreaches : s.reachesPeer = true)
    (hj : j ∈ jobs) (hid : j.id ≠ j'.id) (hposts : ∀ p ∈ posts, p.operation = j.id)
    (hsession : s'.session = s.session.postAll posts)
    (htree : s'.tree = s.tree ∨
      ∃ place node, j.Writes service place ∧ s'.tree = s.tree.set place node) :
    Sees service jobs j' s' s₀ where
  reaches := h.reaches
  said := h.said.trans (Scene.said_of_ne hreaches hsession hposts hid).symm
  stored := fun q hq => (h.stored q hq).trans (Job.get?_of_not_writes htree (hq j hj hid)).symm

/-- One job moves, in the scene as it does alone. -/
theorem Together.move {given' : List Packet} (h : Together service scene jobs given b s)
    (hids : ∀ j ∈ jobs, ∀ j' ∈ jobs, j.id = j'.id → j = j') (hj : j ∈ jobs)
    (hposts : ∀ p ∈ posts, p.operation = j.id) (hsession : s'.session = s.session.postAll posts)
    (htree : s'.tree = s.tree ∨
      ∃ place node, j.Writes service place ∧ s'.tree = s.tree.set place node)
    (hgiven : ∀ id, id ≠ j.id →
      given'.filter (·.operation == id) = given.filter (·.operation == id))
    (hentries : ∀ id, id ≠ j.id → b'.entries.find? id = b.entries.find? id)
    (hstanding : Standing service scene j (given'.filter (·.operation == j.id))
      (b'.entries.find? j.id) s₀') (hsees : Sees service jobs j s' s₀') :
    Together service scene jobs given' b' s' where
  reaches := (Scene.reachesPeer_of_session hsession).trans h.reaches
  each := fun j' hj' => by
    by_cases hid : j.id = j'.id
    · -- Its own run moves along.
      rw [← hids j hj j' hj' hid]
      exact ⟨s₀', hstanding, hsees⟩
    · obtain ⟨s₀, hstanding', hsees'⟩ := h.each j' hj'
      rw [hgiven j'.id (Ne.symm hid), hentries j'.id (Ne.symm hid)]
      exact ⟨s₀, hstanding', hsees'.frame h.reaches hj hid hposts hsession htree⟩
  -- The table changes only under the id of the job.
  entries := fun id e hfind => by
    by_cases hid : id = j.id
    · exact ⟨j, hj, hid.symm⟩
    · rw [hentries id hid] at hfind
      exact h.entries id e hfind
  said := fun id hno =>
    (Scene.said_of_ne h.reaches hsession hposts (hno j hj)).trans (h.said id hno)
  stored := fun q hno => (Job.get?_of_not_writes htree (hno j hj)).trans (h.stored q hno)

/-! ### Dispatching -/

/-- A block goes to the operation that it names, and nothing else happens. -/
theorem dispatch_block {p : Packet} (hp : p.request = .file) (b : Switchboard) (s : Scene) :
    b.dispatch p s = (.go, b.forward p, s) := by
  simp only [dispatch, hp]

/-- The opening packet of a job starts its operation. -/
theorem Job.Valid.dispatch_opening (h : j.Valid) (b : Switchboard) (s : Scene) :
    b.dispatch j.opening s = (.go, b.start j.kind j.opening s) := by
  rcases h.opens with hp | hp
  · simp only [dispatch, hp, Job.kind]
    rfl
  · simp only [dispatch, hp, Job.kind]
    rfl

/-- The operation that was just started, and the one that is alone. -/
theorem Job.Valid.twin_opened (h : j.Valid) (number : Nat) :
    (Entry.opened number j.kind j.opening).operation.Twin service (j.target? service) j.blocks
      j.solo := by
  have hwaiting : (Entry.opened number j.kind j.opening).operation.inbox.waiting = [j.opening] :=
    Queue.waiting_push _ rfl
  have hwaiting₀ : j.solo.inbox.waiting = j.packets := Queue.waiting_foldl_push _ rfl
  obtain ⟨hreceiver, hsenders⟩ := Queue.ends_push ({} : Queue Packet) j.opening
  obtain ⟨hreceiver₀, hsenders₀⟩ := Queue.ends_foldl_push ({} : Queue Packet) j.packets
  have hharmless : ∀ p ∈ j.packets, p.request.endsOperation = false := by
    intro p hp
    rcases List.mem_cons.mp hp with rfl | hp
    · rcases h.opens with hopen | hopen
      · rw [hopen]; rfl
      · rw [hopen]; rfl
    · rw [h.file p hp]
      rfl
  have hkind : j.kind ≠ .allocate := by
    unfold Job.kind
    split
    · intro hkind; cases hkind
    · intro hkind; cases hkind
  -- The twins differ in their inboxes only: one has the opening, the other has everything already.
  exact {
    id_eq := rfl
    kind_eq := rfl
    stage_eq := rfl
    aims := ⟨hkind, j.opening, [], hwaiting, rfl⟩
    receptive := ⟨hreceiver, by
      show (Queue.push {} j.opening).senders ≠ 0
      rw [hsenders]
      decide⟩
    receptive_solo := ⟨hreceiver₀, by
      show (j.packets.foldl Queue.push {}).senders ≠ 0
      rw [hsenders₀]
      decide⟩
    harmless := by
      rw [hwaiting]
      exact hharmless
    harmless_solo := by
      rw [hwaiting₀]
      exact hharmless
    waiting_eq := fun _ => by rw [hwaiting, hwaiting₀]; rfl }

/-- The first packet of a job starts its operation, and the ones after that are handed to it as long as
it runs. -/
theorem Standing.dispatch {p : Packet} {flow : Flow} (hvalid : j.Valid) (hp : p.operation = j.id)
    (hbegins : given ++ [p] <+: j.packets)
    (h : Standing service scene j given (b.entries.find? j.id) s₀)
    (hdispatch : b.dispatch p s = (flow, b', s')) :
    s' = s ∧ (∀ id, id ≠ j.id → b'.entries.find? id = b.entries.find? id) ∧
      Standing service scene j (given ++ [p]) (b'.entries.find? j.id) s₀ := by
  obtain ⟨rest, hpackets⟩ := hbegins
  generalize hentry : b.entries.find? j.id = entry at h
  -- Only the first packet is no block.
  have hblock (hopened : given ≠ []) : b.forward p = b' ∧ s = s' := by
    obtain ⟨first, before, rfl⟩ := List.exists_cons_of_ne_nil hopened
    have hmem : p ∈ j.blocks := by
      have htail := (List.cons.inj hpackets).2
      rw [← htail]
      simp
    rw [dispatch_block (hvalid.file p hmem)] at hdispatch
    cases hdispatch
    exact ⟨rfl, rfl⟩
  have hforward (id : UInt8) : (b.forward p).entries.find? id =
      if id = j.id then (b.entries.find? id).map (.put p) else b.entries.find? id := by
    show (b.entries.amend p.operation (.put p)).find? id = _
    rw [hp, Roster.find?_amend]
  cases h with
  | unopened =>
    -- No entry has the id, so the operation is started with this packet in its inbox.
    have hfirst : p = j.opening := (List.cons.inj hpackets).1
    subst hfirst
    rw [hvalid.dispatch_opening] at hdispatch
    obtain ⟨entries, henroll⟩ :=
      Roster.exists_enroll? (Entry.opened b.started j.kind j.opening) hentry
    have hstart : b.start j.kind j.opening s =
        ({ b with entries, started := b.started + 1 }, s) := by
      have henroll' : b.entries.enroll? j.opening.operation (.opened b.started j.kind j.opening) =
        some entries := henroll
      simp only [start, henroll']
    rw [hstart] at hdispatch
    cases hdispatch
    refine ⟨rfl, fun id hid => ?_, ?_⟩
    · show entries.find? id = _
      rw [Roster.find?_enroll? henroll, if_neg hid]
    · show Standing service scene j [j.opening] (entries.find? j.id) _
      rw [Roster.find?_enroll? henroll, if_pos rfl]
      exact .running (List.cons_ne_nil _ _) rfl rfl rfl
        (show j.solo.runFor service 0 scene = _ from rfl) (hvalid.twin_opened b.started)
  | @running _ later e solo _ steps hopened hgiven hid hkind hrun htwin =>
    obtain ⟨rfl, rfl⟩ := hblock hopened
    -- The next of the packets that come later is this one.
    have hlater : later = p :: rest := by
      rw [← hgiven, List.append_assoc] at hpackets
      exact (List.append_cancel_left hpackets).symm
    subst hlater
    refine ⟨rfl, fun id hne => by rw [hforward, if_neg hne], ?_⟩
    rw [hforward, if_pos rfl, hentry]
    exact .running (by simp) (by rw [← hgiven]; simp) hid hkind hrun htwin.push
  | ended hopened hrun =>
    obtain ⟨rfl, rfl⟩ := hblock hopened
    refine ⟨rfl, fun id hne => by rw [hforward, if_neg hne], ?_⟩
    rw [hforward, if_pos rfl, hentry]
    exact .ended (by simp) hrun

/-- A packet of a job is dispatched: its operation begins, or gets another block. -/
theorem Together.dispatch {p : Packet} {flow : Flow} (h : Together service scene jobs given b s)
    (hvalid : ∀ j ∈ jobs, j.Valid) (hids : ∀ j ∈ jobs, ∀ j' ∈ jobs, j.id = j'.id → j = j')
    (hj : j ∈ jobs) (hp : p.operation = j.id)
    (hbegins : (given ++ [p]).filter (·.operation == j.id) <+: j.packets)
    (hdispatch : b.dispatch p s = (flow, b', s')) :
    Together service scene jobs (given ++ [p]) b' s' := by
  obtain ⟨s₀, hstanding, hsees⟩ := h.each j hj
  have hown : (given ++ [p]).filter (·.operation == j.id) =
      given.filter (·.operation == j.id) ++ [p] := by
    rw [List.filter_append, List.filter_cons_of_pos (by rw [hp, beq_self_eq_true]), List.filter_nil]
  rw [hown] at hbegins
  obtain ⟨rfl, hentries, hstanding'⟩ := hstanding.dispatch (hvalid j hj) hp hbegins hdispatch
  -- Nothing is said or stored: an operation that was given a packet has yet to take a step.
  refine h.move hids hj (List.forall_mem_nil _) rfl (.inl rfl) (fun id hid => ?_) hentries
    (by rw [hown]; exact hstanding') hsees
  rw [List.filter_append, List.filter_cons_of_neg, List.filter_nil, List.append_nil]
  rw [hp, beq_iff_eq]
  exact Ne.symm hid

/-! ### Running -/

/-- An operation takes a step, and the one that is alone takes the same or has taken it already. -/
theorem Together.advance {id : UInt8} (h : Together service scene jobs given b s)
    (hids : ∀ j ∈ jobs, ∀ j' ∈ jobs, j.id = j'.id → j = j') (hapart : Apart service jobs)
    (hadvance : b.advance? service id s = some (b', s')) :
    Together service scene jobs given b' s' := by
  unfold advance? at hadvance
  split at hadvance
  · cases hadvance
  · next e hfind =>
    -- The operation that moves is that of a job, and it has not ended yet.
    obtain ⟨j, hj, rfl⟩ := h.entries id e hfind
    obtain ⟨s₀, hstanding, hsees⟩ := h.each j hj
    have hagree := hsees.agreeOn hapart hj
    obtain ⟨mine, hmine⟩ : ∃ mine, given.filter (·.operation == j.id) = mine := ⟨_, rfl⟩
    rw [hfind, hmine] at hstanding
    cases hstanding with
    | @running _ later _ solo _ steps hopened hgiven hid hkind hrun htwin =>
    split at hadvance
    · cases hadvance
    · next op s₁ hstep =>
      cases hadvance
      obtain ⟨posts, solo', hposts, rfl, hsolo, hid', hkind', htwin'⟩ :=
        Operation.step_running_alike htwin h.reaches hsees.reaches hagree hstep
      rw [hid] at hposts
      have hrun' : j.solo.runFor service (steps + 1) scene = (some solo', s₀.postAll posts) := by
        rw [Operation.runFor_add hrun]
        simp only [Operation.runFor, hsolo]
      have hsees' : Sees service jobs j (s.postAll posts) (s₀.postAll posts) :=
        hsees.move h.reaches hposts rfl rfl (.inl ⟨rfl, rfl⟩)
      refine h.move hids hj hposts rfl (.inl rfl) (fun _ _ => rfl) (fun id hne => ?_) ?_ hsees'
      · simp only [store, Roster.find?_amend, if_neg hne]
      · simp only [store, Roster.find?_amend, ↓reduceIte, hfind, Option.map_some, hmine]
        exact .running hopened hgiven (hid'.trans hid) (hkind'.trans hkind) hrun' htwin'
    · next outcome s₁ hstep =>
      cases hadvance
      obtain ⟨posts, s₀', hposts, hsession, hsolo, hsession₀, htree⟩ :=
        Operation.step_ended_alike htwin h.reaches hsees.reaches hagree hstep
      rw [hid] at hposts
      rw [hkind] at htree
      -- If it stored a file, it is the file that the job is to store.
      have htree' : s'.tree = s.tree ∧ s₀'.tree = s₀.tree ∨ ∃ place node, j.Writes service place ∧
          s'.tree = s.tree.set place node ∧ s₀'.tree = s₀.tree.set place node := by
        rcases htree with hsame | ⟨path, node, hupload, htarget, hset, hset₀⟩
        · exact .inl hsame
        · exact .inr ⟨path.destination, node, ⟨hupload, path, htarget, rfl⟩, hset, hset₀⟩
      have hrun' : j.solo.runFor service (steps + 1) scene = (none, s₀') := by
        rw [Operation.runFor_add hrun]
        simp only [Operation.runFor, hsolo]
      refine h.move hids hj hposts hsession ?_ (fun _ _ => rfl) (fun id hne => ?_) ?_
        (hsees.move h.reaches hposts hsession hsession₀ htree')
      · rcases htree' with ⟨hsame, -⟩ | ⟨place, node, hwrites, hset, -⟩
        · exact .inl hsame
        · exact .inr ⟨place, node, hwrites, hset⟩
      · simp only [store, Roster.find?_dismiss, if_neg hne]
      · simp only [store, Roster.find?_dismiss, ↓reduceIte, hmine]
        exact .ended hopened hrun'

/-! ### Courses -/

variable {packets : List Packet}

/-- At the beginning no job has begun, and everybody sees the same scene. -/
theorem together_start (hempty : b.entries.isEmpty = true) (hreaches : s.reachesPeer = true) :
    Together service s jobs [] b s := by
  have hnone (id : UInt8) : b.entries.find? id = none := by
    rw [Roster.find?, List.isEmpty_iff.mp hempty]
    rfl
  refine ⟨hreaches, fun j hj => ⟨s, ?_, hreaches, rfl, fun _ _ => rfl⟩, fun id e hfind => ?_,
    fun _ _ => rfl, fun _ _ => rfl⟩
  · rw [hnone]
    exact .unopened
  · rw [hnone] at hfind
    cases hfind

/-- What every course comes to, as long as the packets are those of the jobs. -/
theorem together_of_course (hempty : b.entries.isEmpty = true) (hreaches : s.reachesPeer = true)
    (hvalid : ∀ j ∈ jobs, j.Valid) (hids : ∀ j ∈ jobs, ∀ j' ∈ jobs, j.id = j'.id → j = j')
    (hapart : Apart service jobs) (hpackets : Interleaves jobs packets) (hgiven : given <+: packets)
    (h : Course service b s given b' s') : Together service s jobs given b' s' := by
  -- By induction on the course. The packets so far are a prefix, so each job has been given a prefix of its
  -- own.
  induction h with
  | start => exact together_start hempty hreaches
  | @dispatch given b₁ b₂ s₁ s₂ p flow hcourse hdispatch ih =>
    obtain ⟨j, hj, hp⟩ := hpackets.known p (hgiven.subset (by simp))
    have hbegins := hgiven.filter (·.operation == j.id)
    rw [hpackets.inOrder j hj] at hbegins
    exact (ih ((List.prefix_append _ _).trans hgiven)).dispatch hvalid hids hj hp.symm hbegins
      hdispatch
  | advance hcourse hadvance ih => exact (ih hgiven).advance hids hapart hadvance

/-- At the end of a course each job has come to the end of its own run. -/
theorem Together.stopped (h : Together service scene jobs packets b s)
    (hpackets : Interleaves jobs packets) (hapart : Apart service jobs)
    (hquiet : Quiet service b s) (hj : j ∈ jobs) :
    ∃ steps, Operation.Stopped service (j.solo.runFor service steps scene) ∧
      Sees service jobs j s (j.solo.runFor service steps scene).2 := by
  obtain ⟨s₀, hstanding, hsees⟩ := h.each j hj
  have hagree := hsees.agreeOn hapart hj
  rw [hpackets.inOrder j hj] at hstanding
  generalize hentry : b.entries.find? j.id = entry at hstanding
  generalize hall : j.packets = all at hstanding
  cases hstanding with
  | unopened => cases hall
  | @running _ later e solo _ steps _ hgiven _ _ hrun htwin =>
    refine ⟨steps, fun op hop => ?_, by rw [hrun]; exact hsees⟩
    rw [hrun] at hop ⊢
    cases hop
    -- It has all its packets, so alone it waits where it does here, and for ever.
    have hlater : later = [] := by
      rw [← hall] at hgiven
      exact List.append_right_eq_self.mp hgiven
    refine Operation.step_waiting_alike htwin h.reaches hsees.reaches hagree ?_ hlater
    have hnone := hquiet j.id
    simp only [advance?, hentry] at hnone
    cases hstep : e.operation.step service s with
    | waiting => rfl
    | running op s₁ => rw [hstep] at hnone; cases hnone
    | ended outcome s₁ => rw [hstep] at hnone; cases hnone
  | @ended _ _ steps _ hrun =>
    refine ⟨steps, fun op hop => ?_, by rw [hrun]; exact hsees⟩
    rw [hrun] at hop
    cases hop

/-- Whatever the course, all that was said and stored at its end is the same. -/
theorem Together.unique {packets' : List Packet} (hapart : Apart service jobs)
    (h : Together service scene jobs packets b s) (hpackets : Interleaves jobs packets)
    (hquiet : Quiet service b s) (h' : Together service scene jobs packets' b' s')
    (hpackets' : Interleaves jobs packets') (hquiet' : Quiet service b' s') :
    (∀ id, s.said id = s'.said id) ∧ ∀ q, s.tree.get? q = s'.tree.get? q := by
  -- The run of a job ends in one way, and both scenes are seen from there.
  have hboth : ∀ j ∈ jobs, ∃ s₀, Sees service jobs j s s₀ ∧ Sees service jobs j s' s₀ := by
    intro j hj
    obtain ⟨steps, hstopped, hsees⟩ := h.stopped hpackets hapart hquiet hj
    obtain ⟨steps', hstopped', hsees'⟩ := h'.stopped hpackets' hapart hquiet' hj
    rw [Operation.runFor_unique hstopped' hstopped] at hsees'
    exact ⟨_, hsees, hsees'⟩
  constructor
  · intro id
    by_cases hid : ∃ j ∈ jobs, j.id = id
    · obtain ⟨j, hj, rfl⟩ := hid
      obtain ⟨s₀, hsees, hsees'⟩ := hboth j hj
      rw [← hsees.said, hsees'.said]
    · have hno : ∀ j ∈ jobs, j.id ≠ id := fun j hj heq => hid ⟨j, hj, heq⟩
      rw [h.said id hno, h'.said id hno]
  · intro q
    by_cases hq : ∃ j ∈ jobs, j.Writes service q
    · obtain ⟨j, hj, hwrites⟩ := hq
      obtain ⟨s₀, hsees, hsees'⟩ := hboth j hj
      -- Nobody else stores anything there: it is on the way of this job.
      have hothers : ∀ j' ∈ jobs, j'.id ≠ j.id → ¬j'.Writes service q := by
        intro j' hj' hid hwrites'
        obtain ⟨-, path, htarget, rfl⟩ := hwrites
        exact hapart j' hj' j hj hid _ path hwrites' htarget (Job.destination_mem_way htarget)
      rw [← hsees.stored q hothers, hsees'.stored q hothers]
    · have hno : ∀ j ∈ jobs, ¬j.Writes service q := fun j hj hwrites => hq ⟨j, hj, hwrites⟩
      rw [h.stored q hno, h'.stored q hno]

end

/-- Operations that run side by side say and store the same as if they had run one by one. Their packets
may be interleaved in any way and their steps taken in any order; all that is asked for is that their
ids are different, and that no upload stores a file on the way that another operation goes to its own. -/
theorem interleaving_unseen {service : Service} {b b' b'' : Switchboard} {s s' s'' : Scene}
    {jobs order : List Job} {packets : List Packet} (hempty : b.entries.isEmpty = true)
    (hreaches : s.reachesPeer = true) (hvalid : ∀ j ∈ jobs, j.Valid)
    (hids : (jobs.map Job.id).Nodup) (hapart : Apart service jobs)
    (hpackets : Interleaves jobs packets) (hcourse : Course service b s packets b' s')
    (hquiet : Quiet service b' s') (horder : order.Perm jobs)
    (hone : OneByOne service b s order b'' s'') :
    (∀ id, s'.said id = s''.said id) ∧ ∀ place, s'.tree.get? place = s''.tree.get? place := by
  -- Ids tell jobs apart, so every packet belongs to one of them.
  have hinj : ∀ j ∈ jobs, ∀ j' ∈ jobs, j.id = j'.id → j = j' :=
    fun j hj j' hj' hid => List.inj_on_of_nodup_map hids hj hj' hid
  have hpackets' : Interleaves jobs (order.flatMap Job.packets) :=
    (interleaves_flatMap (fun j hj => hvalid j (horder.mem_iff.mp hj))
      ((horder.map Job.id).nodup_iff.mpr hids)).perm horder
  have htogether := together_of_course hempty hreaches hvalid hinj hapart hpackets
    (List.prefix_refl packets) hcourse
  -- One by one is a course too, so what holds of every course holds of both.
  have htogether' := together_of_course hempty hreaches hvalid hinj hapart hpackets'
    (List.prefix_refl _) hone.course
  exact htogether.unique hapart hpackets hquiet htogether' hpackets'
    (hone.quiet (quiet_of_isEmpty hempty s))

/-- A file is uploaded while another one is downloaded. -/
theorem download_between_upload :
    let service : Service := { store := ⟨⟨["dlc"]⟩, ⟨["user"]⟩⟩, limits := ⟨2, 10⟩ }
    let scene : Scene :=
      { tree := ⟨[(["dlc"], .directory), (["dlc", "a"], .file { bytes := [1, 2, 3] })]⟩ }
    let description := (Packet.new .fileInfo [2, 0, 0, 0, 7, 0, 0, 0, 1, 98]).withKind .dlc
    let info := (description.withOperation 1).withMore true
    let first := ((Packet.new .file [8]).withOperation 1).withMore true
    let last := (Packet.new .file [9]).withOperation 1
    let request := ((Packet.new .fileRequest [7, 0, 0, 0, 1, 97]).withKind .dlc).withOperation 2
    let opened := ({} : Switchboard).dispatchAll scene [info, request, first]
    let read := opened.2.1.work service 1 opened.2.2
    let sent := read.1.work service 2 read.2
    let given := sent.1.dispatchAll sent.2 [last]
    let stored := given.2.1.work service 1 given.2.2
    (stored.2.said 1).map (·.request) = [.fileSaveDone] ∧
      (stored.2.said 2).map (·.payload) = [[3, 0, 0, 0, 7, 0, 0, 0, 1, 97], [1, 2], [3]] ∧
      ∃ b s, OneByOne service {} scene [⟨request, []⟩, ⟨info, [first, last]⟩] b s ∧
        (∀ id, stored.2.said id = s.said id) ∧
        ∀ place, stored.2.tree.get? place = s.tree.get? place := by
  intro service scene description info first last request opened read sent given stored
  refine ⟨by decide +kernel, by decide +kernel, ?_⟩
  obtain ⟨b, s, hone⟩ :=
    exists_oneByOne (show 0 < service.limits.downloadChunk by decide) sound_empty scene
      [⟨request, []⟩, ⟨info, [first, last]⟩]
  refine ⟨b, s, hone, ?_⟩
  have hopened : Course service {} scene [info, request, first] opened.2.1 opened.2.2 :=
    course_dispatchAll {} scene _
  have hread := hopened.trans (course_work (hopened.sound sound_empty) 1 opened.2.2)
  have hsent := hread.trans (course_work (hread.sound sound_empty) 2 read.2)
  have hgiven := hsent.trans (course_dispatchAll sent.1 sent.2 [last])
  have hstored := hgiven.trans (course_work (hgiven.sound sound_empty) 1 given.2.2)
  have hquiet : Quiet service stored.1 stored.2 := quiet_of_isEmpty (by decide +kernel) stored.2
  have hvalid : ∀ j ∈ [⟨info, [first, last]⟩, (⟨request, []⟩ : Job)], j.Valid := by
    intro j hj
    rcases List.mem_pair.mp hj with rfl | rfl
    · exact ⟨.inr rfl, by decide, by decide⟩
    · exact ⟨.inl rfl, by decide, by decide⟩
  have hapart : Apart service [⟨info, [first, last]⟩, ⟨request, []⟩] := by
    intro j hj j' hj' hid place path hwrites htarget
    obtain ⟨hkind, path', htarget', rfl⟩ := hwrites
    rcases List.mem_pair.mp hj with rfl | rfl
    · rcases List.mem_pair.mp hj' with rfl | rfl
      · exact absurd rfl hid
      · rw [show Job.target? service ⟨info, [first, last]⟩ = some ⟨["dlc", "b"]⟩ by decide +kernel]
          at htarget'
        rw [show Job.target? service ⟨request, []⟩ = some ⟨["dlc", "a"]⟩ by decide +kernel] at htarget
        cases htarget
        cases htarget'
        decide
    · cases hkind
  exact interleaving_unseen rfl rfl hvalid (by decide) hapart ⟨by decide, by decide⟩ hstored hquiet
    (.swap _ _ _) hone
end Switchboard

end Depot
