import Depot.Proofs.Operation.Reading

/-!
# What operations do to files

A step of an operation makes one call of the store at most, and what it does to the files is what the
call does. So whatever is done on a server, by operations or otherwise, an entry is there for as long as
the tree is, a directory stays a directory and a file a file, and every change has a cause: a file that
was stored, the directory of a new id, or a bootstrap.

A download reads nothing but files of the store: what it comes to is the same in trees that agree on the
ways to these.

## Key results

- `tree_step`: a step changes the files as its call does
- `performAll_changes`, `performAll_keeps`: what many actions come to
- `Lives.reads`, `step_withTree`: what a download reads
- `files_confined`: all of this, and that what fails or is done already changes nothing
-/

namespace Depot

open Storage

/-- Whether nothing was taken away and nothing became a directory or ceased to be one. -/
def Storage.Tree.Keeps (t t' : Tree) : Prop :=
  ∀ q node, t.get? q = some node → ∃ node', t'.get? q = some node' ∧
    (node' = .directory ↔ node = .directory)

namespace Storage.Tree.Keeps

variable {t t' t'' : Tree}

theorem refl (t : Tree) : t.Keeps t := fun _ node h => ⟨node, h, Iff.rfl⟩

theorem trans (h : t.Keeps t') (h' : t'.Keeps t'') : t.Keeps t'' := by
  intro q node hnode
  obtain ⟨node', hnode', hkind⟩ := h q node hnode
  obtain ⟨node'', hnode'', hkind'⟩ := h' q node' hnode'
  exact ⟨node'', hnode'', hkind'.trans hkind⟩

end Storage.Tree.Keeps

/-- Directories are kept as directories. -/
theorem Storage.Tree.Keeps.extends {t t' : Tree} (h : t.Keeps t') : t.Extends t' := by
  intro q hq
  obtain ⟨node, hnode, hkind⟩ := h q .directory hq
  rw [hnode, hkind.mpr rfl]

namespace Operation

/-! ### Calls -/

/-- The call of the store that the next step of an operation makes. -/
def call? (op : Operation) : Option Store.Call :=
  match op.stage with
  | .locating kind r => some (.openFile kind r.user r.name)
  | .saving u => some (.save u.kind u.descriptor.user u.descriptor.name u.data)
  | .allocating => some .allocate
  | _ => none

/-- The files after a call, or as they were if there is none. -/
def called (service : Service) (t : Tree) : Option Store.Call → Tree
  | some call => (service.store.perform t call).2
  | none => t

/-- The files after a step. -/
def treeAfter (service : Service) (op : Operation) (scene : Scene) : Tree :=
  match op.step service scene with
  | .waiting => scene.tree
  | .running _ scene | .ended _ scene => scene.tree

/-- To speak to the peer is nothing to the files. -/
theorem tree_of_send? {s s' : Scene} {operation : UInt8} {p : Packet}
    (h : s.send? operation p = some s') : s'.tree = s.tree := by
  unfold Scene.send? at h
  split at h
  · cases h
    rfl
  · cases h

/-- To announce a file is nothing to the files. -/
theorem Download.tree_of_announce {id : UInt8} {t : Transfer} {s s' : Scene}
    (h : announce id t s = .ok s') : s'.tree = s.tree := by
  rcases announce_cases h with rfl | ⟨p, -, hsend⟩
  · rfl
  · exact tree_of_send? hsend

/-- Whether a turn in a scene leaves a tree behind. A turn that waits leaves all as it was. -/
private abbrev Leaves (scene : Scene) (t : Tree) : Turn → Prop :=
  Turn.Ensures (scene.tree = t) (fun _ _ scene' => scene'.tree = t) (fun _ scene' => scene'.tree = t)

section

variable {scene scene' : Scene} {t : Tree}

/-- A check looks at the files and leaves them. -/
private theorem leaves_proceeding {α : Type} {result : Except Failure α} {go : α → Turn}
    (hscene : scene'.tree = t) (hgo : ∀ a, result = .ok a → Leaves scene t (go a)) :
    Leaves scene t (.proceed scene' result go) :=
  Turn.ensures_proceed (fun _ _ => hscene) hgo

/-- To read a packet is nothing to them. -/
private theorem leaves_reading {inbox : Queue Packet} {go : Packet → Queue Packet → Turn}
    (hgo : ∀ p rest, Leaves scene scene.tree (go p rest)) :
    Leaves scene scene.tree (.read inbox scene go) :=
  Turn.ensures_read (fun _ => rfl) rfl fun p rest _ _ _ => hgo p rest

/-- What is said last does not matter to the files. -/
private theorem leaves_saying (hscene : scene'.tree = t) (id : UInt8) (p : Packet) :
    Leaves scene t (match scene'.send? id p with
      | none => .done (.error .suspended) scene'
      | some scene => .done (.ok ()) scene) := by
  split
  · exact hscene
  · next hsend => exact (tree_of_send? hsend).trans hscene

end

/-- A block is read from a file that stays as it is. -/
private theorem leaves_sendBlock (service : Service) (op : Operation) (t : Transfer) (scene : Scene) :
    Leaves scene scene.tree (Download.sendBlock service op.id t op.inbox scene) := by
  refine leaves_proceeding rfl fun block _ => leaves_proceeding rfl fun scene₁ hannounce => ?_
  have htree := Download.tree_of_announce hannounce
  simp only
  split
  · exact htree
  · split
    · exact htree
    · next scene₂ hsend =>
      have htree₂ := (tree_of_send? hsend).trans htree
      split
      · exact htree₂
      · exact htree₂

/-- An upload stores its file and then speaks. -/
private theorem leaves_save (service : Service) (op : Operation) (u : Upload) (scene : Scene) :
    Leaves scene (called service scene.tree
      (some (.save u.kind u.descriptor.user u.descriptor.name u.data)))
      (Upload.save service op.id u scene) := by
  simp only [called, Store.perform, Upload.save]
  cases service.store.save scene.tree u.kind u.descriptor.user u.descriptor.name u.data with
  | error e => exact rfl
  | ok tree => exact leaves_saying rfl op.id Upload.confirmation

/-- An allocation makes its directory and then speaks. -/
private theorem leaves_allocate (service : Service) (op : Operation) (scene : Scene) :
    Leaves scene (called service scene.tree (some .allocate)) (Allocation.allocate service op.id scene) := by
  simp only [called, Store.perform, Store.request, Allocation.allocate]
  cases service.store.allocate scene.tree with
  | error e => exact rfl
  | ok made => exact leaves_saying rfl op.id _

/-- A turn leaves what its call leaves. -/
private theorem turn_leaves (service : Service) (op : Operation) (scene : Scene) :
    Leaves scene (called service scene.tree op.call?) (op.turn service scene) := by
  -- The stages that make a call do so first; what they send then leaves the files alone.
  cases hstage : op.stage with
  | opening =>
    simp only [turn, call?, hstage]
    refine leaves_reading fun p rest => ?_
    split
    all_goals exact leaves_proceeding rfl fun _ _ => rfl
  | locating kind r =>
    simp only [turn, call?, hstage]
    exact leaves_proceeding rfl fun _ _ => rfl
  | sending t =>
    simp only [turn, call?, hstage]
    exact leaves_sendBlock service op t scene
  | collecting u =>
    simp only [turn, call?, hstage]
    exact leaves_reading fun p rest => leaves_proceeding rfl fun _ _ => rfl
  | saving u =>
    simp only [turn, call?, hstage]
    exact leaves_save service op u scene
  | allocating =>
    simp only [turn, call?, hstage]
    exact leaves_allocate service op scene

/-- To report a result is to say something, at most. -/
theorem tree_conclude (op : Operation) (result : Except Failure Unit) (scene : Scene) :
    (op.conclude result scene).tree = scene.tree := by
  cases result with
  | ok _ => rfl
  | error failure => exact (conclude_error op failure scene).1

/-- A step changes the files as its call does. One that makes none leaves them as they are. -/
theorem tree_step (service : Service) (op : Operation) (scene : Scene) :
    op.treeAfter service scene = called service scene.tree op.call? := by
  have hturn := turn_leaves service op scene
  unfold treeAfter step
  cases hresult : op.turn service scene with
  | wait =>
    rw [hresult] at hturn
    exact hturn
  | next stage inbox scene' =>
    rw [hresult] at hturn
    exact hturn
  | done result scene' =>
    rw [hresult] at hturn
    exact (tree_conclude op result scene').trans hturn

end Operation

/-! ### Actions -/

namespace Service

/-- What may be done to the files of a server: a call of its store, a bootstrap, or a step of an
operation, whatever the session it serves. -/
inductive Action
  | call (made : Store.Call)
  | bootstrap (base : Path)
  | step (op : Operation) (session : Session) (metrics : Metrics)

/-- The call of the store that an action makes. -/
def Action.call? : Action → Option Store.Call
  | .call made => some made
  | .bootstrap _ => none
  | .step op _ _ => op.call?

/-- The files after an action. -/
def perform (service : Service) (t : Tree) : Action → Tree
  | .call made => (service.store.perform t made).2
  | .bootstrap base => (Store.bootstrap t base).2
  | .step op session metrics => op.treeAfter service { session, tree := t, metrics }

/-- The files after one action after another. -/
def after (service : Service) (t : Tree) (actions : List Action) : Tree := actions.foldl service.perform t

/-- What an action puts at a place. -/
inductive Action.Changes (service : Service) (t : Tree) (action : Action) : Place → Node → Prop
  | called {call : Store.Call} {q : Place} {node : Node} (hcall : action.call? = some call)
      (h : call.Changes service.store t q node) : Changes service t action q node
  | founded {base : Path} {q : Place} (haction : action = .bootstrap base)
      (hway : q ∈ (Store.foundation base).flatMap Path.way) (hfree : t.get? q = none) :
      Changes service t action q .directory

section

variable {service : Service} {t : Tree} {action : Action} {actions : List Action} {call : Store.Call}
  {q : Place} {node node' : Node}

/-- An action that makes a call leaves what the call leaves. -/
theorem perform_of_call (h : action.call? = some call) :
    service.perform t action = (service.store.perform t call).2 := by
  cases action with
  | call made =>
    cases h
    rfl
  | bootstrap base => cases h
  | step op session metrics =>
    refine (Operation.tree_step service op { session, tree := t, metrics }).trans ?_
    rw [show op.call? = some call from h]
    rfl

/-- An action changes what it says and nothing else. -/
theorem perform_changes (service : Service) (t : Tree) (action : Action) (q : Place) :
    (service.perform t action).get? q = t.get? q ∨
      ∃ node, action.Changes service t q node ∧ (service.perform t action).get? q = some node := by
  -- Either the action makes a call of the store, or it is a bootstrap or a step without one.
  cases hcall : action.call? with
  | some call =>
    -- What the call changes is all that there is.
    rw [perform_of_call hcall]
    rcases service.store.perform_changes t call q with hsame | ⟨node, hchange, hnode⟩
    · exact .inl hsame
    · exact .inr ⟨node, .called hcall hchange, hnode⟩
  | none =>
    cases action with
    | call made => cases hcall
    | bootstrap base =>
      rcases Store.founds_bootstrap t base q with hsame | ⟨hfree, hnew, hway⟩
      · exact .inl hsame
      · exact .inr ⟨.directory, .founded rfl hway hfree, hnew⟩
    | step op session metrics =>
      have hstep := Operation.tree_step service op { session, tree := t, metrics }
      rw [show op.call? = none from hcall] at hstep
      exact .inl (congrArg (fun tree => tree.get? q) hstep)

/-- What is put somewhere is of the kind of what was there. -/
theorem Action.Changes.same_kind (h : action.Changes service t q node') (hnode : t.get? q = some node) :
    node' = .directory ↔ node = .directory := by
  -- Directories are made where there is nothing, and a file is not stored where a directory is.
  cases h with
  | called _ hchange =>
    cases hchange with
    | stored _ _ hfile =>
      refine iff_of_false (fun h => by cases h) fun h => hfile ?_
      rw [hnode, h]
    | allotted _ hfree =>
      rw [hfree] at hnode
      cases hnode
  | founded _ _ hfree =>
    rw [hfree] at hnode
    cases hnode

/-- An action keeps everything, in kind. -/
theorem keeps_perform (service : Service) (t : Tree) (action : Action) :
    t.Keeps (service.perform t action) := by
  intro q node hnode
  rcases perform_changes service t action q with hsame | ⟨node', hchange, hnode'⟩
  · exact ⟨node, hsame.trans hnode, Iff.rfl⟩
  · exact ⟨node', hnode', hchange.same_kind hnode⟩

theorem after_append (t : Tree) (before after : List Action) :
    service.after t (before ++ after) = service.after (service.after t before) after :=
  List.foldl_append

/-- Any number of actions keep everything, in kind. -/
theorem keeps_after (service : Service) (t : Tree) (actions : List Action) :
    t.Keeps (service.after t actions) := by
  -- One action after the other.
  induction actions generalizing t with
  | nil => exact .refl t
  | cons action rest ih => exact (keeps_perform service t action).trans (ih _)

/-- What is at a place was there before, or it is there because of one of the actions. -/
theorem after_changes (service : Service) (t : Tree) (actions : List Action) (q : Place) :
    (service.after t actions).get? q = t.get? q ∨
      ∃ before action rest node, actions = before ++ action :: rest ∧
        action.Changes service (service.after t before) q node ∧
        (service.after t actions).get? q = some node := by
  -- The cause of what is there is the last action that put something there, so the rest comes first.
  induction actions generalizing t with
  | nil => exact .inl rfl
  | cons action rest ih =>
    rcases ih (service.perform t action) with hsame | ⟨before, cause, behind, node, rfl, hchange, hnode⟩
    · -- Nothing comes later, so what is there is what the first action left.
      rcases perform_changes service t action q with hkept | ⟨node, hchange, hnode⟩
      · exact .inl (hsame.trans hkept)
      · exact .inr ⟨[], action, rest, node, rfl, hchange, hsame.trans hnode⟩
    · exact .inr ⟨action :: before, cause, behind, node, rfl, hchange, hnode⟩

/-- An action whose call fails changes nothing. -/
theorem perform_of_fails (hcall : action.call? = some call)
    (h : (service.store.perform t call).1.fails = true) : service.perform t action = t := by
  rw [perform_of_call hcall]
  exact Store.perform_of_fails h

end

/-- A server touches nothing but what is its own. Whatever is done, nothing is taken away and nothing
becomes a directory or ceases to be one. What is at a place was there before, or it is the content of a
file that was stored, under a plain name, or the directory of an id that was given out, or a directory
that a bootstrap missed. A call that fails changes nothing, and nor does it to bootstrap once more what
was bootstrapped before. A download sends files of the store only, and sees nothing else of the tree
than the ways to these. -/
theorem files_confined (service : Service) (t : Tree) (actions : List Action) :
    t.Keeps (service.after t actions) ∧
    (∀ q, (service.after t actions).get? q = t.get? q ∨
      ∃ before action rest node, actions = before ++ action :: rest ∧
        action.Changes service (service.after t before) q node ∧
        (service.after t actions).get? q = some node) ∧
    (∀ action call, action.call? = some call →
      (service.store.perform (service.after t actions) call).1.fails = true →
      service.after t (actions ++ [action]) = service.after t actions) ∧
    (∀ before base rest s, actions = before ++ .bootstrap base :: rest →
      (Store.bootstrap (service.after t before) base).1 = .ok s →
      Store.bootstrap (service.after t actions) base = (.ok s, service.after t actions)) ∧
    (∀ op : Operation, op.Arises service → op.kind = .download →
      (∀ transfer, op.stage = .sending transfer →
        ∃ kind user name, service.store.filePlace? kind user name = some transfer.place) ∧
      ∀ (scene : Scene) tree, (∀ kind user name path, service.store.resolve kind user name = .ok path →
          Tree.AgreeOn path.way scene.tree tree) →
        op.step service { scene with tree } = (op.step service scene).withTree tree) := by
  -- The parts are put together; each was shown for one action or one step, and then for all of them.
  refine ⟨keeps_after service t actions, after_changes service t actions, ?_, ?_, ?_⟩
  · intro action call hcall hfails
    rw [after_append]
    exact perform_of_fails hcall hfails
  · intro before base rest s hactions hmade
    -- No directory was taken away since the first bootstrap.
    have hextends : (Store.bootstrap (service.after t before) base).2.Extends (service.after t actions) := by
      rw [hactions, after_append]
      exact (keeps_after service _ rest).extends
    exact Store.bootstrap_again (Prod.ext hmade rfl) hextends
  · intro op hop hkind
    have hfetching := hop.fetching hkind
    refine ⟨fun transfer hstage => ?_, fun scene tree hagree => hop.step_withTree hkind hagree⟩
    rw [hstage] at hfetching
    exact hfetching.place

end Service

end Depot
