import Depot.Proofs.Operation.Downloads
import Depot.Proofs.Operation.Uploads

/-!
# Operations that do not see each other

What a download or an upload does depends on its packets and on the way to its file, and on nothing else
in the scene. So one that shares a scene with others does step by step what it would do alone, if all of
its packets were there from the beginning and the way to its file is what it was.

`Twin` relates an operation to the one that is alone. The two have read the same packets; the one has yet
to be given the packets that wait for the other.

## Key results

- `turn_alike`: the two do the same in a turn
- `step_waiting_alike`, `step_running_alike`, `step_ended_alike`: and so they do in a step
-/

namespace Depot.Operation

open Storage

/-! ### What an operation is about -/

/-- The path of the file that an operation is about, if the packet that opens it names one. -/
def target? (service : Service) (kind : OperationKind) (p : Packet) : Option Path :=
  match kind with
  | .download =>
      match Download.request p with
      | .ok (kind, r) => (service.store.resolve kind r.user r.name).toOption
      | .error _ => none
  | .upload =>
      match Upload.request service.limits p with
      | .ok u => (service.store.resolve u.kind u.descriptor.user u.descriptor.name).toOption
      | .error _ => none
  | .allocate => none

/-- Whether a download or an upload is about the file with a path. -/
def Aims (service : Service) (target : Option Path) (op : Operation) : Prop :=
  match op.stage with
  | .opening =>
      op.kind ≠ .allocate ∧
        ∃ p rest, op.inbox.waiting = p :: rest ∧ target? service op.kind p = target
  | .locating kind r => (service.store.resolve kind r.user r.name).toOption = target
  | .sending t => ∃ path, target = some path ∧ t.place ∈ path.way
  | .collecting u | .saving u =>
      op.kind = .upload ∧
        (service.store.resolve u.kind u.descriptor.user u.descriptor.name).toOption = target
  | .allocating => False

/-- Whether packets may still come into an inbox. -/
def Receptive (inbox : Queue Packet) : Prop := inbox.receiver = .listening ∧ inbox.senders ≠ 0

/-- An operation with packets that come later, and one that has them already. A transfer does not read
what is in its inbox. -/
structure Twin (service : Service) (target : Option Path) (later : List Packet)
    (op solo : Operation) : Prop where
  id_eq : solo.id = op.id
  kind_eq : solo.kind = op.kind
  stage_eq : solo.stage = op.stage
  aims : op.Aims service target
  receptive : Receptive op.inbox
  receptive_solo : Receptive solo.inbox
  harmless : ∀ p ∈ op.inbox.waiting ++ later, p.request.endsOperation = false
  harmless_solo : ∀ p ∈ solo.inbox.waiting, p.request.endsOperation = false
  waiting_eq : (∀ t, op.stage ≠ .sending t) → solo.inbox.waiting = op.inbox.waiting ++ later

/-- What two operations do in a turn, if they do the same: they say the same to the peer, and store the
same file or none. The one may wait for packets that the other has. -/
inductive Alike (service : Service) (target : Option Path) (later : List Packet) (op solo : Operation)
    (s s₀ : Scene) : Turn → Turn → Prop
  | wait {turn : Turn} (hinbox : op.inbox.waiting = []) (hlater : later = [] → turn = .wait) :
      Alike service target later op solo s s₀ .wait turn
  | next {posts : List Packet} {stage : Stage} {inbox inbox₀ : Queue Packet}
      (hposts : ∀ p ∈ posts, p.operation = op.id)
      (htwin : Twin service target later { op with stage, inbox } { solo with stage, inbox := inbox₀ }) :
      Alike service target later op solo s s₀ (.next stage inbox (s.postAll posts))
        (.next stage inbox₀ (s₀.postAll posts))
  | done {posts : List Packet} {result : Except Failure Unit} {s' s₀' : Scene}
      (hposts : ∀ p ∈ posts, p.operation = op.id) (hsession : s'.session = s.session.postAll posts)
      (hsession₀ : s₀'.session = s₀.session.postAll posts)
      (htree : s'.tree = s.tree ∧ s₀'.tree = s₀.tree ∨ ∃ path node, op.kind = .upload ∧
        target = some path ∧ s'.tree = s.tree.set path.destination node ∧
        s₀'.tree = s₀.tree.set path.destination node) :
      Alike service target later op solo s s₀ (.done result s') (.done result s₀')

section

variable {service : Service} {target : Option Path} {later : List Packet} {op solo : Operation}
  {s s₀ : Scene}

/-- What a stage aims at, with the stage named. -/
private theorem Twin.aims_at {stage : Stage} (h : Twin service target later op solo)
    (hstage : op.stage = stage) : ({ op with stage } : Operation).Aims service target := by
  subst hstage
  exact h.aims

/-- Both fail alike, and neither has done anything. -/
private theorem Alike.failed (failure : Failure) :
    Alike service target later op solo s s₀ (.done (.error failure) s) (.done (.error failure) s₀) :=
  .done (List.forall_mem_nil _) rfl rfl (.inl ⟨rfl, rfl⟩)

/-- Both make the same check. It fails for both, or both go on with the same value. -/
private theorem Alike.proceed {α : Type} {result : Except Failure α} {go go₀ : α → Turn}
    (h : ∀ a, result = .ok a → Alike service target later op solo s s₀ (go a) (go₀ a)) :
    Alike service target later op solo s s₀ (.proceed s result go) (.proceed s₀ result go₀) := by
  cases hresult : result with
  | error failure => exact .failed failure
  | ok a => exact h a hresult

/-- What goes on with another stage and nothing else. -/
private theorem Alike.goes {stage : Stage} {inbox inbox₀ : Queue Packet}
    (h : Twin service target later { op with stage, inbox } { solo with stage, inbox := inbox₀ }) :
    Alike service target later op solo s s₀ (.next stage inbox s) (.next stage inbox₀ s₀) :=
  .next (List.forall_mem_nil _) h

/-- Where packets may still come an empty inbox is waited for. -/
theorem Receptive.read_nil {inbox : Queue Packet} (h : Receptive inbox) (hempty : inbox.waiting = [])
    (scene : Scene) (go : Packet → Queue Packet → Turn) : Turn.read inbox scene go = .wait := by
  rw [Turn.read_nil hempty, if_neg]
  simp [Queue.isClosed, h.1, h.2]

/-- Both read the same packet, or the one has none yet. -/
private theorem Twin.read {go go₀ : Packet → Queue Packet → Turn}
    (h : Twin service target later op solo) (hstage : ∀ t, op.stage ≠ .sending t)
    (hgo : ∀ p rest inbox inbox₀, op.inbox.waiting = p :: rest → inbox.waiting = rest →
      inbox₀.waiting = rest ++ later → Receptive inbox → Receptive inbox₀ →
      Alike service target later op solo s s₀ (go p inbox) (go₀ p inbox₀)) :
    Alike service target later op solo s s₀ (.read op.inbox s go) (.read solo.inbox s₀ go₀) := by
  have hwaiting := h.waiting_eq hstage
  cases hinbox : op.inbox.waiting with
  | nil =>
    rw [hinbox, List.nil_append] at hwaiting
    rw [h.receptive.read_nil hinbox]
    refine .wait hinbox fun hlater => ?_
    rw [hlater] at hwaiting
    exact h.receptive_solo.read_nil hwaiting s₀ go₀
  | cons p rest =>
    rw [hinbox, List.cons_append] at hwaiting
    have hends : p.request.endsOperation = false := h.harmless p (by rw [hinbox]; exact List.mem_cons_self)
    obtain ⟨inbox, hrest, hreceiver, hsenders, hread⟩ := Turn.read_cons hinbox
    obtain ⟨inbox₀, hrest₀, hreceiver₀, hsenders₀, hread₀⟩ := Turn.read_cons hwaiting
    rw [hread, hread₀, hends]
    exact hgo p rest inbox inbox₀ hinbox hrest hrest₀
      ⟨hreceiver.trans h.receptive.1, hsenders ▸ h.receptive.2⟩
      ⟨hreceiver₀.trans h.receptive_solo.1, hsenders₀ ▸ h.receptive_solo.2⟩

/-- After both have read a packet the one still has yet to be given the rest. -/
private theorem Twin.behind {p : Packet} {rest : List Packet} {inbox inbox₀ : Queue Packet}
    {stage : Stage} (h : Twin service target later op solo) (hstage : ∀ t, op.stage ≠ .sending t)
    (hinbox : op.inbox.waiting = p :: rest) (hrest : inbox.waiting = rest)
    (hrest₀ : inbox₀.waiting = rest ++ later) (hreceptive : Receptive inbox)
    (hreceptive₀ : Receptive inbox₀) (haims : ({ op with stage, inbox } : Operation).Aims service target) :
    Twin service target later { op with stage, inbox } { solo with stage, inbox := inbox₀ } where
  id_eq := h.id_eq
  kind_eq := h.kind_eq
  stage_eq := rfl
  aims := haims
  receptive := hreceptive
  receptive_solo := hreceptive₀
  harmless := fun q hq => h.harmless q (by
    rw [hinbox]
    show q ∈ p :: (rest ++ later)
    rw [← hrest]
    exact List.mem_cons_of_mem p hq)
  harmless_solo := fun q hq => h.harmless_solo q (by
    rw [h.waiting_eq hstage, hinbox]
    show q ∈ p :: (rest ++ later)
    rw [← hrest₀]
    exact List.mem_cons_of_mem p hq)
  waiting_eq := fun _ => hrest₀.trans (by rw [hrest])

/-! ### Turns -/

/-- Both read the request that opens them, and it names the file they aim at. -/
private theorem alike_opening (h : Twin service target later op solo) (hstage : op.stage = .opening) :
    Alike service target later op solo s s₀ (op.turn service s) (solo.turn service s₀) := by
  have hnot (t : Transfer) : op.stage ≠ .sending t := by rw [hstage]; intro ht; cases ht
  obtain ⟨hkind, p, rest, hfirst, haim⟩ : op.kind ≠ .allocate ∧
      ∃ p rest, op.inbox.waiting = p :: rest ∧ target? service op.kind p = target :=
    h.aims_at hstage
  simp only [turn, h.stage_eq, h.kind_eq, hstage]
  refine h.read hnot fun p' rest' inbox inbox₀ hinbox hrest hrest₀ hreceptive hreceptive₀ => ?_
  -- The packet that is read is the one that opens the operation, and it names the file.
  have hsame : p :: rest = p' :: rest' := hfirst.symm.trans hinbox
  cases hsame
  split
  · next hdownload =>
    refine .proceed fun request hrequest => .goes ?_
    obtain ⟨kind, r⟩ := request
    refine h.behind hnot hinbox hrest hrest₀ hreceptive hreceptive₀ ?_
    simp only [target?, hdownload, hrequest] at haim
    exact haim
  · next hupload =>
    refine .proceed fun u hrequest => .goes ?_
    refine h.behind hnot hinbox hrest hrest₀ hreceptive hreceptive₀ ?_
    simp only [target?, hupload, hrequest] at haim
    exact ⟨hupload, haim⟩
  · next hallocate => exact absurd hallocate hkind

/-- Both find the same file, or none. -/
private theorem alike_locating {kind : FileKind} {r : FileRequest}
    (h : Twin service target later op solo) (hstage : op.stage = .locating kind r)
    (hagree : ∀ path, target = some path → Tree.AgreeOn path.way s₀.tree s.tree) :
    Alike service target later op solo s s₀ (op.turn service s) (solo.turn service s₀) := by
  have htarget : (service.store.resolve kind r.user r.name).toOption = target := h.aims_at hstage
  -- Locating looks at the way to the file only, and there the two trees agree.
  have hlocate : Download.locate service s kind r = Download.locate service s₀ kind r :=
    Download.locate_congr fun path hpath => hagree path (by rw [← htarget, hpath]; rfl)
  simp only [turn, h.stage_eq, hstage, hlocate]
  refine .proceed fun t ht => .goes ?_
  have hnot (t : Transfer) : op.stage ≠ .sending t := by rw [hstage]; intro ht; cases ht
  refine { h with stage_eq := rfl, aims := ?_, waiting_eq := fun _ => h.waiting_eq hnot }
  -- What was found is at the end of the way.
  obtain ⟨path, content, hpath, hfound⟩ := Download.locate_eq_ok ht
  exact ⟨path, by rw [← htarget, hpath]; rfl, (Tree.get?_of_locate_file hfound).2⟩

/-- Both send the same block. -/
private theorem alike_sending {t : Transfer} (h : Twin service target later op solo)
    (hstage : op.stage = .sending t) (hreaches : s.reachesPeer = true)
    (hreaches₀ : s₀.reachesPeer = true)
    (hagree : ∀ path, target = some path → Tree.AgreeOn path.way s₀.tree s.tree) :
    Alike service target later op solo s s₀ (op.turn service s) (solo.turn service s₀) := by
  obtain ⟨path, hpath, hplace⟩ : ∃ path, target = some path ∧ t.place ∈ path.way :=
    h.aims_at hstage
  have hstage₀ : solo.stage = .sending t := h.stage_eq.trans hstage
  have hread := Download.readBlock_congr (hagree path hpath t.place hplace) t.offset
    (min t.remaining service.limits.downloadChunk)
  -- From here on both read the same block, or fail in the same way.
  cases hblock : Download.readBlock s₀.tree t.place t.offset
      (min t.remaining service.limits.downloadChunk) with
  | error failure =>
    simp only [turn, hstage, hstage₀, Download.sendBlock, hread, hblock]
    exact .failed failure
  | ok block =>
    cases hopening : Download.announcement op.id t with
    | error failure =>
      simp only [turn, hstage, hstage₀, h.id_eq, Download.sendBlock, hread, hblock, Turn.proceed,
        Download.announce_eq hreaches, Download.announce_eq hreaches₀, hopening]
      exact .failed failure
    | ok opening =>
      have hharmless : ∀ p ∈ op.inbox.waiting, p.request.endsOperation = false :=
        fun p hp => h.harmless p (List.mem_append_left _ hp)
      rw [Download.turn_sending hstage hreaches hharmless (hread.trans hblock) hopening,
        Download.turn_sending hstage₀ hreaches₀ h.harmless_solo hblock (h.id_eq ▸ hopening), h.id_eq]
      have hposts := Download.operation_of_opening_block hopening
        (Download.blockPacket (Download.advance t block.length) block)
      simp only
      split
      · exact .done hposts rfl rfl (.inl ⟨rfl, rfl⟩)
      · -- The one drops what it was given so far and the other all of it, and neither reads again.
        refine .next hposts { h with
          stage_eq := rfl
          aims := ⟨path, hpath, hplace⟩
          receptive := h.receptive
          receptive_solo := h.receptive_solo
          harmless := fun p hp => h.harmless p ?_
          harmless_solo := fun p hp => ?_
          waiting_eq := fun hnot => absurd rfl (hnot _) }
        · rw [Queue.waiting_drained, List.nil_append] at hp
          exact List.mem_append_right _ hp
        · rw [Queue.waiting_drained] at hp
          cases hp

/-- Both add the same piece to the content. -/
private theorem alike_collecting {u : Upload} (h : Twin service target later op solo)
    (hstage : op.stage = .collecting u) :
    Alike service target later op solo s s₀ (op.turn service s) (solo.turn service s₀) := by
  have hnot (t : Transfer) : op.stage ≠ .sending t := by rw [hstage]; intro ht; cases ht
  obtain ⟨hkind, htarget⟩ : op.kind = .upload ∧
      (service.store.resolve u.kind u.descriptor.user u.descriptor.name).toOption = target :=
    h.aims_at hstage
  simp only [turn, h.stage_eq, hstage]
  refine h.read hnot fun p rest inbox inbox₀ hinbox hrest hrest₀ hreceptive hreceptive₀ => ?_
  refine .proceed fun u' hcollect => .goes ?_
  refine h.behind hnot hinbox hrest hrest₀ hreceptive hreceptive₀ ?_
  -- Only the content grows.
  have hsame : u'.kind = u.kind ∧ u'.descriptor = u.descriptor := by
    rw [(Upload.collect_eq_ok_iff.mp hcollect).2.2]
    exact ⟨rfl, rfl⟩
  cases p.more with
  | true => exact ⟨hkind, by rw [hsame.1, hsame.2]; exact htarget⟩
  | false => exact ⟨hkind, by rw [hsame.1, hsame.2]; exact htarget⟩

/-- Both store the same file at the same place, or fail to. -/
private theorem alike_saving {u : Upload} (h : Twin service target later op solo)
    (hstage : op.stage = .saving u) (hreaches : s.reachesPeer = true)
    (hreaches₀ : s₀.reachesPeer = true)
    (hagree : ∀ path, target = some path → Tree.AgreeOn path.way s₀.tree s.tree) :
    Alike service target later op solo s s₀ (op.turn service s) (solo.turn service s₀) := by
  obtain ⟨hkind, htarget⟩ : op.kind = .upload ∧
      (service.store.resolve u.kind u.descriptor.user u.descriptor.name).toOption = target :=
    h.aims_at hstage
  simp only [turn, h.stage_eq, hstage, h.id_eq, Upload.save]
  cases hpath : service.store.resolve u.kind u.descriptor.user u.descriptor.name with
  | error e =>
    -- A file without a path is refused by every tree.
    simp only [Store.save, bind, Except.bind, hpath]
    exact .failed _
  | ok path =>
    rw [hpath] at htarget
    rw [Store.save_congr hpath (hagree path htarget.symm)]
    cases hsave : service.store.save s₀.tree u.kind u.descriptor.user u.descriptor.name u.data with
    | error e => exact .failed _
    | ok tree =>
      obtain ⟨path', hpath', hstored⟩ := Store.stored_of_save hsave
      rw [hpath] at hpath'
      cases hpath'
      have hreach (s : Scene) (tree : Tree) (h : s.reachesPeer = true) :
          ({ s with tree } : Scene).reachesPeer = true := h
      simp only [Except.map, mapError_ok, Turn.proceed, Scene.send?_of_reachesPeer (hreach _ _ hreaches),
        Scene.send?_of_reachesPeer (hreach _ _ hreaches₀)]
      have hpost : ∀ p ∈ [Upload.confirmation.withOperation op.id], p.operation = op.id := by
        intro p hp
        rw [List.mem_singleton.mp hp]
        rfl
      exact .done hpost rfl rfl (.inr ⟨path, _, hkind, htarget.symm, rfl, hstored.eq_set⟩)

/-- An operation does in a turn what it would do alone. -/
theorem turn_alike (h : Twin service target later op solo) (hreaches : s.reachesPeer = true)
    (hreaches₀ : s₀.reachesPeer = true)
    (hagree : ∀ path, target = some path → Tree.AgreeOn path.way s₀.tree s.tree) :
    Alike service target later op solo s s₀ (op.turn service s) (solo.turn service s₀) := by
  cases hstage : op.stage with
  | opening => exact alike_opening h hstage
  | locating kind r => exact alike_locating h hstage hagree
  | sending t => exact alike_sending h hstage hreaches hreaches₀ hagree
  | collecting u => exact alike_collecting h hstage
  | saving u => exact alike_saving h hstage hreaches hreaches₀ hagree
  | allocating => exact (h.aims_at hstage).elim

/-! ### Steps -/

/-- An operation that waits has read all it was given, and alone it would wait for what comes later. -/
theorem step_waiting_alike (h : Twin service target later op solo) (hreaches : s.reachesPeer = true)
    (hreaches₀ : s₀.reachesPeer = true)
    (hagree : ∀ path, target = some path → Tree.AgreeOn path.way s₀.tree s.tree)
    (hstep : op.step service s = .waiting) (hlater : later = []) :
    solo.step service s₀ = .waiting := by
  have halike := turn_alike h hreaches hreaches₀ hagree
  unfold step at hstep ⊢
  generalize op.turn service s = turn at halike hstep
  generalize solo.turn service s₀ = turn₀ at halike ⊢
  cases halike with
  | wait _ hwait => rw [hwait hlater]
  | next _ _ => cases hstep
  | done _ _ _ _ => cases hstep

/-- If the one goes on so does the other, with the same replies. -/
theorem step_running_alike {op' : Operation} {s' : Scene} (h : Twin service target later op solo)
    (hreaches : s.reachesPeer = true) (hreaches₀ : s₀.reachesPeer = true)
    (hagree : ∀ path, target = some path → Tree.AgreeOn path.way s₀.tree s.tree)
    (hstep : op.step service s = .running op' s') :
    ∃ posts solo', (∀ p ∈ posts, p.operation = op.id) ∧ s' = s.postAll posts ∧
      solo.step service s₀ = .running solo' (s₀.postAll posts) ∧
      op'.id = op.id ∧ op'.kind = op.kind ∧ Twin service target later op' solo' := by
  have halike := turn_alike h hreaches hreaches₀ hagree
  unfold step at hstep ⊢
  generalize op.turn service s = turn at halike hstep
  generalize solo.turn service s₀ = turn₀ at halike ⊢
  cases halike with
  | wait _ _ => cases hstep
  | next hposts htwin =>
    cases hstep
    exact ⟨_, _, hposts, rfl, rfl, rfl, rfl, htwin⟩
  | done _ _ _ _ => cases hstep

/-- If the one ends so does the other, with the same outcome, the same replies and the same file. -/
theorem step_ended_alike {outcome : Outcome} {s' : Scene} (h : Twin service target later op solo)
    (hreaches : s.reachesPeer = true) (hreaches₀ : s₀.reachesPeer = true)
    (hagree : ∀ path, target = some path → Tree.AgreeOn path.way s₀.tree s.tree)
    (hstep : op.step service s = .ended outcome s') :
    ∃ posts s₀', (∀ p ∈ posts, p.operation = op.id) ∧ s'.session = s.session.postAll posts ∧
      solo.step service s₀ = .ended outcome s₀' ∧ s₀'.session = s₀.session.postAll posts ∧
      (s'.tree = s.tree ∧ s₀'.tree = s₀.tree ∨ ∃ path node, op.kind = .upload ∧
        target = some path ∧ s'.tree = s.tree.set path.destination node ∧
        s₀'.tree = s₀.tree.set path.destination node) := by
  have halike := turn_alike h hreaches hreaches₀ hagree
  unfold step at hstep ⊢
  generalize op.turn service s = turn at halike hstep
  generalize solo.turn service s₀ = turn₀ at halike ⊢
  cases halike with
  | wait _ _ => cases hstep
  | next _ _ => cases hstep
  | @done posts result s₁ s₁₀ hposts hsession hsession₀ htree =>
    cases hstep
    -- Both report the same failure, if it is one.
    have hlast : solo.lastReplies result = op.lastReplies result := by
      cases result with
      | ok _ => rfl
      | error failure => simp only [lastReplies, failureReplies, h.id_eq, h.kind_eq]
    obtain ⟨hkept, hsaid⟩ :=
      conclude_eq ((Scene.reachesPeer_of_session hsession).trans hreaches) op result
    obtain ⟨hkept₀, hsaid₀⟩ :=
      conclude_eq ((Scene.reachesPeer_of_session hsession₀).trans hreaches₀) solo result
    refine ⟨posts ++ op.lastReplies result, _, fun p hp => ?_, ?_, rfl, ?_, ?_⟩
    · rcases List.mem_append.mp hp with hp | hp
      · exact hposts p hp
      · exact op.operation_of_lastReplies result p hp
    · rw [hsaid, hsession, Session.postAll_append]
    · rw [hsaid₀, hsession₀, hlast, Session.postAll_append]
    · rw [hkept, hkept₀]
      exact htree

end

end Depot.Operation
