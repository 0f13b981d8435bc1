import Depot.Operation.Script
import Depot.Proofs.Operation.Doomed

/-!
# What operations do in parts

Done with nothing in between, the parts of a script are the step. Done with others in between, two things
are true of every script. It is `Guarded`: a packet is put only by an operation that has just seen the
session alive. And it `Lasts` for a known number of parts.

## Key results

- `step_eq_run`: a step is its script with nothing in between
- `script_guarded`, `Does.guarded`: nothing is put without a check
- `script_lasts`: the parts of a step are few
-/

namespace Depot.Operation

section

variable {service : Service} {op op' : Operation} {s s' : Scene}

/-! ### Nothing in between -/

/-- Sending in two parts with nothing in between is sending. -/
private theorem run_send (p : Packet) (sent unsent : Script) (op : Operation) (s : Scene) :
    (Script.send p sent unsent).run op s =
      match s.send? op.id p with
      | some s' => sent.run op s'
      | none => unsent.run op s := by
  by_cases hlive : s.session.live = true
  · by_cases hclosed : s.session.outbound.isClosed = true
    · simp [Script.send, Script.run, Scene.send?, Scene.reachesPeer, hlive, hclosed]
    · simp [Script.send, Script.run, Scene.send?, Scene.reachesPeer, hlive, hclosed]
  · simp [Script.send, Script.run, Scene.send?, Scene.reachesPeer, hlive]

/-- A failure is reported under the id and the kind of the operation, whatever has become of its inbox. -/
private theorem run_fail (hid : op'.id = op.id) (hkind : op'.kind = op.kind) (failure : Failure)
    (s : Scene) :
    (Script.fail op failure).run op' s =
      .ended (outcome (.error failure)) (op.conclude (.error failure) s) := by
  simp only [Script.fail, conclude, report]
  cases failure.code? with
  | none => simp only [Script.run, hkind]
  | some code =>
    simp only [run_send, hid, Script.run, hkind]
    cases s.send? op.id (.error op.kind.request code op.id) with
    | none => rfl
    | some s' => rfl

/-- Where a turn leads. -/
private def Turn.progress (op : Operation) : Turn → Progress
  | .wait => .waiting
  | .next stage inbox scene => .running { op with stage, inbox } scene
  | .done result scene => .ended (outcome result) (op.conclude result scene)

/-- A step is its turn with the operation put back together. -/
private theorem step_eq_progress (service : Service) (op : Operation) (s : Scene) :
    op.step service s = (op.turn service s).progress op := by
  unfold step
  cases op.turn service s with
  | wait => rfl
  | next stage inbox scene => rfl
  | done result scene => rfl

/-- What goes on from a result goes on alike, and a failure is the same failure. -/
private theorem run_proceed {α : Type} {result : Except Failure α} {go : α → Script} {turn : α → Turn}
    (hid : op'.id = op.id) (hkind : op'.kind = op.kind)
    (hgo : ∀ a, result = .ok a → (go a).run op' s = (turn a).progress op) :
    (Script.proceed op result go).run op' s = (Turn.proceed s result turn).progress op := by
  cases hresult : result with
  | error failure => exact run_fail hid hkind failure s
  | ok a => exact hgo a hresult

/-- Reading in parts is reading at once, if what follows is the same. -/
private theorem run_read {go : Packet → Script} {turn : Packet → Queue Packet → Turn}
    (hgo : ∀ p rest, (go p).run { op with inbox := rest } s = (turn p rest).progress op) :
    (Script.read go).run op s = (Turn.read op.inbox s turn).progress op := by
  unfold Script.run Turn.read
  -- The inbox is asked once in either form, so the cases are those of the answer.
  cases hreceive : op.inbox.receive with
  | mk received rest =>
    cases received with
    | pending => rfl
    | ended => rfl
    | item p =>
      simp only
      split
      · rfl
      · exact hgo p rest

/-- The description is sent, or the operation is over. -/
private theorem run_announce {t : Transfer} {go : Script} {turn : Scene → Turn}
    (hgo : ∀ s', go.run op s' = (turn s').progress op) :
    (Script.announce op t go).run op s =
      (Turn.proceed s (Download.announce op.id t s) turn).progress op := by
  unfold Script.announce Download.announce
  -- A file that is announced already is not announced again.
  split
  · exact hgo s
  · cases Download.infoPacket t with
    | error failure => exact run_fail rfl rfl failure s
    | ok p =>
      simp only [Script.proceed, run_send]
      cases s.send? op.id p with
      | none => rfl
      | some s' => exact hgo s'

/-- Sending a block in parts is sending it at once. -/
private theorem run_sendBlock (service : Service) (op : Operation) (t : Transfer) (s : Scene) :
    (Script.sendBlock service op t).run op s =
      (Download.sendBlock service op.id t op.inbox s).progress op := by
  refine run_proceed rfl rfl fun block _ => run_announce fun s₁ => ?_
  -- Whoever finds the session dead does not look at the inbox, but it is over either way.
  by_cases hlive : s₁.session.live = true
  · cases hfound : op.inbox.waiting.any (·.request.endsOperation) with
    | true =>
      simp only [Script.run, hlive, hfound, ↓reduceIte, Bool.not_true, Bool.or_true]
      rfl
    | false =>
      simp only [Script.run, hlive, hfound, ↓reduceIte, Bool.not_true, Bool.or_self,
        Bool.false_eq_true, run_send]
      cases s₁.send? op.id (Download.blockPacket _ block) with
      | none => rfl
      | some s₂ =>
        simp only
        split
        · rfl
        · rfl
  · simp only [Script.run, hlive, Bool.false_eq_true, ↓reduceIte, Bool.not_false, Bool.true_or]
    rfl

/-- Storing a file in parts is storing it at once. -/
private theorem run_save (service : Service) (op : Operation) (u : Upload) (s : Scene) :
    (Script.save service op u).run op s = (Upload.save service op.id u s).progress op := by
  simp only [Script.save, Script.run, Upload.save]
  cases service.store.save s.tree u.kind u.descriptor.user u.descriptor.name u.data with
  | error e => exact run_fail rfl rfl (.ofStore e) s
  | ok tree =>
    simp only [mapError_ok, Script.proceed, Turn.proceed, Except.toOption, Option.getD_some, run_send]
    cases ({ s with tree } : Scene).send? op.id Upload.confirmation with
    | none => rfl
    | some s' => rfl

/-- Making an id in parts is making it at once. -/
private theorem run_allocate (service : Service) (op : Operation) (s : Scene) :
    (Script.allocate service op).run op s = (Allocation.allocate service op.id s).progress op := by
  simp only [Script.allocate, Script.run, Allocation.allocate]
  -- All failures of the store are the same one here, before it is reported.
  cases service.store.allocate s.tree with
  | error e => exact run_fail rfl rfl .noMoreIds s
  | ok made =>
    obtain ⟨user, tree⟩ := made
    simp only [mapError_ok, Script.proceed, Except.toOption, Option.map_some, Option.getD_some,
      Script.run, run_send]
    cases Scene.send? { s with tree, session := { s.session with user } } op.id
        (.new .id (UserId.encode user)) with
    | none => rfl
    | some s' => rfl

/-- A step is its script with nothing in between. -/
theorem step_eq_run (service : Service) (op : Operation) (s : Scene) :
    op.step service s = (op.script service).run op s := by
  rw [step_eq_progress]
  symm
  obtain ⟨id, kind, stage, inbox⟩ := op
  -- One case for each stage. In those that only work something out, the two forms are the same term.
  cases stage with
  | opening =>
    refine run_read fun p rest => ?_
    cases kind with
    | download => exact run_proceed rfl rfl fun _ _ => rfl
    | upload => exact run_proceed rfl rfl fun _ _ => rfl
    | allocate => exact run_proceed rfl rfl fun _ _ => rfl
  | locating kind request => exact run_proceed rfl rfl fun _ _ => rfl
  | sending t => exact run_sendBlock service ⟨id, kind, .sending t, inbox⟩ t s
  | collecting u => exact run_read fun p rest => run_proceed rfl rfl fun _ _ => rfl
  | saving u => exact run_save service ⟨id, kind, .saving u, inbox⟩ u s
  | allocating => exact run_allocate service ⟨id, kind, .allocating, inbox⟩ s

/-! ### What a part does -/

/-- What the next part of a script may do to an operation and its scene, and what it leaves of the script. -/
inductive Script.Does (op : Operation) (s : Scene) : Script → Operation → Option Script → Scene → Prop
  | next (stage : Stage) : Does op s (.next stage) { op with stage } none s
  | finish (outcome : Outcome) (h : op.inbox.receiver ≠ .gone) :
      Does op s (.finish outcome) { op with inbox := op.inbox.dropReceiver } (some (.finish outcome))
        (s.count (.handlers op.kind outcome))
  /-- The inbox has come to its end. -/
  | readNothing {go : Packet → Script} (h : op.inbox.waiting = []) :
      Does op s (.read go) op (some (.finish .aborted)) s
  | readEnd {go : Packet → Script} {p : Packet} {rest : Queue Packet}
      (hwaiting : op.inbox.waiting = p :: rest.waiting) (hreceiver : rest.receiver = op.inbox.receiver) :
      Does op s (.read go) { op with inbox := rest } (some (.finish .aborted)) s
  | read {go : Packet → Script} {p : Packet} {rest : Queue Packet}
      (hwaiting : op.inbox.waiting = p :: rest.waiting) (hreceiver : rest.receiver = op.inbox.receiver)
      (hgoes : p.request.endsOperation = false) :
      Does op s (.read go) { op with inbox := rest } (some (go p)) s
  | scanNothing {go : Script} (h : op.inbox.waiting = []) : Does op s (.scan go) op (some go) s
  | scanEnd {go : Script} {p : Packet} {rest : Queue Packet}
      (hwaiting : op.inbox.waiting = p :: rest.waiting) (hreceiver : rest.receiver = op.inbox.receiver) :
      Does op s (.scan go) { op with inbox := rest } (some (.finish .aborted)) s
  | scan {go : Script} {p : Packet} {rest : Queue Packet}
      (hwaiting : op.inbox.waiting = p :: rest.waiting) (hreceiver : rest.receiver = op.inbox.receiver)
      (hgoes : p.request.endsOperation = false) :
      Does op s (.scan go) { op with inbox := rest } (some (.scan go)) s
  | files (write : Storage.Tree → Storage.Tree) (go : Storage.Tree → Script) :
      Does op s (.files write go) op (some (go s.tree)) { s with tree := write s.tree }
  | identify (user : UInt32) (go : Script) :
      Does op s (.identify user go) op (some go) { s with session := { s.session with user } }
  | alive {live dead : Script} (h : s.session.live = true) :
      Does op s (.check live dead) op (some live) s
  | dead {live dead : Script} (h : s.session.live = false) :
      Does op s (.check live dead) op (some dead) s
  | put {p : Packet} {taken refused : Script} :
      Does op s (.put p taken refused) op (some taken)
        { s with session := s.session.post (p.withOperation op.id) }
  | refused {p : Packet} {taken refused : Script} (h : s.session.outbound.isClosed = true) :
      Does op s (.put p taken refused) op (some refused) s

/-- What a part comes to, said without the code that does it. -/
theorem Script.does_of_part {script : Script} {rest : Option Script}
    (h : script.part op s = .on op' rest s') : script.Does op s op' rest s' := by
  -- One case for each kind of part.
  cases script with
  | next stage =>
    cases h
    exact .next stage
  | finish outcome =>
    simp only [Script.part] at h
    split at h
    · cases h
    · next hreceiver =>
      cases h
      exact .finish outcome hreceiver
  | read go =>
    simp only [Script.part] at h
    split at h
    · cases h
    · next hreceive =>
      cases h
      exact .readNothing (Queue.receive_ended hreceive).1
    · next p rest hreceive =>
      obtain ⟨hwaiting, hreceiver, -⟩ := Queue.receive_item hreceive
      cases h
      split
      · exact .readEnd hwaiting hreceiver
      · next hgoes => exact .read hwaiting hreceiver (by simpa using hgoes)
  | scan go =>
    simp only [Script.part] at h
    split at h
    · next hnone =>
      cases h
      exact .scanNothing (Queue.tryReceive_eq_none_iff.mp hnone)
    · next p rest htry =>
      have hwaiting := Queue.waiting_tryReceive htry
      have hreceiver := (Queue.ends_tryReceive htry).1
      cases h
      split
      · exact .scanEnd hwaiting hreceiver
      · next hgoes => exact .scan hwaiting hreceiver (by simpa using hgoes)
  | files write go =>
    cases h
    exact .files write go
  | identify user go =>
    cases h
    exact .identify user go
  | check live dead =>
    cases h
    split
    · next hlive => exact .alive hlive
    · next hlive => exact .dead (by simpa using hlive)
  | put p taken refused =>
    simp only [Script.part] at h
    split at h
    · next hclosed =>
      cases h
      exact .refused hclosed
    · cases h
      exact .put

namespace Script

variable {script : Script} {rest : Option Script}

/-- No part changes the id or the kind of an operation. -/
theorem Does.same (h : script.Does op s op' rest s') : op'.id = op.id ∧ op'.kind = op.kind := by
  cases h <;> exact ⟨rfl, rfl⟩

/-- No operation brings a session back, or ends it. -/
theorem Does.live (h : script.Does op s op' rest s') : s'.session.live = s.session.live := by
  cases h <;> rfl

/-- Whatever is left in the inbox was there before. -/
theorem Does.receiver (h : script.Does op s op' rest s') :
    op'.inbox.receiver = op.inbox.receiver ∨
      op'.inbox.receiver = .gone ∧ ∃ outcome, rest = some (.finish outcome) := by
  cases h with
  | finish outcome _ => exact .inr ⟨rfl, outcome, rfl⟩
  | readEnd _ hreceiver => exact .inl hreceiver
  | read _ hreceiver _ => exact .inl hreceiver
  | scanEnd _ hreceiver => exact .inl hreceiver
  | scan _ hreceiver _ => exact .inl hreceiver
  | _ => exact .inl rfl

/-! ### Checks -/

/-- Whether every packet is put right behind a check that has found the session alive. `seen` says whether
the first part stands behind one. -/
inductive Guarded : Bool → Script → Prop
  | next {seen : Bool} (stage : Stage) : Guarded seen (.next stage)
  | finish {seen : Bool} (outcome : Outcome) : Guarded seen (.finish outcome)
  | read {seen : Bool} {go : Packet → Script} (h : ∀ p, Guarded false (go p)) : Guarded seen (.read go)
  | scan {seen : Bool} {go : Script} (h : Guarded false go) : Guarded seen (.scan go)
  | files {seen : Bool} {write : Storage.Tree → Storage.Tree} {go : Storage.Tree → Script}
      (h : ∀ tree, Guarded false (go tree)) : Guarded seen (.files write go)
  | identify {seen : Bool} {user : UInt32} {go : Script} (h : Guarded false go) :
      Guarded seen (.identify user go)
  | check {seen : Bool} {live dead : Script} (hlive : Guarded true live) (hdead : Guarded false dead) :
      Guarded seen (.check live dead)
  | put {p : Packet} {taken refused : Script} (htaken : Guarded false taken)
      (hrefused : Guarded false refused) : Guarded true (.put p taken refused)

/-- Whoever needs no check may have made one. -/
theorem Guarded.seen (h : Guarded false script) (seen : Bool) : Guarded seen script := by
  cases h with
  | next stage => exact .next stage
  | finish outcome => exact .finish outcome
  | read h => exact .read h
  | scan h => exact .scan h
  | files h => exact .files h
  | identify h => exact .identify h
  | check hlive hdead => exact .check hlive hdead

/-- Only a put needs a check before it. -/
theorem Guarded.of_not_put (h : Guarded true script)
    (hput : ∀ p taken refused, script ≠ .put p taken refused) : Guarded false script := by
  -- The constructors do not mention the check, but for the one that is excluded.
  cases h with
  | next stage => exact .next stage
  | finish outcome => exact .finish outcome
  | read h => exact .read h
  | scan h => exact .scan h
  | files h => exact .files h
  | identify h => exact .identify h
  | check hlive hdead => exact .check hlive hdead
  | put _ _ => exact absurd rfl (hput _ _ _)

/-- Sending has its check in front. -/
theorem guarded_send {p : Packet} {sent unsent : Script} (hsent : Guarded false sent)
    (hunsent : Guarded false unsent) : Guarded false (send p sent unsent) :=
  .check (.put hsent hunsent) hunsent

/-- A failure is reported by sending. -/
theorem guarded_fail (op : Operation) (failure : Failure) : Guarded false (fail op failure) := by
  unfold fail
  split
  · exact .finish _
  · exact guarded_send (.finish _) (.finish _)

/-- Going on is guarded if what is gone on with is, and so is failing. -/
theorem guarded_proceed {α : Type} (op : Operation) (result : Except Failure α) {go : α → Script}
    (h : ∀ a, Guarded false (go a)) : Guarded false (proceed op result go) := by
  cases result with
  | error failure => exact guarded_fail op failure
  | ok a => exact h a

/-- Both packets of a download, the description and the block, are sent behind a check. -/
theorem guarded_sendBlock (service : Service) (op : Operation) (t : Transfer) :
    Guarded false (sendBlock service op t) := by
  have hblock (block : List UInt8) {t' : Transfer} : Guarded false (.check
      (.scan (send (Download.blockPacket t' block)
        (if t'.remaining = 0 then .finish .ok else .next (.sending t')) (.finish .aborted)))
      (.finish .aborted)) := by
    refine .check (.scan (guarded_send ?_ (.finish _))) (.finish _)
    split
    · exact .finish _
    · exact .next _
  refine .files fun tree => guarded_proceed op _ fun block => ?_
  unfold announce
  split
  · exact hblock block
  · exact guarded_proceed op _ fun _ => guarded_send (hblock block) (.finish _)

end Script

/-- No stage puts a packet without a check. -/
theorem script_guarded (service : Service) (op : Operation) : (op.script service).Guarded false := by
  -- By the stage that the operation is in.
  unfold script
  split
  · refine .read fun p => ?_
    split
    · refine Script.guarded_proceed op _ fun asked => ?_
      obtain ⟨kind, request⟩ := asked
      exact .next _
    · exact Script.guarded_proceed op _ fun _ => .next _
    · exact Script.guarded_proceed op _ fun _ => .next _
  · exact .files fun tree => Script.guarded_proceed op _ fun _ => .next _
  · next t _ => exact Script.guarded_sendBlock service op t
  · exact .read fun p => Script.guarded_proceed op _ fun _ => .next _
  · refine .files fun tree => Script.guarded_proceed op _ fun _ => ?_
    exact Script.guarded_send (.finish _) (.finish _)
  · refine .files fun tree => Script.guarded_proceed op _ fun made => ?_
    obtain ⟨user, after⟩ := made
    exact .identify (Script.guarded_send (.finish _) (.finish _))

namespace Script

variable {script : Script} {rest : Option Script}

/-- What is left behind a part needs a check, unless the part was one and found the session alive. -/
theorem Does.guarded {seen : Bool} (h : script.Does op s op' rest s') (hguarded : script.Guarded seen) :
    ∀ script', rest = some script' →
      script'.Guarded false ∨ s.session.live = true ∧ script'.Guarded true := by
  rintro script' rfl
  -- Only the part that finds the session alive is left with a put that needs no check any more.
  cases h with
  | finish outcome _ => exact .inl (.finish outcome)
  | readNothing _ => exact .inl (.finish .aborted)
  | readEnd _ _ => exact .inl (.finish .aborted)
  | read _ _ _ =>
    cases hguarded with
    | read hgo => exact .inl (hgo _)
  | scanNothing _ =>
    cases hguarded with
    | scan hgo => exact .inl hgo
  | scanEnd _ _ => exact .inl (.finish .aborted)
  | scan _ _ _ =>
    cases hguarded with
    | scan hgo => exact .inl (.scan hgo)
  | files write go =>
    cases hguarded with
    | files hgo => exact .inl (hgo _)
  | identify user go =>
    cases hguarded with
    | identify hgo => exact .inl hgo
  | alive halive =>
    cases hguarded with
    | check hlive _ => exact .inr ⟨halive, hlive⟩
  | dead _ =>
    cases hguarded with
    | check _ hdead => exact .inl hdead
  | put =>
    cases hguarded with
    | put htaken _ => exact .inl htaken
  | refused _ =>
    cases hguarded with
    | put _ hrefused => exact .inl hrefused

/-- Only whoever stands behind a check says anything. -/
theorem Does.silent (h : script.Does op s op' rest s') (hguarded : script.Guarded false) :
    s.Silent s' := by
  cases h with
  | put => cases hguarded
  | _ => exact ⟨rfl, rfl⟩

/-- Whoever stands behind a check puts the packet, and has to look again before the next one. -/
theorem Does.puts {p : Packet} {taken refused : Script}
    (h : (Script.put p taken refused).Does op s op' rest s')
    (hguarded : (Script.put p taken refused).Guarded true) :
    s'.session.outbound = s.session.outbound.push (p.withOperation op.id) ∧
      ∃ script', rest = some script' ∧ script'.Guarded false := by
  cases hguarded with
  | put htaken hrefused =>
    cases h with
    | put => exact ⟨rfl, taken, rfl, htaken⟩
    | refused hclosed => exact ⟨(Queue.push_of_closed _ hclosed).symm, refused, rfl, hrefused⟩

/-! ### Lengths -/

/-- The most parts that a step of an operation has, but for those that look through the inbox. -/
def longest : Nat := 13

end Script

/-- The parts that a stage takes at most, one that finds the end in the inbox if it looks for it. What is
done with a packet is not among them: a packet brings parts of its own. -/
def Stage.cost : Stage → Nat
  | .opening => 1
  | .locating _ _ => 7
  | .sending _ => 5
  | .collecting _ => 1
  | .saving _ => 4
  | .allocating => 5

namespace Script

/-- Whether a script ends within so many parts. A packet that is read brings parts of its own, and packets
that are looked through do not count. With `clear`, looking through them may find nothing; otherwise one
of them is known to end the operation. -/
inductive Lasts (clear : Prop) : Script → Nat → Prop
  | next {n : Nat} {stage : Stage} (h : stage.cost ≤ n) : Lasts clear (.next stage) (n + 1)
  | finish {n : Nat} (outcome : Outcome) : Lasts clear (.finish outcome) (n + 1)
  | read {n : Nat} {go : Packet → Script} (h : ∀ p, Lasts clear (go p) longest) :
      Lasts clear (.read go) (n + 1)
  | scan {n : Nat} {go : Script} (h : clear → Lasts clear go n) : Lasts clear (.scan go) (n + 1)
  | files {n : Nat} {write : Storage.Tree → Storage.Tree} {go : Storage.Tree → Script}
      (h : ∀ tree, Lasts clear (go tree) n) : Lasts clear (.files write go) (n + 1)
  | identify {n : Nat} {user : UInt32} {go : Script} (h : Lasts clear go n) :
      Lasts clear (.identify user go) (n + 1)
  | check {n : Nat} {live dead : Script} (hlive : Lasts clear live n) (hdead : Lasts clear dead n) :
      Lasts clear (.check live dead) (n + 1)
  | put {n : Nat} {p : Packet} {taken refused : Script} (htaken : Lasts clear taken n)
      (hrefused : Lasts clear refused n) : Lasts clear (.put p taken refused) (n + 1)

variable {script : Script} {clear : Prop} {m n : Nat}

/-- Nothing is over without a part. -/
theorem Lasts.pos (h : script.Lasts clear n) : 0 < n := by
  cases h <;> exact Nat.succ_pos _

/-- What ends within so many parts ends within more. -/
theorem Lasts.mono (h : script.Lasts clear n) (hle : n ≤ m) : script.Lasts clear m := by
  -- Each constructor takes one part, so there is one in `m` as well.
  have hpred {n m : Nat} (h : n + 1 ≤ m) : ∃ m', m = m' + 1 ∧ n ≤ m' := ⟨m - 1, by omega, by omega⟩
  induction h generalizing m with
  | next hcost =>
    obtain ⟨m, rfl, hm⟩ := hpred hle
    exact .next (Nat.le_trans hcost hm)
  | finish outcome =>
    obtain ⟨m, rfl, -⟩ := hpred hle
    exact .finish outcome
  | read hgo _ =>
    obtain ⟨m, rfl, -⟩ := hpred hle
    exact .read hgo
  | scan _ ih =>
    obtain ⟨m, rfl, hm⟩ := hpred hle
    exact .scan fun hclear => ih hclear hm
  | files _ ih =>
    obtain ⟨m, rfl, hm⟩ := hpred hle
    exact .files fun tree => ih tree hm
  | identify _ ih =>
    obtain ⟨m, rfl, hm⟩ := hpred hle
    exact .identify (ih hm)
  | check _ _ hlive hdead =>
    obtain ⟨m, rfl, hm⟩ := hpred hle
    exact .check (hlive hm) (hdead hm)
  | put _ _ htaken hrefused =>
    obtain ⟨m, rfl, hm⟩ := hpred hle
    exact .put (htaken hm) (hrefused hm)

/-- What is known to find the end needs no more parts than what may not. -/
theorem Lasts.of_clear (h : script.Lasts True n) : script.Lasts clear n := by
  -- By induction on the script; only a scan asks whether the end is in sight.
  induction h with
  | next hcost => exact .next hcost
  | finish outcome => exact .finish outcome
  | read _ ih => exact .read ih
  | scan _ ih => exact .scan fun _ => ih trivial
  | files _ ih => exact .files ih
  | identify _ ih => exact .identify ih
  | check _ _ hlive hdead => exact .check hlive hdead
  | put _ _ htaken hrefused => exact .put htaken hrefused

/-- Sending takes two parts. -/
theorem lasts_send {p : Packet} {sent unsent : Script} (hsent : sent.Lasts clear n)
    (hunsent : unsent.Lasts clear n) : (send p sent unsent).Lasts clear (n + 2) :=
  .check (.put hsent hunsent) (hunsent.mono (Nat.le_succ n))

/-- Failing takes three parts at most: two to report, one to end. -/
theorem lasts_fail (op : Operation) (failure : Failure) : (fail op failure).Lasts clear (n + 3) := by
  unfold fail
  split
  · exact .finish _
  · exact lasts_send (.finish _) (.finish _)

/-- Going on takes as long as what is gone on with, if that is not shorter than failing. -/
theorem lasts_proceed {α : Type} (op : Operation) (result : Except Failure α) {go : α → Script}
    (h : ∀ a, (go a).Lasts clear (n + 3)) : (proceed op result go).Lasts clear (n + 3) := by
  cases result with
  | error failure => exact lasts_fail op failure
  | ok a => exact h a

/-- The parts of a block, if the packets that have come in may be clear of one that ends the download,
and if they are not. -/
theorem lasts_sendBlock (service : Service) (op : Operation) (t : Transfer) :
    (sendBlock service op t).Lasts True longest ∧ (sendBlock service op t).Lasts False 5 := by
  -- Behind the scan the block is sent, and whatever comes then is a stage of its own.
  have hlater (block : List UInt8) {t' : Transfer} : (send (Download.blockPacket t' block)
      (if t'.remaining = 0 then .finish .ok else .next (.sending t')) (.finish .aborted)).Lasts True 8 := by
    refine lasts_send ?_ (.finish _)
    split
    · exact .finish _
    · exact .next (Nat.le_refl _)
  have hannounce {go : Script} {n : Nat} {clear : Prop} (h : go.Lasts clear (n + 2)) :
      (announce op t go).Lasts clear (n + 4) := by
    unfold announce
    split
    · exact h.mono (by omega)
    · exact lasts_proceed (n := n + 1) op _ fun _ => lasts_send h (.finish _)
  constructor
  · refine .files fun tree => lasts_proceed (n := 9) op _ fun block => ?_
    exact hannounce (n := 8) (.check (.scan fun _ => hlater block) (.finish _))
  · refine .files fun tree => lasts_proceed (n := 1) op _ fun block => ?_
    exact hannounce (n := 0) (.check (.scan False.elim) (.finish _))

end Script

/-- An operation that was just opened reads, and whatever it does then is paid for by the packet. -/
private theorem lasts_opened {clear : Prop} (service : Service) (op : Operation)
    (hstage : op.stage = .opening) : (op.script service).Lasts clear 1 := by
  unfold script
  rw [hstage]
  refine .read fun p => ?_
  split
  · refine Script.lasts_proceed (n := 10) op _ fun asked => ?_
    obtain ⟨kind, request⟩ := asked
    exact .next (by simp only [Stage.cost]; omega)
  · exact Script.lasts_proceed (n := 10) op _ fun _ => .next (by simp only [Stage.cost]; omega)
  · exact Script.lasts_proceed (n := 10) op _ fun _ => .next (by simp only [Stage.cost]; omega)

/-- And so does an upload that collects its blocks. -/
private theorem lasts_collecting {clear : Prop} (service : Service) (op : Operation) {u : Upload}
    (hstage : op.stage = .collecting u) : (op.script service).Lasts clear 1 := by
  unfold script
  rw [hstage]
  refine .read fun p => Script.lasts_proceed (n := 10) op _ fun u' => .next ?_
  split <;> simp only [Stage.cost] <;> omega

/-- No stage takes more parts than the longest. -/
theorem Stage.cost_le_longest (stage : Stage) : stage.cost ≤ Script.longest := by
  cases stage <;> simp [Stage.cost, Script.longest]

/-- What every stage needs at most, and what it needs if there is something to end it. -/
theorem script_lasts (service : Service) (op : Operation) :
    (op.script service).Lasts True Script.longest ∧ (op.script service).Lasts False op.stage.cost := by
  -- Only a download looks through its inbox, so for the others the two come to the same.
  have hboth (h : (op.script service).Lasts True op.stage.cost) :
      (op.script service).Lasts True Script.longest ∧
        (op.script service).Lasts False op.stage.cost :=
    ⟨h.mono op.stage.cost_le_longest, h.of_clear⟩
  cases hstage : op.stage with
  | opening =>
    rw [hstage] at hboth
    exact hboth (lasts_opened service op hstage)
  | locating kind request =>
    rw [hstage] at hboth
    refine hboth ?_
    simp only [script, hstage]
    exact .files fun tree => Script.lasts_proceed (n := 3) op _ fun _ => .next (Nat.le_refl _)
  | sending t =>
    simp only [script, hstage]
    exact Script.lasts_sendBlock service op t
  | collecting u =>
    rw [hstage] at hboth
    exact hboth (lasts_collecting service op hstage)
  | saving u =>
    rw [hstage] at hboth
    refine hboth ?_
    simp only [script, hstage]
    refine .files fun tree => Script.lasts_proceed (n := 0) op _ fun _ => ?_
    exact Script.lasts_send (.finish _) (.finish _)
  | allocating =>
    rw [hstage] at hboth
    refine hboth ?_
    simp only [script, hstage]
    refine .files fun tree => Script.lasts_proceed (n := 1) op _ fun made => ?_
    obtain ⟨user, after⟩ := made
    exact .identify (Script.lasts_send (.finish _) (.finish _))

end

end Depot.Operation
