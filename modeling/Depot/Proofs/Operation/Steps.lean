import Depot.Proofs.Operation.Replies

/-!
# What a step of an operation does

All that an operation does to the session is that it names the user and queues replies for the peer. A
step that goes on leaves its inbox with the same ends, and it is one step nearer to waiting or to the
end, which `Operation.budget` counts.

An operation is `Doomed` when its inbox holds a packet that ends it. It does not wait any more.

## Key results

- `turn_ensures`: what the next step of any stage comes to
- `exists_next_of_running`, `exists_done_of_ended`: which turn a step was
- `step_running`, `step_ended`, `step_waiting`: the same of `Operation.step`
-/

namespace Depot

namespace Operation

/-! ### Reading -/

/-- Nothing can be read before something comes, and nothing at all if nothing can come any more. -/
theorem Turn.read_nil {inbox : Queue Packet} (h : inbox.waiting = []) (scene : Scene)
    (go : Packet → Queue Packet → Turn) :
    Turn.read inbox scene go =
      if inbox.isClosed || inbox.senders == 0 then .done (.error .suspended) scene else .wait := by
  have hnone := Queue.tryReceive_eq_none_iff.mpr h
  simp only [Turn.read, Queue.receive, hnone]
  cases inbox.isClosed || inbox.senders == 0 <;> rfl

/-- The first packet is read, whoever is still there to send. -/
theorem Turn.read_cons {inbox : Queue Packet} {p : Packet} {rest : List Packet}
    (h : inbox.waiting = p :: rest) :
    ∃ inbox', inbox'.waiting = rest ∧ inbox'.receiver = inbox.receiver ∧
      inbox'.senders = inbox.senders ∧ ∀ (scene : Scene) (go : Packet → Queue Packet → Turn),
        Turn.read inbox scene go =
          if p.request.endsOperation then .done (.error .suspended) scene else go p inbox' := by
  obtain ⟨inbox', hreceive, hrest⟩ := Queue.exists_receive h
  obtain ⟨-, hreceiver, hsenders⟩ := Queue.receive_item hreceive
  refine ⟨inbox', hrest, hreceiver, hsenders, fun scene go => ?_⟩
  simp only [Turn.read, hreceive]

/-! ### Steps -/

/-- Whether the inbox holds a packet that ends the operation. -/
def Doomed (op : Operation) : Prop := ∃ p ∈ op.inbox.waiting, p.request.endsOperation = true

/-- What a step of an operation that goes on leaves as it was, and that it is nearer to the end. Blocks
of no length could be sent for ever, but not once the session is over. -/
structure Onward (service : Service) (scene : Scene) (op op' : Operation) (scene' : Scene) : Prop where
  replied : scene.Replied op.id scene'
  listening : op'.inbox.receiver = op.inbox.receiver
  doomed : op.Doomed → op'.Doomed
  budget : 0 < service.limits.downloadChunk ∨ scene.session.live = false → op'.budget < op.budget

/-- What holds of a turn, if it waits, goes on or is done. -/
def Turn.Ensures (wait : Prop) (next : Stage → Queue Packet → Scene → Prop)
    (done : Except Failure Unit → Scene → Prop) : Turn → Prop
  | .wait => wait
  | .next stage inbox scene => next stage inbox scene
  | .done result scene => done result scene

section

variable {wait : Prop} {next : Stage → Queue Packet → Scene → Prop}
  {done : Except Failure Unit → Scene → Prop}

/-- A check that fails ends the operation where it is; the rest is up to what follows it. -/
theorem Turn.ensures_proceed {α : Type} {scene : Scene} {result : Except Failure α} {go : α → Turn}
    (hdone : ∀ failure, result = .error failure → done (.error failure) scene)
    (hgo : ∀ a, result = .ok a → (go a).Ensures wait next done) :
    (Turn.proceed scene result go).Ensures wait next done := by
  cases hresult : result with
  | error failure => exact hdone failure hresult
  | ok a => exact hgo a hresult

/-- An operation waits only if its inbox is empty, and a packet that ends it is not handed on. -/
theorem Turn.ensures_read {inbox : Queue Packet} {scene : Scene} {go : Packet → Queue Packet → Turn}
    (hwait : inbox.waiting = [] → wait) (hdone : done (.error .suspended) scene)
    (hgo : ∀ p rest, inbox.waiting = p :: rest.waiting → rest.receiver = inbox.receiver →
      p.request.endsOperation = false → (go p rest).Ensures wait next done) :
    (Turn.read inbox scene go).Ensures wait next done := by
  unfold Turn.read
  split
  · next hreceive => exact hwait (Queue.receive_pending hreceive)
  · exact hdone
  · next p rest hreceive =>
    obtain ⟨hwaiting, hreceiver, -⟩ := Queue.receive_item hreceive
    split
    · exact hdone
    · next hgoes => exact hgo p rest hwaiting hreceiver (by simpa using hgoes)

end

/-- The description of a file is sent, or it was sent before. -/
theorem Download.announce_cases {id : UInt8} {t : Transfer} {scene scene' : Scene}
    (h : Download.announce id t scene = .ok scene') :
    scene' = scene ∨ ∃ p, Download.infoPacket t = .ok p ∧ scene.send? id p = some scene' := by
  unfold Download.announce at h
  split at h
  · cases h
    exact .inl rfl
  · split at h
    · cases h
    · next hinfo =>
      split at h
      · cases h
      · next hsend =>
        cases h
        exact .inr ⟨_, hinfo, hsend⟩

/-- All that an announcement does is to say something to the peer. -/
theorem Download.announce_replied {id : UInt8} {t : Transfer} {scene scene' : Scene}
    (h : Download.announce id t scene = .ok scene') : scene.Replied id scene' := by
  rcases Download.announce_cases h with rfl | ⟨p, hinfo, hsend⟩
  · exact .refl id scene'
  · exact .send? (Download.reply_infoPacket hinfo) hsend

/-- What a turn of an operation may come to: if it waits there is nothing to end it, if it goes on it is
nearer to its end, and the session is changed only as operations may. -/
abbrev Turns (service : Service) (op : Operation) (scene : Scene) : Turn → Prop :=
  Turn.Ensures (¬op.Doomed)
    (fun stage inbox scene' => Onward service scene op { op with stage, inbox } scene')
    (fun _ scene' => scene.Replied op.id scene')

/-- A block leaves less to send, and none is sent to a session that is over or past a packet that ends
the download. -/
private theorem turns_sendBlock (service : Service) (op : Operation) (t : Transfer) (scene : Scene)
    (hstage : op.stage = .sending t) :
    op.Turns service scene (Download.sendBlock service op.id t op.inbox scene) := by
  refine Turn.ensures_proceed (fun _ _ => .refl op.id scene) fun block hblock => ?_
  -- The description of the file may have been sent before the inbox is looked at.
  refine Turn.ensures_proceed (fun _ _ => .refl op.id scene) fun scene₁ hannounce => ?_
  have hreplied := Download.announce_replied hannounce
  simp only
  split
  · exact hreplied
  · next hgoes =>
    split
    · exact hreplied
    · next scene₂ hsend =>
      have hlength : block.length ≤ maxAnnounced := by
        have := t.remaining_le
        rw [Download.length_readBlock hblock]
        exact Nat.le_trans (Nat.min_le_left _ _) this
      have hreplied₂ := hreplied.trans (.send? (Download.reply_blockPacket hlength) hsend)
      split
      · exact hreplied₂
      · next hmore =>
        simp only [Bool.or_eq_true, Bool.not_eq_true', List.any_eq_true, not_or] at hgoes
        refine ⟨hreplied₂, rfl, fun hdoomed => absurd hdoomed hgoes.2, fun hprogress => ?_⟩
        -- The session lives, so the blocks have a length.
        have hlive : scene.session.live ≠ false := (Session.Replied.worked hreplied).live ▸ hgoes.1
        have hchunk := hprogress.resolve_right hlive
        simp only [budget, hstage, Transfer.remaining, Download.advance] at hmore ⊢
        omega

/-- What is left to be shown of a reading stage, once a packet that goes on is read. -/
private theorem turns_read (service : Service) (op : Operation) (scene : Scene)
    {go : Packet → Queue Packet → Turn}
    (hgo : ∀ p rest, op.inbox.waiting.length = rest.waiting.length + 1 →
      (∀ stage, ({ op with stage, inbox := rest } : Operation).budget < op.budget →
        Onward service scene op { op with stage, inbox := rest } scene) →
      op.Turns service scene (go p rest)) :
    op.Turns service scene (.read op.inbox scene go) := by
  refine Turn.ensures_read (fun hempty => ?_) (.refl op.id scene) fun p rest hwaiting hreceiver hgoes => ?_
  · rintro ⟨q, hq, -⟩
    rw [hempty] at hq
    cases hq
  · refine hgo p rest (by rw [hwaiting]; rfl) fun stage hbudget => ?_
    refine ⟨.refl op.id scene, hreceiver, ?_, fun _ => hbudget⟩
    -- The packet that was read does not end the operation, so it is another one that does.
    rintro ⟨q, hq, hends⟩
    rw [hwaiting] at hq
    rcases List.mem_cons.mp hq with rfl | hq
    · rw [hgoes] at hends
      cases hends
    · exact ⟨q, hq, hends⟩

/-- An upload that is stored is confirmed, and a session that is over is told nothing. -/
private theorem turns_save (service : Service) (op : Operation) (u : Upload) (scene : Scene) :
    op.Turns service scene (Upload.save service op.id u scene) := by
  refine Turn.ensures_proceed (fun _ _ => .refl op.id scene) fun tree _ => ?_
  have hsaved : Scene.Replied op.id scene { scene with tree } := .refl op.id scene
  simp only
  split
  · exact hsaved
  · next hsend => exact hsaved.trans (.send? (Upload.reply_confirmation op.id) hsend)

/-- An allocation names the user and then sends the id, if anybody is there to get it. -/
private theorem turns_allocate (service : Service) (op : Operation) (scene : Scene) :
    op.Turns service scene (Allocation.allocate service op.id scene) := by
  unfold Allocation.allocate
  split
  · exact Scene.Replied.refl op.id scene
  · next user tree _ =>
    have hnamed : Scene.Replied op.id scene
        { scene with tree, session := { scene.session with user } } :=
      ⟨user, [], List.forall_mem_nil _, rfl⟩
    simp only
    split
    · exact hnamed
    · next hsend => exact hnamed.trans (.send? (Allocation.reply_id user op.id) hsend)

/-- What the next step of any stage comes to. -/
theorem turn_ensures (service : Service) (op : Operation) (scene : Scene) :
    op.Turns service scene (op.turn service scene) := by
  -- One case for each stage, with the lemmas above for what the stage does.
  unfold turn
  split
  · next hstage =>
    refine turns_read service op scene fun p rest hlength honward => ?_
    -- Whatever the kind of the operation, the next stage needs fewer steps, and the inbox is shorter.
    split
    all_goals
      refine Turn.ensures_proceed (fun _ _ => .refl op.id scene) fun _ _ => honward _ ?_
      simp only [budget, hstage]
      omega
  · next hstage =>
    refine Turn.ensures_proceed (fun _ _ => .refl op.id scene) fun transfer _ => ?_
    refine ⟨.refl op.id scene, rfl, fun hdoomed => hdoomed, fun _ => ?_⟩
    have := transfer.remaining_le
    simp only [budget, hstage]
    omega
  · next transfer hstage => exact turns_sendBlock service op transfer scene hstage
  · next hstage =>
    refine turns_read service op scene fun p rest hlength honward => ?_
    refine Turn.ensures_proceed (fun _ _ => .refl op.id scene) fun upload _ => honward _ ?_
    cases hmore : p.more <;> simp only [budget, hstage, Bool.false_eq_true, ↓reduceIte] <;> omega
  · next upload _ => exact turns_save service op upload scene
  · exact turns_allocate service op scene

/-- What a turn leaves of the inbox is its end. -/
private theorem turn_reads (service : Service) (op : Operation) (scene : Scene) :
    Turn.Ensures True (fun _ inbox _ => ∃ read, op.inbox.waiting = read ++ inbox.waiting)
      (fun _ _ => True) (op.turn service scene) := by
  unfold turn
  split
  · refine Turn.ensures_read (fun _ => trivial) trivial fun p rest hwaiting _ _ => ?_
    split
    all_goals exact Turn.ensures_proceed (fun _ _ => trivial) fun _ _ => ⟨[p], hwaiting⟩
  · exact Turn.ensures_proceed (fun _ _ => trivial) fun _ _ => ⟨[], rfl⟩
  · refine Turn.ensures_proceed (fun _ _ => trivial) fun block _ => ?_
    refine Turn.ensures_proceed (fun _ _ => trivial) fun scene₁ _ => ?_
    simp only
    split
    · trivial
    · split
      · trivial
      · split
        · trivial
        · -- A block that is sent leaves nothing in the inbox.
          refine ⟨op.inbox.waiting, ?_⟩
          rw [Queue.waiting_drained, List.append_nil]
  · refine Turn.ensures_read (fun _ => trivial) trivial fun p rest hwaiting _ _ => ?_
    exact Turn.ensures_proceed (fun _ _ => trivial) fun _ _ => ⟨[p], hwaiting⟩
  · refine Turn.ensures_proceed (fun _ _ => trivial) fun tree _ => ?_
    simp only
    split <;> trivial
  · unfold Allocation.allocate
    split
    · trivial
    · simp only
      split <;> trivial

/-- The report of a failure is one more reply. -/
theorem conclude_replied (op : Operation) (result : Except Failure Unit) (scene : Scene) :
    scene.Replied op.id (op.conclude result scene) := by
  unfold conclude
  split
  · exact .count op.id scene _
  · next failure =>
    simp only [report]
    split
    · exact .count op.id scene _
    · next code _ =>
      cases hsend : scene.send? op.id (.error op.kind.request code op.id) with
      | none => exact .count op.id scene _
      | some scene' =>
        have hsent : scene.Replied op.id scene' :=
          .send? (Packet.reply_error op.kind.request code op.id) hsend
        exact hsent.trans (.count op.id scene' _)

/-- A step that goes on is a turn that does. -/
theorem exists_next_of_running {service : Service} {op op' : Operation} {scene scene' : Scene}
    (h : op.step service scene = .running op' scene') :
    ∃ stage inbox, op.turn service scene = .next stage inbox scene' ∧ op' = { op with stage, inbox } := by
  unfold step at h
  split at h
  · cases h
  · next hnext =>
    cases h
    exact ⟨_, _, hnext, rfl⟩
  · cases h

/-- A step that ends an operation is a turn that is done, and then the result is reported. -/
theorem exists_done_of_ended {service : Service} {op : Operation} {outcome : Outcome}
    {scene scene' : Scene} (h : op.step service scene = .ended outcome scene') :
    ∃ result scene₁, op.turn service scene = .done result scene₁ ∧
      outcome = Operation.outcome result ∧ scene' = op.conclude result scene₁ := by
  unfold step at h
  split at h
  · cases h
  · cases h
  · next hdone =>
    cases h
    exact ⟨_, _, hdone, rfl, rfl⟩

/-- A doomed operation does not wait. -/
theorem step_waiting {service : Service} {op : Operation} {scene : Scene}
    (h : op.step service scene = .waiting) : ¬op.Doomed := by
  have hturn := op.turn_ensures service scene
  unfold step at h
  split at h
  · next hwait => rwa [hwait] at hturn
  · cases h
  · cases h

/-- What a step that goes on leaves as it was. -/
theorem step_running {service : Service} {op op' : Operation} {scene scene' : Scene}
    (h : op.step service scene = .running op' scene') : Onward service scene op op' scene' := by
  have hturn := op.turn_ensures service scene
  obtain ⟨stage, inbox, hnext, rfl⟩ := exists_next_of_running h
  rwa [hnext] at hturn

/-- A step takes packets from the front of the inbox, if any. -/
theorem exists_read_of_running {service : Service} {op op' : Operation} {scene scene' : Scene}
    (h : op.step service scene = .running op' scene') :
    ∃ read, op.inbox.waiting = read ++ op'.inbox.waiting := by
  have hturn := turn_reads service op scene
  obtain ⟨stage, inbox, hnext, rfl⟩ := exists_next_of_running h
  rwa [hnext] at hturn

/-- An operation keeps its id and its kind. -/
theorem step_running_same {service : Service} {op op' : Operation} {scene scene' : Scene}
    (h : op.step service scene = .running op' scene') : op'.id = op.id ∧ op'.kind = op.kind := by
  obtain ⟨stage, inbox, -, rfl⟩ := exists_next_of_running h
  exact ⟨rfl, rfl⟩

/-- The last step replies as well, and does nothing else to the session. -/
theorem step_ended {service : Service} {op : Operation} {outcome : Outcome} {scene scene' : Scene}
    (h : op.step service scene = .ended outcome scene') : scene.Replied op.id scene' := by
  have hturn := op.turn_ensures service scene
  obtain ⟨result, scene₁, hdone, -, rfl⟩ := exists_done_of_ended h
  rw [hdone] at hturn
  exact hturn.trans (op.conclude_replied result scene₁)

/-! ### Runs -/

section

variable {service : Service} {op : Operation} {scene : Scene} {fuel : Nat}

theorem runFor_wait (h : op.turn service scene = .wait) :
    runFor service (fuel + 1) op scene = (some op, scene) := by
  simp only [runFor, step, h]

theorem runFor_next {stage : Stage} {inbox : Queue Packet} {scene' : Scene}
    (h : op.turn service scene = .next stage inbox scene') :
    runFor service (fuel + 1) op scene = runFor service fuel { op with stage, inbox } scene' := by
  simp only [runFor, step, h]

theorem runFor_done {result : Except Failure Unit} {scene' : Scene}
    (h : op.turn service scene = .done result scene') :
    runFor service (fuel + 1) op scene = (none, op.conclude result scene') := by
  simp only [runFor, step, h]

/-- Whether an operation that was run waits or is over. -/
def Stopped (service : Service) (result : Option Operation × Scene) : Prop :=
  ∀ op, result.1 = some op → op.step service result.2 = .waiting

/-- A run can be cut in two. -/
theorem runFor_add {op' : Operation} {scene' : Scene} {m : Nat}
    (h : runFor service m op scene = (some op', scene')) (n : Nat) :
    runFor service (m + n) op scene = runFor service n op' scene' := by
  -- Along the first part: the second begins where its fuel is used up.
  induction m generalizing op scene with
  | zero =>
    cases h
    rw [Nat.zero_add]
  | succ m ih =>
    rw [Nat.add_right_comm]
    simp only [runFor] at h ⊢
    cases hstep : op.step service scene with
    | waiting =>
      simp only [hstep] at h
      cases h
      -- What waits goes on to do so.
      cases n with
      | zero => rfl
      | succ n => simp only [runFor, hstep]
    | running op₁ scene₁ =>
      simp only [hstep] at h
      exact ih h
    | ended outcome scene₁ =>
      -- Nothing is left to go on with.
      simp only [hstep] at h
      cases h

/-- What has stopped stays as it is, however much fuel is left. -/
theorem runFor_of_stopped {m : Nat} (h : Stopped service (runFor service m op scene)) (n : Nat) :
    runFor service (m + n) op scene = runFor service m op scene := by
  -- Along the run. When its fuel is used up, the operation does not move, by assumption.
  induction m generalizing op scene with
  | zero =>
    have hstep := h op rfl
    cases n with
    | zero => rfl
    | succ n =>
      rw [Nat.zero_add]
      simp only [runFor] at hstep ⊢
      rw [hstep]
  | succ m ih =>
    rw [Nat.add_right_comm]
    simp only [runFor] at h ⊢
    cases hstep : op.step service scene with
    | waiting => rfl
    | running op₁ scene₁ =>
      simp only [hstep] at h
      exact ih h
    | ended outcome scene₁ => rfl

/-- There is one way to stop. -/
theorem runFor_unique {m n : Nat} (hm : Stopped service (runFor service m op scene))
    (hn : Stopped service (runFor service n op scene)) :
    runFor service m op scene = runFor service n op scene := by
  -- Both come to what so many steps together come to.
  rw [← runFor_of_stopped hm n, Nat.add_comm, runFor_of_stopped hn m]

end

end Operation

end Depot
