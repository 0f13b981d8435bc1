import Depot.Proofs.Operation.Steps

/-!
# Operations that are to end

An operation with a packet in its inbox that ends it is over after its `budget` of steps at the latest,
whatever it finds in the scene. A transfer looks for such a packet before every block and so sends none,
however short the blocks are; every other stage leads on to one that needs fewer steps.

Nothing that an operation does in a scene that does not reach the peer is heard: not what it says, and
not the report of its failure either.

## Key results

- `budget_lt_of_doomed`, `runFor_doomed`: a doomed operation comes to its end
- `step_running_silent`, `step_ended_silent`: nothing is queued where nobody is reached
-/

namespace Depot

namespace Operation

section

variable {service : Service} {op op' : Operation} {scene scene' : Scene} {outcome : Outcome}

/-! ### The end -/

/-- There is always a step left to take. -/
theorem budget_pos (op : Operation) : 0 < op.budget := by
  unfold budget
  split <;> omega

/-- A transfer is over when it finds a packet that ends it. -/
private theorem turn_sending_doomed (service : Service) {t : Transfer} (hstage : op.stage = .sending t)
    (h : op.Doomed) (scene : Scene) :
    ∃ result scene', op.turn service scene = .done result scene' := by
  have hany : op.inbox.waiting.any (·.request.endsOperation) = true := List.any_eq_true.mpr h
  simp only [turn, hstage, Download.sendBlock, hany, Bool.or_true, ↓reduceIte]
  -- It is over before that if there is no block, or if its description cannot be sent.
  cases Download.readBlock scene.tree t.place t.offset _ with
  | error failure => exact ⟨_, _, rfl⟩
  | ok block =>
    cases Download.announce op.id t scene with
    | error failure => exact ⟨_, _, rfl⟩
    | ok scene₁ => exact ⟨_, _, rfl⟩

/-- The length of blocks counts for nothing but transfers. -/
private theorem step_of_not_sending (hstage : ∀ t, op.stage ≠ .sending t) (length : Nat) :
    op.step { service with limits := { service.limits with downloadChunk := length } } scene =
      op.step service scene := by
  cases h : op.stage with
  | sending t => exact absurd h (hstage t)
  | opening => simp only [step, turn, h]; rfl
  | locating kind request => simp only [step, turn, h]; rfl
  | collecting u => simp only [step, turn, h]; rfl
  | saving u => simp only [step, turn, h]; rfl
  | allocating => simp only [step, turn, h]; rfl

/-- Each step of a doomed operation is one towards its end. -/
theorem budget_lt_of_doomed (hdoomed : op.Doomed) (h : op.step service scene = .running op' scene') :
    op'.budget < op.budget := by
  have hstage (t : Transfer) : op.stage ≠ .sending t := by
    intro ht
    obtain ⟨result, scene₁, hturn⟩ := turn_sending_doomed service ht hdoomed scene
    simp only [step, hturn] at h
    cases h
  -- For all other stages the blocks may as well have a length.
  rw [← step_of_not_sending hstage 1] at h
  exact (step_running h).budget (.inl Nat.one_pos)

/-- A doomed operation that goes on is still doomed. -/
theorem doomed_of_step_running (hdoomed : op.Doomed)
    (h : op.step service scene = .running op' scene') : op'.Doomed := (step_running h).doomed hdoomed

/-- A doomed operation that may take all steps of its budget is over. -/
theorem runFor_doomed {fuel : Nat} (hdoomed : op.Doomed) (hfuel : op.budget ≤ fuel) (scene : Scene) :
    (op.runFor service fuel scene).1 = none := by
  -- The budget falls with every step, and a doomed operation does not wait in between.
  induction fuel generalizing op scene with
  | zero => exact absurd hfuel (Nat.not_le.mpr op.budget_pos)
  | succ fuel ih =>
    simp only [runFor]
    cases hstep : op.step service scene with
    | waiting => exact absurd hdoomed (step_waiting hstep)
    | running op₁ scene₁ =>
      have hlt := budget_lt_of_doomed hdoomed hstep
      exact ih (doomed_of_step_running hdoomed hstep) (by omega) scene₁
    | ended outcome scene₁ => rfl

end

/-! ### Silence -/

end Operation

/-- Whether a scene is as dead as another one, and no more is queued for the peer. -/
def Scene.Silent (s s' : Scene) : Prop :=
  s'.session.live = s.session.live ∧ s'.session.outbound = s.session.outbound

namespace Scene.Silent

variable {s s' s'' : Scene}

theorem refl (s : Scene) : s.Silent s := ⟨rfl, rfl⟩

theorem trans (h : s.Silent s') (h' : s'.Silent s'') : s.Silent s'' :=
  ⟨h'.1.trans h.1, h'.2.trans h.2⟩

/-- Where nothing was heard the peer is reached as before, or is not, as before. -/
theorem reachesPeer (h : s.Silent s') : s'.reachesPeer = s.reachesPeer := by
  simp only [Scene.reachesPeer, h.1, h.2]

end Scene.Silent

theorem Scene.reachesPeer_of_dead {s : Scene} (h : s.session.live = false) : s.reachesPeer = false := by
  simp only [Scene.reachesPeer, h, Bool.false_and]

/-- Where there is no peer nothing is sent. -/
theorem Scene.send?_of_unreached {s : Scene} (h : s.reachesPeer = false) (operation : UInt8)
    (p : Packet) : s.send? operation p = none := by
  rw [Scene.send?_eq, h]
  rfl

namespace Operation

/-- What a turn may come to that is not heard. -/
private abbrev Mutes (scene : Scene) : Turn → Prop :=
  Turn.Ensures True (fun _ _ scene' => scene.Silent scene') (fun _ scene' => scene.Silent scene')

/-- A block that nobody would get is read and not sent. -/
private theorem mutes_sendBlock (service : Service) (op : Operation) (t : Transfer) {scene : Scene}
    (h : scene.reachesPeer = false) :
    Mutes scene (Download.sendBlock service op.id t op.inbox scene) := by
  refine Turn.ensures_proceed (fun _ _ => .refl scene) fun block _ => ?_
  refine Turn.ensures_proceed (fun _ _ => .refl scene) fun scene₁ hannounce => ?_
  have hsame : scene₁ = scene := by
    rcases Download.announce_cases hannounce with hsame | ⟨p, -, hsend⟩
    · exact hsame
    · rw [Scene.send?_of_unreached h] at hsend
      cases hsend
  subst hsame
  simp only [Scene.send?_of_unreached h]
  split
  · exact .refl scene₁
  · exact .refl scene₁

/-- A turn in a scene that does not reach the peer says nothing. -/
private theorem turn_mutes (service : Service) (op : Operation) {scene : Scene}
    (h : scene.reachesPeer = false) : Mutes scene (op.turn service scene) := by
  -- At every stage that speaks, to send is to find that there is nobody.
  unfold turn
  split
  · refine Turn.ensures_read (fun _ => trivial) (.refl scene) fun p rest _ _ _ => ?_
    split
    all_goals exact Turn.ensures_proceed (fun _ _ => .refl scene) fun _ _ => .refl scene
  · exact Turn.ensures_proceed (fun _ _ => .refl scene) fun _ _ => .refl scene
  · next t _ => exact mutes_sendBlock service op t h
  · refine Turn.ensures_read (fun _ => trivial) (.refl scene) fun p rest _ _ _ => ?_
    exact Turn.ensures_proceed (fun _ _ => .refl scene) fun _ _ => .refl scene
  · next u _ =>
    refine Turn.ensures_proceed (fun _ _ => .refl scene) fun tree _ => ?_
    have hstored : ({ scene with tree } : Scene).reachesPeer = false := h
    simp only [Scene.send?_of_unreached hstored]
    exact ⟨rfl, rfl⟩
  · unfold Allocation.allocate
    split
    · exact .refl scene
    · next user tree _ =>
      have hnamed : ({ scene with tree, session := { scene.session with user } } : Scene).reachesPeer =
          false := h
      simp only [Scene.send?_of_unreached hnamed]
      exact ⟨rfl, rfl⟩

section

variable {service : Service} {op op' : Operation} {scene scene' : Scene} {outcome : Outcome}

/-- A step that goes on where nobody is reached queues nothing. -/
theorem step_running_silent (hscene : scene.reachesPeer = false)
    (h : op.step service scene = .running op' scene') : scene.Silent scene' := by
  have hturn := op.turn_mutes service hscene
  obtain ⟨stage, inbox, hnext, rfl⟩ := exists_next_of_running h
  rwa [hnext] at hturn

/-- The last step queues nothing either, where nobody is reached. -/
theorem step_ended_silent (hscene : scene.reachesPeer = false)
    (h : op.step service scene = .ended outcome scene') : scene.Silent scene' := by
  have hturn := op.turn_mutes service hscene
  obtain ⟨result, scene₁, hdone, -, rfl⟩ := exists_done_of_ended h
  rw [hdone] at hturn
  have hsilent : scene.Silent scene₁ := hturn
  -- The failure cannot be reported either.
  have hunreached : scene₁.reachesPeer = false := hsilent.reachesPeer.trans hscene
  apply hsilent.trans
  cases result with
  | ok _ => exact ⟨rfl, rfl⟩
  | error failure =>
    have hsession := (op.conclude_error failure scene₁).2
    rw [hunreached] at hsession
    exact ⟨congrArg Session.live hsession, congrArg Session.outbound hsession⟩

end

end Operation

end Depot
