import Depot.Proofs.Operation.Doomed

/-!
# What trails behind the end

An operation never gets past a packet that ends it: it reads its inbox in order and is over with that
packet, or it looks for one before every block and is over when there is one. So whatever is put into the
inbox later makes no difference. `Trails` relates an operation that was given more to the one that was
not, and the two do the same in every step.

## Key results

- `turn_trails`: the two do the same in a turn
- `step_running_trails`, `step_ended_trails`: and so they do in a step
-/

namespace Depot.Operation

/-- An operation that is to end, and the same one with more behind the packet that ends it. -/
structure Trails (op bare : Operation) : Prop where
  id_eq : op.id = bare.id
  kind_eq : op.kind = bare.kind
  stage_eq : op.stage = bare.stage
  doomed : bare.Doomed
  behind : bare.inbox.waiting <+: op.inbox.waiting

/-- The same turn, unless it goes on: then with two operations of which one trails behind the other. -/
inductive Echoes (op bare : Operation) : Turn → Turn → Prop
  | next {stage : Stage} {inbox inbox₀ : Queue Packet} (scene : Scene)
      (h : Trails { op with stage, inbox } { bare with stage, inbox := inbox₀ }) :
      Echoes op bare (.next stage inbox scene) (.next stage inbox₀ scene)
  | done (result : Except Failure Unit) (scene : Scene) :
      Echoes op bare (.done result scene) (.done result scene)

section

variable {service : Service} {op op' bare : Operation} {scene scene' : Scene} {outcome : Outcome}

theorem Trails.refl (h : op.Doomed) : op.Trails op := ⟨rfl, rfl, rfl, h, List.prefix_refl _⟩

/-- Both are to end. -/
theorem Trails.doomed_left (h : op.Trails bare) : op.Doomed :=
  let ⟨p, hp, hends⟩ := h.doomed
  ⟨p, h.behind.subset hp, hends⟩

/-- One more packet trails behind. -/
theorem Trails.push (h : op.Trails bare) (p : Packet) :
    ({ op with inbox := op.inbox.push p } : Operation).Trails bare :=
  { h with behind := h.behind.trans (op.inbox.waiting_prefix_push p) }

private theorem echoes_proceed {α : Type} {result : Except Failure α} {go go₀ : α → Turn}
    (h : ∀ a, Echoes op bare (go a) (go₀ a)) :
    Echoes op bare (.proceed scene result go) (.proceed scene result go₀) := by
  cases result with
  | error failure => exact .done _ scene
  | ok a => exact h a

/-- Both read the same packet. If it does not end them, the one that does comes later. -/
private theorem Trails.read {go go₀ : Packet → Queue Packet → Turn} (h : op.Trails bare)
    (hgo : ∀ p inbox inbox₀, (∃ q ∈ inbox₀.waiting, q.request.endsOperation = true) →
      inbox₀.waiting <+: inbox.waiting → Echoes op bare (go p inbox) (go₀ p inbox₀)) :
    Echoes op bare (.read op.inbox scene go) (.read bare.inbox scene go₀) := by
  obtain ⟨q, hq, hends⟩ := h.doomed
  obtain ⟨more, hmore⟩ := h.behind
  -- The other is doomed, so it has a packet to read, and it is the first one of both.
  cases hfirst : bare.inbox.waiting with
  | nil =>
    rw [hfirst] at hq
    cases hq
  | cons p rest =>
    rw [hfirst] at hq hmore
    obtain ⟨inbox₀, hrest₀, -, -, hread₀⟩ := Turn.read_cons hfirst
    obtain ⟨inbox, hrest, -, -, hread⟩ := Turn.read_cons hmore.symm
    rw [hread, hread₀]
    split
    · exact .done _ scene
    · next hgoes =>
      refine hgo p inbox inbox₀ ⟨q, ?_, hends⟩ ⟨more, by rw [hrest₀]; exact hrest.symm⟩
      rcases List.mem_cons.mp hq with rfl | hq
      · exact absurd hends hgoes
      · exact hrest₀ ▸ hq

/-- What trails behind the end makes no difference to a turn. -/
theorem turn_trails (service : Service) (h : op.Trails bare) (scene : Scene) :
    Echoes op bare (op.turn service scene) (bare.turn service scene) := by
  have hgoes {stage : Stage} {inbox inbox₀ : Queue Packet}
      (hdoomed : ∃ q ∈ inbox₀.waiting, q.request.endsOperation = true)
      (hbehind : inbox₀.waiting <+: inbox.waiting) :
      Echoes op bare (.next stage inbox scene) (.next stage inbox₀ scene) :=
    .next scene ⟨h.id_eq, h.kind_eq, rfl, hdoomed, hbehind⟩
  -- The stages that read are left to the lemma above; the others look at the rest of the operation only,
  -- which is the same, or for a packet that ends them, which both have.
  cases hstage : bare.stage with
  | opening =>
    simp only [turn, h.stage_eq, h.kind_eq, hstage]
    refine h.read fun p inbox inbox₀ hdoomed hbehind => ?_
    cases bare.kind with
    | download => exact echoes_proceed fun _ => hgoes hdoomed hbehind
    | upload => exact echoes_proceed fun _ => hgoes hdoomed hbehind
    | allocate => exact echoes_proceed fun _ => hgoes hdoomed hbehind
  | locating kind request =>
    simp only [turn, h.stage_eq, hstage]
    exact echoes_proceed fun _ => hgoes h.doomed h.behind
  | sending t =>
    -- Both find a packet that ends them.
    have hfound : op.inbox.waiting.any (·.request.endsOperation) = true :=
      List.any_eq_true.mpr h.doomed_left
    have hfound₀ : bare.inbox.waiting.any (·.request.endsOperation) = true :=
      List.any_eq_true.mpr h.doomed
    simp only [turn, h.stage_eq, h.id_eq, hstage, Download.sendBlock, hfound, hfound₀, Bool.or_true,
      ↓reduceIte]
    exact echoes_proceed fun _ => echoes_proceed fun _ => .done _ _
  | collecting u =>
    simp only [turn, h.stage_eq, hstage]
    refine h.read fun p inbox inbox₀ hdoomed hbehind => ?_
    exact echoes_proceed fun _ => hgoes hdoomed hbehind
  | saving u =>
    simp only [turn, h.stage_eq, h.id_eq, hstage, Upload.save]
    refine echoes_proceed fun _ => ?_
    split
    · exact .done _ _
    · exact .done _ _
  | allocating =>
    simp only [turn, h.stage_eq, h.id_eq, hstage, Allocation.allocate]
    split
    · exact .done _ _
    · split
      · exact .done _ _
      · exact .done _ _

/-! ### Steps -/

/-- If the one goes on so does the other, in the same scene, and the one trails on. -/
theorem step_running_trails (h : op.Trails bare) (hstep : op.step service scene = .running op' scene') :
    ∃ bare', bare.step service scene = .running bare' scene' ∧ op'.Trails bare' := by
  have hechoes := turn_trails service h scene
  unfold step at hstep ⊢
  generalize op.turn service scene = turn at hechoes hstep
  generalize bare.turn service scene = turn₀ at hechoes ⊢
  cases hechoes with
  | next _ htrails =>
    cases hstep
    exact ⟨_, rfl, htrails⟩
  | done => cases hstep

/-- If the one ends so does the other, with the same outcome and in the same scene. -/
theorem step_ended_trails (h : op.Trails bare) (hstep : op.step service scene = .ended outcome scene') :
    bare.step service scene = .ended outcome scene' := by
  have hechoes := turn_trails service h scene
  unfold step at hstep ⊢
  generalize op.turn service scene = turn at hechoes hstep
  generalize bare.turn service scene = turn₀ at hechoes ⊢
  cases hechoes with
  | next => cases hstep
  | done result scene₁ =>
    cases hstep
    simp only [conclude, report, h.id_eq, h.kind_eq]

end

end Depot.Operation
