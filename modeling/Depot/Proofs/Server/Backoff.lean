import Depot.Server.Admission

/-!
# Delays between failures

The bounds of a back-off are `Orderly` once they are normalized. From there the delays have a closed form:
after `k` failures in a row it is the initial delay doubled `k` times, or the maximum where that is less.
Doubling stops at the longest duration there is, but no maximum is above it, so that is never seen.

The gate of a server goes by it: whatever it has been through, it waits for as long as the failures since
the last connection say, and for no other reason.

## Key results

- `orderly_normalized`, `Orderly.normalized_eq`: what normalizing does, and that it does it once
- `nanos_repeat_next`: the delay after any number of failures
- `Paced`: how the delay of a server goes with its failures (step lemma `paced_step`, run lemma `paced_run`)
- `delays_double_up_to_max`: all of it
-/

namespace Depot

/-- A duration that is raised to another one if it is shorter. -/
def Duration.atLeast (d bound : Duration) : Duration := ⟨max d.nanos bound.nanos⟩

namespace Backoff

/-- Bounds that delays can be taken from: at least the floor, in order, and durations that there are. -/
structure Orderly (b : Backoff) : Prop where
  floor_le : floor.nanos ≤ b.initial.nanos
  initial_le : b.initial.nanos ≤ b.max.nanos
  max_le : b.max.nanos ≤ Duration.longest.nanos

section

variable {b : Backoff} {d : Duration}

/-- The bounds are raised to the floor, and exchanged if the smaller one is not the first. -/
theorem normalized_cases (b : Backoff) :
    (b.initial.atLeast floor).nanos ≤ (b.max.atLeast floor).nanos ∧
        b.normalized = { initial := b.initial.atLeast floor, max := b.max.atLeast floor } ∨
      (b.max.atLeast floor).nanos ≤ (b.initial.atLeast floor).nanos ∧
        b.normalized = { initial := b.max.atLeast floor, max := b.initial.atLeast floor } := by
  rcases Nat.le_total (b.initial.atLeast floor).nanos (b.max.atLeast floor).nanos with hle | hle
  · refine .inl ⟨hle, congr (congrArg mk ?_) ?_⟩
    · exact congrArg Duration.mk (Nat.min_eq_left hle)
    · exact congrArg Duration.mk (Nat.max_eq_right hle)
  · refine .inr ⟨hle, congr (congrArg mk ?_) ?_⟩
    · exact congrArg Duration.mk (Nat.min_eq_right hle)
    · exact congrArg Duration.mk (Nat.max_eq_left hle)

/-- Normalized bounds are the raised ones, the smaller first. -/
theorem perm_normalized (b : Backoff) :
    [b.normalized.initial, b.normalized.max].Perm [b.initial.atLeast floor, b.max.atLeast floor] := by
  rcases b.normalized_cases with ⟨-, heq⟩ | ⟨-, heq⟩
  · rw [heq]
  · rw [heq]
    exact .swap _ _ []

/-- Bounds that were normalized are in order. -/
theorem orderly_normalized (hinitial : b.initial.nanos ≤ Duration.longest.nanos)
    (hmax : b.max.nanos ≤ Duration.longest.nanos) : b.normalized.Orderly := by
  have hfloor : floor.nanos ≤ Duration.longest.nanos := by decide
  have hraised {d : Duration} (hd : d.nanos ≤ Duration.longest.nanos) :
      floor.nanos ≤ (d.atLeast floor).nanos ∧ (d.atLeast floor).nanos ≤ Duration.longest.nanos :=
    ⟨Nat.le_max_right _ _, Nat.max_le.mpr ⟨hd, hfloor⟩⟩
  rcases b.normalized_cases with ⟨hle, heq⟩ | ⟨hle, heq⟩
  · rw [heq]
    exact ⟨(hraised hinitial).1, hle, (hraised hmax).2⟩
  · rw [heq]
    exact ⟨(hraised hmax).1, hle, (hraised hinitial).2⟩

/-- Bounds that are in order stay as they are. -/
theorem Orderly.normalized_eq (h : b.Orderly) : b.normalized = b := by
  have hinitial : b.initial.atLeast floor = b.initial := congrArg Duration.mk (Nat.max_eq_left h.floor_le)
  have hmax : b.max.atLeast floor = b.max :=
    congrArg Duration.mk (Nat.max_eq_left (Nat.le_trans h.floor_le h.initial_le))
  rcases b.normalized_cases with ⟨-, heq⟩ | ⟨hle, heq⟩
  · rw [heq, hinitial, hmax]
  · -- The smaller bound was the first already, so they are the same.
    rw [hinitial, hmax] at hle heq
    have hsame : b.initial = b.max := congrArg Duration.mk (Nat.le_antisymm h.initial_le hle)
    obtain ⟨initial, maximum⟩ := b
    cases (show initial = maximum from hsame)
    exact heq

/-! ### The delay after so many failures -/

/-- A maximum is never so long that doubling stops before it is reached. -/
theorem nanos_next (hmax : b.max.nanos ≤ Duration.longest.nanos) (d : Duration) :
    (b.next d).nanos = min (d.nanos * 2) b.max.nanos := by
  simp only [next, Duration.scale]
  omega

/-- A delay is the first one doubled so many times, and no longer than the longest. -/
theorem nanos_repeat_next (h : b.Orderly) (k : Nat) :
    (Nat.repeat b.next k b.initial).nanos = min (b.initial.nanos * Nat.pow 2 k) b.max.nanos := by
  have hle := h.initial_le
  induction k with
  | zero =>
    show b.initial.nanos = min (b.initial.nanos * 1) b.max.nanos
    omega
  | succ k ih =>
    -- What was cut off at the maximum is cut off when it is doubled as well.
    have hpow : b.initial.nanos * Nat.pow 2 (k + 1) = b.initial.nanos * Nat.pow 2 k * 2 :=
      (Nat.mul_assoc _ _ _).symm
    have hnext : (Nat.repeat b.next (k + 1) b.initial).nanos =
        min ((Nat.repeat b.next k b.initial).nanos * 2) b.max.nanos := nanos_next h.max_le _
    rw [hnext, ih, hpow]
    omega

/-- No delay is longer than the longest. -/
theorem repeat_next_le (h : b.Orderly) (k : Nat) :
    (Nat.repeat b.next k b.initial).nanos ≤ b.max.nanos := by
  rw [nanos_repeat_next h]
  exact Nat.min_le_right _ _

/-- The next delay is not shorter. -/
theorem le_next (h : b.Orderly) (hd : d.nanos ≤ b.max.nanos) : d.nanos ≤ (b.next d).nanos := by
  rw [nanos_next h.max_le]
  omega

/-- No delay is zero, so none is doubled in vain. -/
theorem repeat_next_pos (h : b.Orderly) (k : Nat) : 0 < (Nat.repeat b.next k b.initial).nanos := by
  have hfloor : 0 < floor.nanos := by decide
  have hfirst := h.floor_le
  -- The first is at least the floor, and no other is shorter than the one before.
  induction k with
  | zero =>
    show 0 < b.initial.nanos
    omega
  | succ k ih =>
    have hle : _ ≤ (Nat.repeat b.next (k + 1) b.initial).nanos := le_next h (repeat_next_le h k)
    omega

/-- After as many failures as the maximum has nanoseconds the delay has stopped growing. -/
theorem repeat_next_eq_max (h : b.Orderly) {k : Nat} (hk : b.max.nanos ≤ k) :
    Nat.repeat b.next k b.initial = b.max := by
  have hfloor : 0 < floor.nanos := by decide
  have hfirst := h.floor_le
  have hpow : k < Nat.pow 2 k := Nat.lt_two_pow_self
  have hgrown : 1 * Nat.pow 2 k ≤ b.initial.nanos * Nat.pow 2 k := Nat.mul_le_mul_right _ (by omega)
  have hnanos := nanos_repeat_next h k
  rw [Nat.min_eq_right (by omega)] at hnanos
  exact congrArg Duration.mk hnanos

end

end Backoff

/-! ### The gate -/

namespace Server.Admission

/-- The failures in a row after an event. -/
def Event.failures (count : Nat) : Event → Nat
  | .accept _ => 0
  | .fail => count + 1
  | _ => count

/-- The failures since the last connection. -/
def failures (events : List Event) : Nat := events.foldl Event.failures 0

/-- How the delay of a server goes with its failures: the next one is told by those in a row, and a pause
that it makes is told by those before the last. -/
structure Paced (b : Backoff) (count : Nat) (a : Admission) : Prop where
  backoff : a.backoff = b
  delay : a.delay = Nat.repeat b.next count b.initial
  pausing : ∀ d, a.gate = .pausing d → ∃ before, count = before + 1 ∧ d = Nat.repeat b.next before b.initial

section

variable {config : Config} {b : Backoff} {count : Nat} {a a' : Admission} {e : Event}

/-- A server begins with no failures and the shortest delay. -/
theorem paced_start (config : Config) (b : Backoff) : Paced b.normalized 0 (start config b) :=
  ⟨rfl, rfl, fun _ h => by cases h⟩

/-- A step that changes neither the delay nor a pause. -/
private theorem Paced.beside (h : Paced b count a) (hbackoff : a'.backoff = a.backoff)
    (hdelay : a'.delay = a.delay) (hgate : a'.gate = a.gate ∨ ∀ d, a'.gate ≠ .pausing d) :
    Paced b count a' := by
  refine ⟨hbackoff.trans h.backoff, hdelay.trans h.delay, fun d hd => ?_⟩
  rcases hgate with hsame | hother
  · exact h.pausing d (hsame.symm.trans hd)
  · exact absurd hd (hother d)

/-- What the gate borrows does not touch the delay, and it does not pause for it. -/
private theorem Paced.borrow (h : Paced b count a) (hstep : a.borrow? = some a') : Paced b count a' := by
  unfold borrow? at hstep
  split at hstep
  · split at hstep <;> cases hstep <;> exact h.beside rfl rfl (.inr fun _ hd => by cases hd)
  · split at hstep <;> cases hstep <;> exact h.beside rfl rfl (.inr fun _ hd => by cases hd)
  · cases hstep

/-- To stop is nothing to the delays. -/
private theorem Paced.stop (h : Paced b count a) (hstep : a.stop? = some a') : Paced b count a' := by
  unfold stop? at hstep
  split at hstep
  · cases hstep
  · split at hstep <;> cases hstep <;> exact h.beside rfl rfl (.inr fun _ hd => by cases hd)

/-- Every step of a server goes by the failures: one more makes the next delay longer, and a connection
starts it again. -/
theorem paced_step (h : Paced b count a) (hstep : a.step? e = some a') :
    Paced b (e.failures count) a' := by
  -- A failure and a connection are the only events that say anything about the delay.
  cases e with
  | borrow =>
    simp only [step?] at hstep
    split at hstep
    · cases hstep
    · exact h.borrow hstep
  | accept peer =>
    simp only [step?] at hstep
    split at hstep
    · cases hstep
    · unfold accept? at hstep
      split at hstep <;> cases hstep
      exact ⟨h.backoff, congrArg Backoff.initial h.backoff, fun _ hd => by cases hd⟩
  | fail =>
    simp only [step?] at hstep
    split at hstep
    · cases hstep
    · unfold fail? at hstep
      split at hstep <;> cases hstep
      refine ⟨h.backoff, ?_, fun d hd => ?_⟩
      · show a.backoff.next a.delay = b.next (Nat.repeat b.next count b.initial)
        rw [h.backoff, h.delay]
      · cases hd
        exact ⟨count, rfl, h.delay⟩
  | resume =>
    simp only [step?] at hstep
    split at hstep
    · split at hstep <;> cases hstep
      exact h.beside rfl rfl (.inr fun _ hd => by cases hd)
    · cases hstep
  | count id =>
    obtain ⟨t, -, rfl⟩ := Option.map_eq_some_iff.mp hstep
    exact h.beside rfl rfl (.inl rfl)
  | serve id slot =>
    obtain ⟨t, -, rfl⟩ := Option.map_eq_some_iff.mp hstep
    exact h.beside rfl rfl (.inl rfl)
  | uncount id =>
    obtain ⟨t, -, rfl⟩ := Option.map_eq_some_iff.mp hstep
    exact h.beside rfl rfl (.inl rfl)
  | release id =>
    obtain ⟨t, -, rfl⟩ := Option.map_eq_some_iff.mp hstep
    exact h.beside rfl rfl (.inl rfl)
  | shutdown =>
    cases hstep
    exact h.beside rfl rfl (.inl rfl)
  | stop => exact h.stop hstep
  | close =>
    simp only [step?] at hstep
    split at hstep <;> cases hstep
    exact h.beside rfl rfl (.inl rfl)

/-- And so does every run. -/
theorem paced_run {events : List Event} (h : Paced b count a) (hrun : a.run? events = some a') :
    Paced b (events.foldl Event.failures count) a' := by
  induction events generalizing a count with
  | nil =>
    cases hrun
    exact h
  | cons e rest ih =>
    obtain ⟨a₁, hstep, hrest⟩ := Option.bind_eq_some_iff.mp hrun
    exact ih (paced_step h hstep) hrest

end

end Server.Admission

/-- The delays of any back-off: its bounds are normalized once, to the given ones raised to a millisecond
and put in order, and the delay after `k` failures in a row is the initial one doubled `k` times, at most
the maximum. So no delay is zero or longer than the maximum, none is shorter than the one before, and at
last they stay the same. A server that fails to accept a connection waits for just these delays: for the
initial one if it was the first failure since a connection came, and so on. -/
theorem delays_double_up_to_max (b : Backoff) (hinitial : b.initial.nanos ≤ Duration.longest.nanos)
    (hmax : b.max.nanos ≤ Duration.longest.nanos) :
    let n := b.normalized
    let delay (k : Nat) : Duration := Nat.repeat n.next k n.initial
    (n.normalized = n ∧ (Duration.millis 1).nanos ≤ n.initial.nanos ∧ n.initial.nanos ≤ n.max.nanos ∧
      [n.initial, n.max].Perm [b.initial.atLeast (.millis 1), b.max.atLeast (.millis 1)]) ∧
    (∀ k, (delay k).nanos = min (n.initial.nanos * Nat.pow 2 k) n.max.nanos) ∧
    (∀ k, 0 < (delay k).nanos ∧ (delay k).nanos ≤ n.max.nanos ∧
      (delay k).nanos ≤ (delay (k + 1)).nanos) ∧
    (∃ last, ∀ k, last ≤ k → delay k = n.max) ∧
    ∀ config events a, (Server.Admission.start config b).run? events = some a →
      a.delay = delay (Server.Admission.failures events) ∧
      ∀ d, a.gate = .pausing d →
        ∃ before, Server.Admission.failures events = before + 1 ∧ d = delay before := by
  intro n delay
  have horderly : n.Orderly := Backoff.orderly_normalized hinitial hmax
  refine ⟨⟨horderly.normalized_eq, horderly.floor_le, horderly.initial_le, Backoff.perm_normalized b⟩,
    Backoff.nanos_repeat_next horderly, fun k => ⟨?_, ?_, ?_⟩, ⟨n.max.nanos, fun k => ?_⟩,
    fun config events a hrun => ?_⟩
  · exact Backoff.repeat_next_pos horderly k
  · exact Backoff.repeat_next_le horderly k
  · exact Backoff.le_next horderly (Backoff.repeat_next_le horderly k)
  · exact Backoff.repeat_next_eq_max horderly
  · have hpaced := Server.Admission.paced_run (Server.Admission.paced_start config b) hrun
    exact ⟨hpaced.delay, hpaced.pausing⟩

/-- Bounds that are given the wrong way round, one too short and the other as long as can be. The delay
has doubled to the longest duration at last; the second failure of a server makes it wait for two
milliseconds, and a third one would make it wait for four. -/
theorem delays_double_up_to_longest :
    let b : Backoff := { initial := .longest, max := .zero }
    let n : Backoff := { initial := .millis 1, max := .longest }
    let events : List Server.Admission.Event := [.borrow, .fail, .resume, .borrow, .fail]
    b.initial.nanos ≤ Duration.longest.nanos ∧ b.max.nanos ≤ Duration.longest.nanos ∧ b.normalized = n ∧
      (Nat.repeat n.next 73 n.initial).nanos = 1000000 * Nat.pow 2 73 ∧
      (Nat.repeat n.next 74 n.initial).nanos = Duration.longest.nanos ∧
      ∃ a, (Server.Admission.start {} b).run? events = some a ∧ a.gate = .pausing (.millis 2) ∧
        a.delay.nanos = 4000000 := by
  intro b n events
  have hnormalized : b.normalized = n := by decide
  obtain ⟨-, hdelay, -, -, hserver⟩ := delays_double_up_to_max b (by decide) (by decide)
  rw [hnormalized] at hdelay hserver
  refine ⟨by decide, by decide, hnormalized, (hdelay 73).trans (by decide), (hdelay 74).trans (by decide), ?_⟩
  obtain ⟨a, hrun, hpausing⟩ := (Option.any_eq_true _ _).mp
    (show ((Server.Admission.start {} b).run? events).any (·.gate == .pausing (.millis 2)) = true by
      decide +kernel)
  have hnext := congrArg Duration.nanos (hserver {} events a hrun).1
  exact ⟨a, hrun, beq_iff_eq.mp hpausing, hnext.trans ((hdelay 2).trans (by decide))⟩

end Depot
