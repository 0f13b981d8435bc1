import Depot.Proofs.Connection.Passage

/-!
# Schedules

A passage stops somewhere; a `Schedule` goes on for ever, if only because time does. It is `Fair` when no
part of the connection that can go on is passed over for ever. That is what makes a connection end: not
the order in which its parts go on, but that all of them do.

## Key results

- `Schedule.passage`: the beginning of a schedule is a passage
- `Schedule.leadsTo`: what comes about because one part of the connection cannot be passed over
-/

namespace Depot.Connection

/-- The parts of a connection that go on independently. -/
inductive Task
  | reading
  | dispatching
  | operating (id : UInt8)
  | closing
  | sending
  | watching
  | probing
  deriving DecidableEq, Repr

/-- The part that goes on with a step. -/
def Event.task? : Event → Option Task
  | .read _ | .readEnd | .readFailure | .readStop => some .reading
  | .dispatch => some .dispatching
  | .operate id => some (.operating id)
  | .close => some .closing
  | .send _ => some .sending
  | .watch => some .watching
  | .probe => some .probing
  | .wait _ | .shutdown => none

/-- Whether a part can go on without interference. -/
def Enabled (left : List UInt8) (c : Connection) (t : Task) : Prop :=
  ∃ e c', e.task? = some t ∧ Undisturbed left c e ∧ c.step? e = some c'

/-- An endless course of steps without interference. -/
structure Schedule (bytes : List UInt8) (c : Connection) where
  event : Nat → Event
  state : Nat → Connection
  /-- What the peer still sends. -/
  left : Nat → List UInt8
  state_zero : state 0 = c
  left_zero : left 0 = bytes
  undisturbed (n : Nat) : Undisturbed (left n) (state n) (event n)
  step (n : Nat) : (state n).step? (event n) = some (state (n + 1))
  left_succ (n : Nat) : left (n + 1) = unread (left n) (event n)

namespace Schedule

variable {bytes : List UInt8} {c : Connection}

/-- Whether every part goes on at some time if it can go on all the time. -/
def Fair (s : Schedule bytes c) : Prop :=
  ∀ t n, (∀ m, n ≤ m → Enabled (s.left m) (s.state m) t) →
    ∃ m, n ≤ m ∧ (s.event m).task? = some t

/-- The beginning of a schedule is a passage. -/
theorem passage (s : Schedule bytes c) (n : Nat) :
    ∃ now, Passage bytes c now (s.left n) (s.state n) := by
  induction n with
  | zero => exact ⟨[], by rw [s.left_zero, s.state_zero]; exact .nil⟩
  | succ n ih =>
    obtain ⟨now, h⟩ := ih
    have hnext := h.trans (.single (s.undisturbed n) (s.step n))
    rw [← s.left_succ n] at hnext
    exact ⟨_, hnext⟩

/-- If a condition lasts until something is reached, and lets a part go on with which it is reached, then
it is reached in a fair schedule. -/
theorem leadsTo {s : Schedule bytes c} (hfair : s.Fair) (t : Task) (condition : Nat → Prop)
    {goal : Nat → Prop} {n : Nat} (hcondition : condition n)
    (hlasts : ∀ m, condition m → goal (m + 1) ∨ condition (m + 1))
    (henabled : ∀ m, condition m → Enabled (s.left m) (s.state m) t)
    (hreached : ∀ m, condition m → (s.event m).task? = some t → goal (m + 1)) :
    ∃ m, goal m := by
  refine Classical.byContradiction fun hnever => ?_
  have hnot (m : Nat) : ¬goal m := fun hgoal => hnever ⟨m, hgoal⟩
  -- Otherwise the condition holds for ever, and the part can go on all the time.
  have halways (m : Nat) (hm : n ≤ m) : condition m := by
    induction hm with
    | refl => exact hcondition
    | step _ ih => exact (hlasts _ ih).resolve_left (hnot _)
  obtain ⟨m, hm, htask⟩ := hfair t n fun m hm => henabled m (halways m hm)
  exact hnot _ (hreached m (halways m hm) htask)

end Schedule

end Depot.Connection
