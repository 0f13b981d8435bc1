import Depot.Proofs.Operation.Footprint
import Depot.Proofs.Switchboard.Courses

/-!
# What a session does to files

All that a session does to the files of a server it does in steps of its operations. So a course of its
switchboard is one of the orders in which actions on the files may follow one another, and each of its
operations is one that came to be in the ordinary way.

## Key results

- `Course.grown`: the operations of a course
- `Course.exists_actions`: the actions of a course
-/

namespace Depot.Switchboard

/-- Whether all operations came to be in the ordinary way. -/
def Grown (service : Service) (b : Switchboard) : Prop :=
  b.entries.All fun e => e.operation.Arises service

section

variable {service : Service} {b b' : Switchboard} {s s' : Scene} {p : Packet} {given : List Packet}

theorem grown_empty (service : Service) : Grown service {} := fun _ he => by cases he

private theorem arises_put (p : Packet) {e : Entry} (h : e.operation.Arises service) :
    (e.put p).operation.Arises service := h.given _

/-- A packet changes inboxes, and at most it opens an operation. -/
theorem grown_dispatch {flow : Flow} (hb : b.Grown service) (h : b.dispatch p s = (flow, b', s')) :
    b'.Grown service ∧ s'.tree = s.tree := by
  rcases dispatch_cases h with
    ⟨-, -, rfl, rfl⟩ | ⟨-, -, rfl, rfl⟩ | ⟨kind, -, -, hstart⟩ | ⟨-, -, -, rfl, rfl⟩
  · exact ⟨hb.map fun _ => arises_put p, rfl⟩
  · exact ⟨hb.amend _ fun _ => arises_put p, rfl⟩
  · unfold start at hstart
    split at hstart
    · next henroll =>
      cases hstart
      exact ⟨hb.enroll? (arises_put p (.opened p.operation kind)) henroll, rfl⟩
    · cases hstart
      exact ⟨hb, rfl⟩
  · exact ⟨hb, rfl⟩

/-- What a step on the switchboard does to the files is an action. -/
theorem grown_advance? {id : UInt8} (hb : b.Grown service)
    (h : b.advance? service id s = some (b', s')) :
    b'.Grown service ∧ ∃ action, s'.tree = service.perform s.tree action := by
  obtain ⟨e, hfind, hstep⟩ := advance?_cases h
  have harises : e.operation.Arises service := hb.of_find? hfind
  rcases hstep with ⟨op, hstep, rfl⟩ | ⟨outcome, hstep, rfl⟩
  · refine ⟨hb.amend _ fun _ _ => harises.stepped hstep, .step e.operation s.session s.metrics, ?_⟩
    simp only [Service.perform, Operation.treeAfter, hstep]
  · refine ⟨hb.dismiss _, .step e.operation s.session s.metrics, ?_⟩
    simp only [Service.perform, Operation.treeAfter, hstep]

/-- All operations of a course came to be in the ordinary way. -/
theorem Course.grown (h : Course service b s given b' s') (hb : b.Grown service) : b'.Grown service := by
  induction h with
  | start => exact hb
  | dispatch _ hdispatch ih => exact (grown_dispatch ih hdispatch).1
  | advance _ hadvance ih => exact (grown_advance? ih hadvance).1

/-- What a course does to the files is what some actions do, one after another. -/
theorem Course.exists_actions (h : Course service b s given b' s') (hb : b.Grown service) :
    ∃ actions, s'.tree = service.after s.tree actions := by
  -- Along the course. What is dispatched leaves the files alone.
  induction h with
  | start => exact ⟨[], rfl⟩
  | dispatch hcourse hdispatch ih =>
    obtain ⟨actions, hactions⟩ := ih
    exact ⟨actions, (grown_dispatch (hcourse.grown hb) hdispatch).2.trans hactions⟩
  | advance hcourse hadvance ih =>
    -- One more action follows those so far.
    obtain ⟨actions, hactions⟩ := ih
    obtain ⟨action, haction⟩ := (grown_advance? (hcourse.grown hb) hadvance).2
    refine ⟨actions ++ [action], ?_⟩
    rw [Service.after_append, ← hactions]
    exact haction

end

end Depot.Switchboard
