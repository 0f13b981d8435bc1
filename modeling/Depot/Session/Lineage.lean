import Depot.Session.Basic

/-!
# Sessions with handles

Operations hold on to parts of a session: its queues, its user, its sign of life. A handle taken
before a reset goes on to mean the session it was taken from, which nobody else sees any more.

A `Lineage` is a session with its predecessors, and a handle is the number of one of them. An
operation through a handle changes the session with that number and no other, so a handle from
before a reset cannot reach the session after it.
-/

namespace Depot

/-- A session with those that it has been before. -/
structure Lineage where
  current : Session := {}
  /-- The sessions before the last reset, oldest first. -/
  past : List Session := []
  deriving DecidableEq, Repr

/-- The number of a session in its lineage. -/
abbrev Handle := Nat

namespace Lineage

/-- The handle of the current session. -/
def handle (l : Lineage) : Handle := l.past.length

/-- The session that a handle means. -/
def session (l : Lineage) (h : Handle) : Session := l.past.getD h l.current

/-- Changes the session that a handle means. -/
def modify (l : Lineage) (h : Handle) (f : Session → Session) : Lineage :=
  if h < l.past.length then { l with past := l.past.modify h f }
  else { l with current := f l.current }

/-- Changes the current session. -/
def update (l : Lineage) (f : Session → Session) : Lineage := { l with current := f l.current }

/-- Resets the session. -/
def reset (l : Lineage) : Lineage :=
  { current := l.current.reset, past := l.past ++ [l.current.retire] }

/-- A handle from before the reset does not reach the current session. -/
theorem current_modify_of_lt (l : Lineage) (h : Handle) (f : Session → Session)
    (hlt : h < l.past.length) : (l.modify h f).current = l.current := by
  simp [modify, hlt]

end Lineage

end Depot
