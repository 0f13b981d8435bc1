import Depot.Operation.Script
import Depot.Switchboard.Basic

/-!
# The switchboard in parts

Operations run beside each other, so at any time each of them may be anywhere in a step. `part?` does the
next part of one of them, and any order of parts, dispatching and whatever else happens to a session can
be spoken of.

A suspend is dispatched in two parts as well: `signal` hands it to all operations, and only then is the
session killed. The operations may do parts before, in between and after that.
-/

namespace Depot.Switchboard

/-- A switchboard with its operations somewhere in their steps. -/
structure Midway where
  board : Switchboard := {}
  /-- What the operation with an id has left of the step it is in; none between two steps. -/
  rest : UInt8 → Option Operation.Script := fun _ => none

namespace Midway

/-- What the operation with an id does next. -/
def script (service : Service) (m : Midway) (id : UInt8) (op : Operation) : Operation.Script :=
  (m.rest id).getD (op.script service)

/-- Writes down where the operation with an id stands now. One that has left is not there any more. -/
def store (m : Midway) (id : UInt8) (op : Option Operation) (rest : Option Operation.Script) : Midway where
  board := m.board.store id op
  rest other := if other = id then rest else m.rest other

/-- Does the next part of the operation with an id, if it can be done. -/
def part? (service : Service) (m : Midway) (id : UInt8) (s : Scene) : Option (Midway × Scene) :=
  match m.board.entries.find? id with
  | none => none
  | some e =>
      match (m.script service id e.operation).part e.operation s with
      | .wait => none
      | .on op rest s => some (m.store id (some op) rest, s)
      | .left s => some (m.store id none none, s)

/-- So many parts of the operation with an id, with nothing in between. -/
def partFor (service : Service) (id : UInt8) : Nat → Midway → Scene → Option (Midway × Scene)
  | 0, m, s => some (m, s)
  | n + 1, m, s =>
      match m.part? service id s with
      | none => none
      | some (m, s) => partFor service id n m s

/-- The first part of dispatching a suspend: it is handed to all operations. The other one is that the
session is killed. -/
def signal (m : Midway) (p : Packet) : Midway := { m with board := m.board.suspend p }

/-- The packet that an operation is about to queue. It has seen the session alive, and does not look
again. -/
def pending? (m : Midway) (id : UInt8) : Option Packet :=
  match m.rest id with
  | some (.put p _ _) => some p
  | _ => none

end Midway

end Depot.Switchboard
