import Depot.Packet.Basic
import Depot.Queue
import Depot.Switchboard.Bisection

/-!
# Lines

A line leads to an inbox, a packet queue, and is connected under an operation id. Packets are put through
to the line of their operation or to all lines at once. A line stays connected until whoever opened it
hangs up, whether or not anybody still listens at its other end; hanging up leaves the packets that wait
in the inbox to the one who listens.

Lines are numbered in the order in which they were opened, so that each can be told from an earlier
one of the same operation. Inboxes are numbered as well, for several lines may lead to one.
-/

namespace Depot.Switchboard

/-- The number of an inbox. -/
abbrev InboxNumber := Nat

/-- A way to an inbox under an operation id. -/
structure Line where
  operation : UInt8
  inbox : InboxNumber
  /-- Whether nobody has hung up yet. -/
  connected : Bool := true
  deriving DecidableEq, Repr

/-- The number of a line. -/
abbrev LineNumber := Nat

/-- All lines ever opened, with the inboxes and the table of the lines that are connected. -/
structure Lines where
  inboxes : List (Queue Packet) := []
  opened : List Line := []
  table : Roster InboxNumber := {}
  deriving DecidableEq, Repr

/-- What becomes of a packet that is put through. -/
inductive Routed
  | sent
  /-- Nobody listens on the line. -/
  | closed
  /-- The operation has no line. -/
  | absent
  deriving DecidableEq, Repr

namespace Lines

/-- The text that refuses a second line of one operation. -/
def alreadyActive (operation : UInt8) : String := s!"operation {operation.toNat} is already active"

/-- The line of a number. -/
def line? (l : Lines) (n : LineNumber) : Option Line := l.opened[n]?

/-- Changes an inbox. -/
def update (l : Lines) (inbox : InboxNumber) (f : Queue Packet → Queue Packet) : Lines :=
  { l with inboxes := l.inboxes.modify inbox f }

/-- The ids of the connected lines, in ascending order. -/
def activeIds (l : Lines) : List UInt8 := l.table.ids

/-- Makes an inbox that no line leads to. -/
def addInbox (l : Lines) : InboxNumber × Lines :=
  -- It counts no senders until a line is connected.
  (l.inboxes.length, { l with inboxes := l.inboxes ++ [{ senders := 0 }] })

/-- Connects a line to an inbox for an operation that has none. -/
def connect? (l : Lines) (operation : UInt8) (inbox : InboxNumber) : Option (LineNumber × Lines) :=
  (l.table.enlist? operation inbox).map fun table =>
    (l.opened.length,
      { l.update inbox (·.addSender) with opened := l.opened ++ [{ operation, inbox }], table })

/-- Connects a line to an inbox of its own. -/
def open? (l : Lines) (operation : UInt8) : Option (LineNumber × Lines) :=
  l.addInbox.2.connect? operation l.addInbox.1

/-- Disconnects a line that is connected. -/
def hangUp? (l : Lines) (n : LineNumber) : Option Lines :=
  match l.line? n with
  | some line =>
      if line.connected then
        some { l.update line.inbox (·.dropSender) with
          opened := l.opened.modify n fun line => { line with connected := false }
          table := l.table.strike line.operation }
      else none
  | none => none

/-- The inbox that the line of an operation leads to. -/
def inbox? (l : Lines) (operation : UInt8) : Option InboxNumber := l.table.seek? operation

/-- Puts a packet into an inbox. -/
def put (l : Lines) (inbox : InboxNumber) (p : Packet) : Routed × Lines :=
  match l.inboxes[inbox]? with
  | none => (.absent, l)
  | some queue =>
      match queue.send p with
      | .error _ => (.closed, l)
      | .ok queue => (.sent, l.update inbox fun _ => queue)

/-- Puts a packet through to the line of an operation. -/
def route (l : Lines) (operation : UInt8) (p : Packet) : Routed × Lines :=
  match l.inbox? operation with
  | none => (.absent, l)
  | some inbox => l.put inbox p

/-- Puts a packet into every one of some inboxes, and counts those that somebody listens to. -/
def putAll (l : Lines) (p : Packet) : List InboxNumber → Nat × Lines
  | [] => (0, l)
  | inbox :: rest =>
      match l.put inbox p with
      | (.sent, l) =>
          let (count, l) := l.putAll p rest
          (count + 1, l)
      -- An inbox that nobody listens to does not keep the packet from the others.
      | (_, l) => l.putAll p rest

/-- Puts a packet on every connected line. -/
def broadcast (l : Lines) (p : Packet) : Nat × Lines := l.putAll p l.table.values

/-- Takes the first packet that waits on a line; none if nobody listens there. -/
def receive? (l : Lines) (n : LineNumber) : Option (Option Packet × Lines) :=
  match l.line? n with
  | none => none
  | some line =>
      match l.inboxes[line.inbox]? with
      | none => none
      | some queue =>
          if queue.receiver = .gone then none
          else match queue.tryReceive with
            | none => some (none, l)
            | some (p, queue) => some (some p, l.update line.inbox fun _ => queue)

/-- Stops listening on a line. What waits there is lost. -/
def deafen (l : Lines) (n : LineNumber) : Lines :=
  match l.line? n with
  | none => l
  | some line => l.update line.inbox (·.dropReceiver)

end Lines

end Depot.Switchboard
