import Depot.Packet.Basic
import Depot.Queue

/-!
# Sessions

A session is what one connection has to itself: the name of the connection and of its peer, the user
that was identified, a queue of packets in each direction, whether it is still alive, and the farewell
that should be sent when it ends. It is reset, not rebuilt, between two connections.
-/

namespace Depot

/-- The two directions of a session. -/
inductive Side
  | inbound
  | outbound
  deriving DecidableEq, Repr

/-- The record of one connection. -/
structure Session where
  /-- The number of the connection. -/
  id : Nat := 0
  /-- The address of the peer, as it was told. -/
  peer : Option String := none
  /-- The user of the connection; 0 while nobody is identified. -/
  user : UInt32 := 0
  /-- From the socket to the switchboard. -/
  inbound : Queue Packet := {}
  /-- From the operations to the socket. -/
  outbound : Queue Packet := {}
  /-- Whether the receiving end of the inbound queue was handed out. -/
  inboundTaken : Bool := false
  /-- Whether the receiving end of the outbound queue was handed out. -/
  outboundTaken : Bool := false
  live : Bool := true
  /-- The code of the suspend to send before the connection closes. -/
  farewell : Option ErrorCode := none
  deriving DecidableEq, Repr

namespace Session

/-- The name of a connection with a number. -/
def name (id : Nat) : String := s!"conn-{id}"

/-- Writes down whose session it is. -/
def attach (s : Session) (id : Nat) (peer : Option String) : Session := { s with id, peer }

/-- Ends the session. It cannot be brought back, only reset. -/
def kill (s : Session) : Session := { s with live := false }

/-- Asks for a farewell. The first request stands. -/
def requestFarewell (s : Session) (code : ErrorCode) : Session :=
  { s with farewell := s.farewell <|> some code }

/-- The queue of one direction. -/
def queue (s : Session) : Side → Queue Packet
  | .inbound => s.inbound
  | .outbound => s.outbound

/-- The session with another queue in one direction. -/
def setQueue (s : Session) (side : Side) (q : Queue Packet) : Session :=
  match side with
  | .inbound => { s with inbound := q }
  | .outbound => { s with outbound := q }

/-- Whether the receiving end of one direction was handed out. -/
def taken (s : Session) : Side → Bool
  | .inbound => s.inboundTaken
  | .outbound => s.outboundTaken

/-- Hands out the receiving end of one direction, once. -/
def take? (s : Session) (side : Side) : Option Session :=
  if s.taken side then none
  else match side with
    | .inbound => some { s with inboundTaken := true }
    | .outbound => some { s with outboundTaken := true }

/-- The session between two connections: nothing of the last one is left. -/
def reset (_ : Session) : Session := {}

/-- Queues a packet for the socket; a queue without its receiver drops it. -/
def post (s : Session) (p : Packet) : Session := { s with outbound := s.outbound.push p }

/-- Queues a packet for the switchboard; a queue without its receiver drops it. -/
def deliver (s : Session) (p : Packet) : Session := { s with inbound := s.inbound.push p }

/-- What becomes of a session that is reset, for those who still hold on to it: the receiving ends
that were not handed out are gone. -/
def retire (s : Session) : Session :=
  let drop (side : Side) (s : Session) : Session :=
    if s.taken side then s else s.setQueue side (s.queue side).dropReceiver
  drop .outbound (drop .inbound s)

end Session

end Depot
