import Depot.Frame.Writer
import Depot.Liveness.Basic
import Depot.Operation.Scene

/-!
# Sending

Packets for the peer are written one at a time, each in slices, for as long as the session lives. When
it is over, the packet in progress is completed and the farewell follows, if there is one, both within
the linger time; what is still queued is dropped.

`step?` takes one step, with at most one write, whose answer is given beforehand. It is where the
socket, which takes what it likes when it likes, comes in.
-/

namespace Depot.Connection

/-- What the socket does with one write. -/
inductive WriteAnswer
  /-- Takes at most so many bytes. -/
  | accept (count : Nat)
  /-- Takes nothing yet. -/
  | full
  | fail
  deriving DecidableEq, Repr

/-- What is being sent. -/
inductive Sending
  /-- Nothing; the next packet of the queue comes. -/
  | idle
  /-- A packet of the queue. -/
  | packet
  /-- After the end of the session, the rest of the packet in progress. A farewell follows if there is
  one. -/
  | finishing (deadline : Liveness.Instant) (farewell : Option ErrorCode)
  /-- The farewell. -/
  | parting (deadline : Liveness.Instant)
  | stopped
  deriving DecidableEq, Repr

/-- The sending side of a connection. -/
structure Sender where
  sending : Sending := .idle
  writer : Frame.Writer
  deriving DecidableEq, Repr

/-- What a step of sending comes to. -/
structure Sent where
  sender : Sender
  scene : Scene
  /-- The bytes that the socket took. -/
  bytes : List UInt8 := []
  deriving DecidableEq, Repr

namespace Sender

/-- Whether nothing will be sent any more. -/
def isStopped (s : Sender) : Bool := s.sending == .stopped

/-- The writer after a write, with the bytes that were taken; none if the write failed. A write that
takes nothing fails. -/
def write (w : Frame.Writer) : WriteAnswer → Option (Frame.Writer × List UInt8)
  | .accept 0 => none
  | .accept count =>
      let taken := w.slice.take count
      some (w.advance taken.length, taken)
  | .full => some (w, [])
  | .fail => none

/-- Gives up on a peer that cannot be written to: the session is suspended by a packet in the inbound
queue. -/
def giveUp (s : Sender) (scene : Scene) : Sent :=
  let scene := scene.count (.errors .socket)
  { sender := { s with sending := .stopped }
    scene := { scene with session := scene.session.deliver (.suspend .socketClosed) } }

/-- Takes up the end of the session. -/
def close (linger : Duration) (now : Liveness.Instant) (s : Sender) (scene : Scene) : Sent :=
  { sender := { s with sending := .finishing (now + linger.nanos) scene.session.farewell }, scene }

/-- Stages the next packet of the queue, if there is one. One that has no frame is dropped. -/
def takeUp? (s : Sender) (scene : Scene) : Option Sent :=
  match scene.session.outbound.tryReceive with
  | none => none
  | some (p, outbound) =>
      let scene := { scene with session := { scene.session with outbound } }
      match s.writer.stage p with
      -- Without a frame there is nothing to write, and the next packet has its turn.
      | .error _ => some { sender := s, scene }
      | .ok writer => some { sender := { sending := .packet, writer }, scene }

/-- Writes a slice of a packet of the queue. A packet that is complete is counted. -/
def writePacket? (answer : WriteAnswer) (s : Sender) (scene : Scene) : Option Sent :=
  -- Only the end of the session gets a sender out of waiting for the socket.
  if answer = .full then none
  else match write s.writer answer with
    | none => some (s.giveUp scene)
    | some (writer, bytes) =>
        if writer.isIdle then
          some { sender := { sending := .idle, writer }
                 scene := scene.count (.frames .outbound), bytes }
        else some { sender := { s with writer }, scene, bytes }

/-- Goes on after the packet in progress is complete: to the farewell, or to the end. -/
def part (deadline : Liveness.Instant) (farewell : Option ErrorCode) (s : Sender) (scene : Scene) :
    Sent :=
  match farewell.map fun code => s.writer.stage (.suspend code) with
  | some (.ok writer) => { sender := { sending := .parting deadline, writer }, scene }
  | _ => { sender := { s with sending := .stopped }, scene }

/-- Writes a slice after the end of the session. A socket that takes nothing is waited for until the
deadline; one that fails is not reported any more. -/
def writeLast? (deadline now : Liveness.Instant) (answer : WriteAnswer) (s : Sender) (scene : Scene)
    (complete : Sender → Sent) : Option Sent :=
  if answer = .full then
    -- The peer had its time to read the rest.
    if deadline ≤ now then some { sender := { s with sending := .stopped }, scene } else none
  else match write s.writer answer with
    | none => some { sender := { s with sending := .stopped }, scene }
    | some (writer, bytes) =>
        let s := { s with writer }
        if writer.isIdle then some { complete s with bytes }
        else some { sender := s, scene, bytes }

/-- One step of sending, if there is anything to do. `answer` is what the socket does if the step
writes. -/
def step? (linger : Duration) (now : Liveness.Instant) (answer : WriteAnswer) (s : Sender)
    (scene : Scene) : Option Sent :=
  match s.sending with
  | .stopped => none
  | .idle => if scene.session.live then s.takeUp? scene else some (s.close linger now scene)
  | .packet =>
      if scene.session.live then s.writePacket? answer scene else some (s.close linger now scene)
  -- The packet that is completed here is not counted.
  | .finishing deadline farewell =>
      if s.writer.isIdle then some (s.part deadline farewell scene)
      else s.writeLast? deadline now answer scene (part deadline farewell · scene)
  | .parting deadline =>
      s.writeLast? deadline now answer scene fun s =>
        { sender := { s with sending := .stopped }, scene := scene.count (.frames .outbound) }

/-- The next instant at which sending does something by itself. -/
def alarm? (s : Sender) : Option Liveness.Instant :=
  match s.sending with
  | .finishing deadline _ => some deadline
  | .parting deadline => some deadline
  | _ => none

end Sender

end Depot.Connection
