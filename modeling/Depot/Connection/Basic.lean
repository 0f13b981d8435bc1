import Depot.Connection.Sending
import Depot.Connection.Slot
import Depot.Liveness.Basic
import Depot.Switchboard.Attendance

/-!
# Connections

A connection is five loops over one slot: bytes are read and become packets of the inbound queue, the
inbound queue goes to the switchboard, the operations on it run, packets of the outbound queue are
written, and the liveness of the peer is watched and probed. The loops share the session and go on
independently; every one of them ends when the session is over, and the connection is served when all
of them have ended.

`step?` takes one step of one loop, named by an `Event`, and `Run` is any course of such steps. What
comes from outside is part of the event: the bytes that were read, what the socket does with a write,
the passing of time and the shutdown of the server. Nothing is said of the order of events, so what
holds of every run holds under every way of scheduling the loops.
-/

namespace Depot

/-- The state of a connection that is being served. -/
structure Connection where
  service : Service
  times : Liveness.Times
  linger : Duration
  now : Liveness.Instant := 0
  scene : Scene
  reader : Frame.Reader
  /-- The bytes that were read last. -/
  buffer : List UInt8 := []
  /-- Whether bytes are still read. -/
  reading : Bool := true
  board : Switchboard := {}
  /-- The code of the suspend that ended dispatching. -/
  verdict : Option ErrorCode := none
  /-- Whether the server is shutting down. -/
  shutdown : Bool := false
  sender : Connection.Sender
  watch : Liveness.Watch
  probe : Liveness.Probe
  /-- The bytes that the socket took and the peer has not read. -/
  outgoing : List UInt8 := []
  deriving DecidableEq, Repr

namespace Connection

/-- One step of one loop. -/
inductive Event
  /-- Bytes of the peer are read. -/
  | read (chunk : List UInt8)
  /-- The peer has closed its end. -/
  | readEnd
  /-- Reading fails. -/
  | readFailure
  /-- Reading ends because the session is over. -/
  | readStop
  /-- The next packet goes to the switchboard, or a shutdown does. -/
  | dispatch
  /-- The operation with an id takes a step. -/
  | operate (id : UInt8)
  /-- The switchboard is closed after the last operation. -/
  | close
  /-- Sending takes a step; if it writes, this is what the socket does. -/
  | send (answer : WriteAnswer)
  /-- The watch takes a step. -/
  | watch
  /-- The probe takes a step. -/
  | probe
  /-- Time passes. -/
  | wait (duration : Duration)
  /-- The server begins to shut down. -/
  | shutdown
  deriving DecidableEq, Repr

/-- Counts a packet that has come, shows it to the watch and queues it for the switchboard. -/
def accept (c : Connection) (p : Packet) : Connection :=
  let scene := c.scene.count (.frames .inbound)
  { c with
    watch := c.watch.notice
    scene := { scene with session := scene.session.deliver p } }

/-- Stops reading and suspends the session by a packet in the inbound queue. -/
def endReading (c : Connection) (code : ErrorCode) : Connection :=
  { c with
    reading := false
    scene := { c.scene with session := c.scene.session.deliver (.suspend code) } }

/-- Takes in bytes. The packets that they complete are accepted; after a fault nothing more is read,
and a farewell is asked for. -/
def takeIn (c : Connection) (chunk : List UInt8) : Connection :=
  -- The packets that came before a fault are accepted all the same.
  let intake := c.reader.feed chunk
  let c := intake.packets.foldl accept { c with reader := intake.reader, buffer := chunk }
  match intake.fault with
  | none => c
  | some fault =>
      let code := fault.suspendCode
      let scene := c.scene.count (.errors .frame)
      ({ c with scene := { scene with session := scene.session.requestFarewell code } }).endReading
        code

/-- Whether bytes can be read. -/
def canRead (c : Connection) : Bool := c.reading && c.scene.session.live

/-- Hands the next packet, or a shutdown, to the switchboard, unless dispatching has ended. -/
def dispatch? (c : Connection) : Option Connection :=
  -- What comes after a suspend stays in the queue.
  if c.verdict.isSome then none
  else (c.board.attend? c.shutdown c.scene).map fun (flow, board, scene) =>
    match flow with
    | .go => { c with board, scene }
    | .stop code => { c with board, scene, verdict := some code }

/-- Closes the switchboard when dispatching has ended and no operation is left. -/
def close? (c : Connection) : Option Connection :=
  if c.verdict.isSome && c.board.halt != some .closed then
    c.board.close?.map fun board => { c with board }
  else none

/-- One step of sending. -/
def send? (answer : WriteAnswer) (c : Connection) : Option Connection :=
  (c.sender.step? c.linger c.now answer c.scene).map fun sent =>
    { c with sender := sent.sender, scene := sent.scene, outgoing := c.outgoing ++ sent.bytes }

/-- The connection after a step, if the step can be taken. -/
def step? (c : Connection) : Event → Option Connection
  | .read chunk => if c.canRead && !chunk.isEmpty then some (c.takeIn chunk) else none
  -- To the session it is the same whether the peer has gone or cannot be read from; no farewell is asked for.
  | .readEnd => if c.canRead then some ({ c with buffer := [] }.endReading .socketClosed) else none
  | .readFailure =>
      if c.canRead then some ({ c with buffer := [] }.endReading .socketClosed) else none
  | .readStop =>
      if c.reading && !c.scene.session.live then some { c with reading := false, buffer := [] }
      else none
  | .dispatch => c.dispatch?
  | .operate id =>
      (c.board.advance? c.service id c.scene).map fun (board, scene) => { c with board, scene }
  | .close => c.close?
  | .send answer => c.send? answer
  | .watch => (c.scene.watch? c.times c.now c.watch).map fun (watch, scene) => { c with watch, scene }
  | .probe => (c.scene.probe? c.now c.probe).map fun (probe, scene) => { c with probe, scene }
  | .wait duration => some { c with now := c.now + duration.nanos }
  | .shutdown => some { c with shutdown := true }

/-- The connection after a course of steps, if they can be taken one after another. -/
def run? (c : Connection) : List Event → Option Connection
  | [] => some c
  | e :: rest => (c.step? e).bind fun c => c.run? rest

/-- A course of steps that leads from one state to another. -/
def Run (c : Connection) (events : List Event) (c' : Connection) : Prop := c.run? events = some c'

/-- Whether all loops have ended. -/
def isServed (c : Connection) : Bool :=
  !c.reading && c.board.halt == some .closed && c.sender.isStopped && c.watch.ended && c.probe.ended

/-- Why a connection is not served at all. -/
inductive Refusal
  /-- The queues of the session are in use: the slot was not recycled. -/
  | stale
  /-- The peer cannot be probed at the keepalive interval. -/
  | noInterval
  deriving DecidableEq, Repr

/-- A connection over a slot. -/
def start (config : Config) (store : Storage.Store) (tree : Storage.Tree) (metrics : Metrics)
    (shutdown : Bool) (slot : Slot) : Except Refusal Connection := do
  let some session := (slot.session.take? .inbound).bind (·.take? .outbound) | throw .stale
  let some probe := Liveness.Probe.start? config.liveness.keepalive 0 | throw .noInterval
  return {
    service :=
      { store, limits := { downloadChunk := config.downloadChunk, maxUpload := config.maxUpload } }
    times := config.liveness
    linger := config.linger
    scene := { session, tree, metrics }
    reader := slot.reader
    buffer := slot.buffer
    shutdown
    sender := { writer := slot.writer }
    watch := .start config.liveness 0
    probe }

/-- The slot after a connection. The receiving ends of the session's queues are gone. -/
def leave (c : Connection) (slot : Slot) : Slot :=
  -- What was queued and not taken is lost here, the session itself is left to the slot.
  let session := { c.scene.session with
    inbound := c.scene.session.inbound.dropReceiver
    outbound := c.scene.session.outbound.dropReceiver }
  { lineage := { slot.lineage with current := session }
    reader := c.reader
    buffer := c.buffer
    writer := c.sender.writer }

end Connection

end Depot
