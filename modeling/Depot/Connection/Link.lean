import Depot.Connection.Basic

/-!
# A connection and its peer

A peer at the other end of a link that holds a bounded number of bytes each way. Either side of the
link may be closed, and the server's side may be set to fail after so many bytes.

At one instant everything that can happen does happen. The loops of the server take turns: reading,
sending, dispatching, watching and probing, round and round, and each does all it can in its turn. When
none of them has anything left to do the peer reads, and when there is nothing to read either the
operation that started first goes on. Time moves only after that.
-/

namespace Depot.Connection

/-- A link between two ends. -/
structure Wire where
  /-- The number of bytes that are on their way in one direction at most. -/
  capacity : Nat := 65536
  /-- The bytes that the peer wrote and the server has not read. -/
  incoming : List UInt8 := []
  /-- Whether the peer writes no more. -/
  ended : Bool := false
  /-- Whether the peer is gone. -/
  gone : Bool := false
  /-- Whether the server is gone. -/
  closed : Bool := false
  /-- The number of bytes after which the server's reading fails. -/
  readLeft : Option Nat := none
  /-- The number of bytes after which the server's writing fails. -/
  writeLeft : Option Nat := none
  deriving DecidableEq, Repr

/-- The other end of a link. -/
structure Peer where
  reader : Frame.Reader := .new maxAnnounced
  /-- The packets that were read and not looked at. -/
  packets : List Packet := []
  /-- Whether the end of the stream was read. -/
  sawEnd : Bool := false
  /-- Whether the peer reads what comes. -/
  listening : Bool := true
  deriving DecidableEq, Repr

/-- The server's end of a link. -/
inductive ServerEnd
  | serving (connection : Connection)
  /-- It has closed its end without serving it. -/
  | refused
  deriving DecidableEq, Repr

/-- The loops of the server, in the order in which they take turns. -/
inductive Loop
  | reading
  | sending
  | dispatching
  | watching
  | probing
  deriving DecidableEq, Repr

/-- The loops in the order of their turns, from one of them on. -/
def Loop.turns : Loop → List Loop
  | reading => [reading, sending, dispatching, watching, probing]
  | sending => [sending, dispatching, watching, probing, reading]
  | dispatching => [dispatching, watching, probing, reading, sending]
  | watching => [watching, probing, reading, sending, dispatching]
  | probing => [probing, reading, sending, dispatching, watching]

/-- A link with both ends. -/
structure Link where
  server : ServerEnd
  wire : Wire
  peer : Peer := {}
  /-- The loop of the server whose turn it is. -/
  turn : Loop := .reading
  /-- The size of the buffer that the server reads into. -/
  readBuffer : Nat
  deriving DecidableEq, Repr

namespace Link

/-- The size that a buffer without room grows to. -/
def grownBuffer : Nat := 64

/-- The number of bytes that are read at once at most. -/
def readSize (l : Link) : Nat := if l.readBuffer = 0 then grownBuffer else l.readBuffer

/-- The nanoseconds between two instants at which the clock can stand. -/
def resolution : Nat := 1000000

/-- The first instant from `t` on at which the clock can stand. -/
def roundUp (t : Liveness.Instant) : Liveness.Instant :=
  (t + (resolution - 1)) / resolution * resolution

/-- What the server's socket does with a write. -/
def writeAnswer (l : Link) (c : Connection) : WriteAnswer :=
  if l.wire.writeLeft = some 0 || l.wire.gone then .fail
  else
    -- What was written and not read by the peer takes up room on the link.
    let room := l.wire.capacity - c.outgoing.length
    if room = 0 then .full else .accept (min room (l.wire.writeLeft.getD room))

/-- The reading that the server could do now. -/
def readEvent? (l : Link) : Option Event :=
  if l.wire.readLeft = some 0 then some .readFailure
  else match l.wire.incoming with
    | [] => if l.wire.ended then some .readEnd else none
    | bytes =>
        some (.read (bytes.take (min l.readSize (l.wire.readLeft.getD l.readSize))))

/-- The link after an event of the server. Bytes that were read are off the wire, and bytes that were
written count against what can still be written. -/
def after (l : Link) (before : Connection) (e : Event) (c : Connection) : Link :=
  let wire := match e with
    | .read chunk =>
        { l.wire with
          incoming := l.wire.incoming.drop chunk.length
          readLeft := l.wire.readLeft.map (· - chunk.length) }
    | .send _ =>
        { l.wire with
          writeLeft := l.wire.writeLeft.map (· - (c.outgoing.length - before.outgoing.length)) }
    | _ => l.wire
  { l with server := .serving c, wire }

/-- One event of the server, if it can happen. -/
def event? (l : Link) (c : Connection) (e : Event) : Option Link :=
  (c.step? e).map (l.after c e)

/-- The peer reads what is on the wire. -/
def collect? (l : Link) (c : Connection) : Option Link :=
  if l.peer.listening && !c.outgoing.isEmpty then
    -- A peer reads whatever is there at once; a fault of its own it does not look at.
    let intake := l.peer.reader.feed c.outgoing
    some { l with
      server := .serving { c with outgoing := [] }
      peer := { l.peer with reader := intake.reader, packets := l.peer.packets ++ intake.packets } }
  else none

/-- One event of a loop, if there is anything for it to do. -/
def loop? (l : Link) (c : Connection) : Loop → Option Link
  -- The end of the session is seen before anything more is read, and a packet before the end of dispatching.
  | .reading => l.event? c .readStop <|> l.readEvent?.bind (l.event? c)
  | .sending => l.event? c (.send (l.writeAnswer c))
  | .dispatching => l.event? c .dispatch <|> l.event? c .close
  | .watching => l.event? c .watch
  | .probing => l.event? c .probe

/-- One event of the first loop that has anything to do, which keeps the turn. -/
def serve? (l : Link) (c : Connection) : Option Link :=
  l.turn.turns.findSome? fun loop => (l.loop? c loop).map ({ · with turn := loop })

/-- One step of the operation that started first, of those that can take one. -/
def operate? (l : Link) (c : Connection) : Option Link :=
  c.board.startOrder.findSome? fun id => l.event? c (.operate id)

/-- The server closes its end when it has done with the connection. -/
def close? (l : Link) (c : Connection) : Option Link :=
  if c.isServed then some { l with wire := { l.wire with closed := true } } else none

/-- The next thing that happens at this instant. After anything but an event of a loop, reading has the
first turn. -/
def next? (l : Link) : Option Link :=
  match l.server with
  | .refused => if l.wire.closed then none else some { l with wire := { l.wire with closed := true } }
  | .serving c =>
      -- With the connection closed, what is on the wire can still be read.
      if l.wire.closed then l.collect? c
      else
        l.serve? c <|>
          (l.collect? c <|> l.operate? c <|> l.close? c).map ({ · with turn := .reading })

/-- At most `fuel` things happen. -/
def settleFor : Nat → Link → Link
  | 0, l => l
  | fuel + 1, l =>
      match l.next? with
      | none => l
      | some l => settleFor fuel l

/-- More than the number of things that ever happen at one instant. -/
def settleLimit : Nat := 1000000000

/-- Everything that can happen at this instant happens, reading first. -/
def settle (l : Link) : Link := { l with turn := .reading }.settleFor settleLimit

/-- Whether the server has done with the connection. -/
def isClosed (l : Link) : Bool := l.wire.closed

/-- The next alarm of the server, at an instant at which the clock can stand. -/
def alarm? (l : Link) : Option Liveness.Instant :=
  match l.server with
  | .refused => none
  | .serving c =>
      if l.wire.closed then none
      else
        -- Several alarms at one instant go off together.
        let alarms := [c.watch.alarm?, c.probe.alarm?, c.sender.alarm?].filterMap id
        alarms.min?.map roundUp

/-- The instant of a link. -/
def now (l : Link) : Liveness.Instant :=
  match l.server with
  | .refused => 0
  | .serving c => c.now

/-- Moves the clock to an instant. -/
def moveTo (l : Link) (instant : Liveness.Instant) : Link :=
  match l.server with
  | .refused => l
  | .serving c => { l with server := .serving { c with now := max c.now instant } }

/-- Lets time pass up to an instant, with all alarms on the way, of which there is at most one at every
instant of the clock. -/
def passFor (horizon : Liveness.Instant) : Nat → Link → Link
  | 0, l => l
  | fuel + 1, l =>
      let l := l.settle
      match l.alarm? with
      | some alarm =>
          if alarm ≤ horizon then passFor horizon fuel (l.moveTo alarm) else l.moveTo horizon
      | none => l.moveTo horizon

/-- Lets so many milliseconds pass. -/
def pass (l : Link) (millis : Nat) : Link :=
  l.passFor (l.now + millis * resolution) (millis + 1)

/-- What becomes of bytes that the peer writes. -/
inductive WriteResult
  | written
  /-- The server does not take them. -/
  | failed
  /-- The link is full. -/
  | blocked
  deriving DecidableEq, Repr

/-- The peer writes bytes. Where they do not fit, the server goes on until it has made room. -/
def writeFor : Nat → Link → List UInt8 → WriteResult × Link
  | 0, l, _ => (.blocked, l)
  | fuel + 1, l, bytes =>
      if l.wire.closed || l.wire.ended then (.failed, l)
      else
        let room := l.wire.capacity - l.wire.incoming.length
        let l := { l with wire := { l.wire with incoming := l.wire.incoming ++ bytes.take room } }
        match bytes.drop room with
        | [] => (.written, l)
        | rest =>
            let l := l.settle
            if l.wire.incoming.length ≥ l.wire.capacity && !l.wire.closed then (.blocked, l)
            else writeFor fuel l rest

/-- The peer writes bytes. Every round but the last puts at least one of them on the wire. -/
def write (l : Link) (bytes : List UInt8) : WriteResult × Link := l.writeFor (bytes.length + 1) bytes

/-- The peer writes no more. -/
def endWriting (l : Link) : Link := { l with wire := { l.wire with ended := true } }

/-- The peer leaves. What it has not read is lost. -/
def hangUp (l : Link) : Link :=
  { l with
    wire := { l.wire with ended := true, gone := true }
    peer := { l.peer with listening := false }
    server := match l.server with
      | .serving c => .serving { c with outgoing := [] }
      | .refused => .refused }

/-- The server begins to shut down. -/
def shutDown (l : Link) : Link :=
  match l.server with
  | .serving c => { l with server := .serving { c with shutdown := true } }
  | .refused => l

/-- Changes the storage tree. -/
def modifyTree (f : Storage.Tree → Storage.Tree) (l : Link) : Link :=
  match l.server with
  | .serving c =>
      { l with server := .serving { c with scene := { c.scene with tree := f c.scene.tree } } }
  | .refused => l

/-- Whether the peer reads from now on. A peer that is gone never does. -/
def listen (l : Link) (listening : Bool) : Link :=
  { l with peer := { l.peer with listening := listening && !l.wire.gone } }

/-- The peer reads what is on the wire, if it reads at all. -/
def collect (l : Link) : Link :=
  match l.server with
  | .refused => l
  | .serving c => (l.collect? c).getD l

/-- Whether nothing more comes from the server. -/
def isDrained (l : Link) : Bool :=
  l.wire.closed &&
    match l.server with
    | .serving c => c.outgoing.isEmpty
    | .refused => true

/-- The peer looks at the packets it has read, and at whether there is more to come. -/
def look (l : Link) : List Packet × Link :=
  let sawEnd := l.peer.sawEnd || l.peer.listening && l.isDrained
  (l.peer.packets, { l with peer := { l.peer with packets := [], sawEnd } })

/-- The number of bytes of a frame that the peer has read in part. -/
def partialBytes (l : Link) : Nat :=
  match l.peer.reader.phase with
  | .header => l.peer.reader.buffer.length
  | .payload _ => Header.length + l.peer.reader.buffer.length

/-- The peer leaves, and the connection runs to its end. -/
def finish (l : Link) : Link :=
  let rec go : Nat → Link → Link
    | 0, l => l
    | fuel + 1, l =>
        let l := l.settle
        match l.alarm? with
        | some alarm => if l.wire.closed then l else go fuel (l.moveTo alarm)
        | none => l
  go settleLimit l.hangUp

end Link

end Depot.Connection
