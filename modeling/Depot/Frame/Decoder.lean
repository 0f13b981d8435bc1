import Depot.Frame.Reader

/-!
# Packets from a shared buffer

A `Decoder` serves a caller who owns the receive buffer and asks for one packet at a time. It moves
the whole buffer into its reader when it has nothing ready, so packets come out in the order in
which they arrived. A fault is reported at once, and the packets that the same buffer completed before
it are ready behind it.
-/

namespace Depot.Frame

/-- Hands out the packets of a stream one by one. -/
structure Decoder where
  reader : Reader
  /-- Completed packets that nobody has asked for yet. -/
  ready : List Packet := []
  deriving DecidableEq, Repr

/-- The answer to a caller who asks for a packet. -/
structure Decoder.Answer where
  result : Except Fault (Option Packet)
  decoder : Decoder
  /-- What is left of the caller's buffer. -/
  buffer : List UInt8

namespace Decoder

/-- The longest payload that is taken where nothing else is said, 512 KiB. -/
def defaultMaxPayload : Nat := 524288

/-- A decoder at the start of a stream. -/
def new (maxPayload : Nat) : Decoder := { reader := .new maxPayload }

/-- The packet that is ready first, with the buffer as given. -/
def pop (d : Decoder) (buffer : List UInt8) : Answer :=
  { result := .ok d.ready.head?, decoder := { d with ready := d.ready.tail }, buffer }

/-- The next packet. A buffer is read only when no packet is ready, and then all of it. -/
def decode (d : Decoder) (buffer : List UInt8) : Answer :=
  if d.ready.isEmpty && !buffer.isEmpty then
    let intake := d.reader.feed buffer
    let d' : Decoder := { reader := intake.reader, ready := intake.packets }
    match intake.fault with
    | some fault => { result := .error fault, decoder := d', buffer := [] }
    | none => d'.pop []
  else d.pop buffer

/-- The next packet of a stream that has ended. A frame in progress is a fault. -/
def decodeEnd (d : Decoder) (buffer : List UInt8) : Answer :=
  let answer := d.decode buffer
  match answer.result with
  | .ok none => { answer with result := answer.decoder.reader.finish.map fun _ => none }
  | _ => answer

end Decoder

end Depot.Frame
