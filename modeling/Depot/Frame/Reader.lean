import Depot.Packet.Basic

/-!
# Reading frames from a stream

Bytes arrive in chunks that have nothing to do with frames. A `Reader` keeps what it has of the frame
in progress, takes in chunk after chunk and gives out the packets that each one completes.

A header is judged when its last byte arrives. A fault drops the frame in progress and the rest of the
chunk; the packets completed before it in the same chunk are still given out.
-/

namespace Depot.Frame

/-- The part of a frame that a reader waits for. -/
inductive Phase
  | header
  /-- The payload that a header announced. -/
  | payload (header : Header)
  deriving DecidableEq, Repr

/-- The number of bytes in a part of a frame. -/
def Phase.target : Phase → Nat
  | header => Header.length
  | payload h => h.size.toNat

/-- Puts the frames of one stream together. -/
structure Reader where
  /-- The longest payload that is taken. -/
  maxPayload : Nat
  phase : Phase := .header
  /-- The bytes of the part in progress. -/
  buffer : List UInt8 := []
  deriving DecidableEq, Repr

/-- What a reader makes of one chunk. -/
structure Intake where
  /-- The packets that the chunk completes, in order. -/
  packets : List Packet
  /-- The reader afterwards. -/
  reader : Reader
  /-- The fault that stopped it, if any. -/
  fault : Option Fault
  deriving DecidableEq, Repr

namespace Reader

/-- A reader at the start of a stream. -/
def new (maxPayload : Nat) : Reader := { maxPayload }

/-- Forgets the frame in progress. -/
def reset (r : Reader) : Reader := { r with phase := .header, buffer := [] }

/-- Whether no frame is in progress. -/
def isIdle (r : Reader) : Bool := r.phase == .header && r.buffer.isEmpty

/-- The number of bytes that the part in progress still lacks. -/
def wanted (r : Reader) : Nat := r.phase.target - r.buffer.length

/-- The reader after the part in progress has come in whole, with the packet that it completes.
A frame without payload is complete with its header. -/
def complete (r : Reader) : Except Fault (Option Packet × Reader) :=
  match r.phase with
  | .payload header => .ok (some { header, payload := r.buffer }, r.reset)
  | .header =>
      match Header.decode r.buffer with
      | .error fault => .error fault
      | .ok header =>
          -- The header alone tells, so no byte of such a payload is kept.
          if header.size.toNat > r.maxPayload then
            .error (.oversized header.size.toNat r.maxPayload)
          else if header.size = 0 then .ok (some { header, payload := [] }, r.reset)
          else .ok (none, { r with phase := .payload header, buffer := [] })

/-- Takes in a chunk. Each round moves the bytes that the part in progress lacks, at least one and
at most those that are there. -/
def feed (r : Reader) (chunk : List UInt8) : Intake :=
  match chunk with
  | [] => { packets := [], reader := r, fault := none }
  | b :: rest =>
      -- The first byte of the chunk is moved in any case.
      let taken := r.wanted - 1
      let r' := { r with buffer := r.buffer ++ b :: rest.take taken }
      if r'.buffer.length = r'.phase.target then
        match r'.complete with
        -- What is left of the chunk goes with the frame: after a fault nothing says where the next one
        -- begins.
        | .error fault => { packets := [], reader := r'.reset, fault := some fault }
        | .ok (packet, next) =>
            let intake := next.feed (rest.drop taken)
            { intake with packets := packet.toList ++ intake.packets }
      else r'.feed (rest.drop taken)
termination_by chunk.length
decreasing_by all_goals simp only [List.length_drop, List.length_cons]; omega

/-- Whether the stream may end here. A frame in progress is reported with the bytes that have come
and those that it needs. -/
def finish (r : Reader) : Except Fault Unit :=
  if r.isIdle then .ok ()
  else match r.phase with
    | .header => .error (.truncated r.buffer.length Header.length)
    | .payload h =>
        .error (.truncated (Header.length + r.buffer.length) (Header.length + h.size.toNat))

end Reader

/-- The chunks of a stream, taken in one after another up to the first fault. -/
def Reader.feedAll (r : Reader) : List (List UInt8) → Intake
  | [] => { packets := [], reader := r, fault := none }
  | chunk :: chunks =>
      let intake := r.feed chunk
      -- The chunks after a fault are not looked at.
      if intake.fault.isSome then intake
      else
        let rest := intake.reader.feedAll chunks
        { rest with packets := intake.packets ++ rest.packets }

end Depot.Frame
