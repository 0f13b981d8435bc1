import Depot.Frame.Reader

/-!
# The rounds of a reader

`Reader.feed` says what becomes of a chunk. It is a loop, and some of what a round of it does is not
defined for every state of a reader: to count what is lacking, to cut a chunk, to read a header, to give
out a packet. Here the loop is written with each of these looked at before it is done. Where one would not
be defined there is a `Slip`.
-/

namespace Depot.Frame

/-- What a round could do that is not defined. -/
inductive Slip
  /-- More bytes are kept than the part in progress has. -/
  | overfull
  /-- A chunk is cut behind its end. -/
  | cut
  /-- What is read as a header is shorter or longer than one. -/
  | misfit
  /-- A packet is given out with another payload than its header announces. -/
  | unannounced
  /-- Bytes are left when the rounds are used up. -/
  | endless
  deriving DecidableEq, Repr

/-- What a round comes to. -/
structure Round where
  /-- The packet that it completes, if any. -/
  packet : Option Packet
  /-- The reader afterwards. -/
  reader : Reader
  /-- The fault that stops the reader, if any. -/
  fault : Option Fault
  /-- What is left of the chunk. -/
  rest : List UInt8
  deriving DecidableEq, Repr

namespace Reader

/-- The number of bytes that the part in progress still lacks, if no more are kept than it has. -/
def wanted? (r : Reader) : Except Slip Nat :=
  if r.phase.target < r.buffer.length then .error .overfull else .ok r.wanted

/-- The first bytes of a chunk and the rest of it, if there are so many. -/
def cut? (chunk : List UInt8) (count : Nat) : Except Slip (List UInt8 × List UInt8) :=
  if chunk.length < count then .error .cut else .ok (chunk.splitAt count)

/-- Reads what is kept as a header, if it is as long as one. -/
def header? (r : Reader) : Except Slip (Except Fault Header) :=
  if r.buffer.length = Header.length then .ok (Header.decode r.buffer) else .error .misfit

/-- Gives out a packet with what is kept as its payload, if that is what the header announces. -/
def emit? (r : Reader) (header : Header) : Except Slip (Option Packet × Reader) :=
  if header.size.toNat = r.buffer.length then .ok (some { header, payload := r.buffer }, r.reset)
  else .error .unannounced

/-- The reader after the part in progress has come in whole. -/
def complete? (r : Reader) : Except Slip (Except Fault (Option Packet × Reader)) :=
  match r.phase with
  | .payload header => (r.emit? header).map .ok
  | .header =>
      match r.header? with
      | .error slip => .error slip
      | .ok (.error fault) => .ok (.error fault)
      | .ok (.ok header) =>
          if header.size.toNat > r.maxPayload then
            .ok (.error (.oversized header.size.toNat r.maxPayload))
          else
            let r' : Reader := { r with phase := .payload header, buffer := [] }
            -- A frame without payload is given out by the header that announces it.
            if header.size = 0 then (r'.emit? header).map .ok else .ok (.ok (none, r'))

/-- The reader with so many bytes of a chunk, and what they complete. -/
def absorb? (r : Reader) (head rest : List UInt8) : Except Slip Round :=
  let r' := { r with buffer := r.buffer ++ head }
  if r'.buffer.length = r'.phase.target then
    match r'.complete? with
    | .error slip => .error slip
    -- The bytes that were not moved are left, but nobody will ask for them.
    | .ok (.error fault) => .ok { packet := none, reader := r'.reset, fault := some fault, rest }
    | .ok (.ok (packet, reader)) => .ok { packet, reader, fault := none, rest }
  else .ok { packet := none, reader := r', fault := none, rest }

/-- One round: as many bytes as are lacking are moved, at most those that are there. -/
def round? (r : Reader) (chunk : List UInt8) : Except Slip Round :=
  match r.wanted? with
  | .error slip => .error slip
  | .ok wanted =>
      match cut? chunk (min wanted chunk.length) with
      | .error slip => .error slip
      | .ok (head, rest) => r.absorb? head rest

/-- Round after round until nothing is left of the chunk or there is a fault, at most `rounds` times. -/
def rounds? (r : Reader) (chunk : List UInt8) : Nat → Except Slip Intake
  | 0 => if chunk.isEmpty then .ok { packets := [], reader := r, fault := none } else .error .endless
  | rounds + 1 =>
      if chunk.isEmpty then .ok { packets := [], reader := r, fault := none }
      else match r.round? chunk with
        | .error slip => .error slip
        | .ok round =>
            -- A fault is the last thing that a chunk comes to.
            if round.fault.isSome then
              .ok { packets := round.packet.toList, reader := round.reader, fault := round.fault }
            else (round.reader.rounds? round.rest rounds).map fun intake =>
              { intake with packets := round.packet.toList ++ intake.packets }

/-- What is done with a reader. -/
inductive Call
  | feed (chunk : List UInt8)
  | finish
  | reset
  deriving DecidableEq, Repr

/-- The reader after a call. -/
def after (r : Reader) : Call → Reader
  | .feed chunk => (r.feed chunk).reader
  | .finish => r
  | .reset => r.reset

end Reader

end Depot.Frame
