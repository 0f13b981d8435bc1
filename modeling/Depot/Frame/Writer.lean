import Depot.Amounts
import Depot.Frame.Sink
import Depot.Packet.Basic

/-!
# Writing frames to a stream

A `Writer` holds one frame at a time and offers it in slices of bounded length. A frame is finished
before the next is staged, so the frames of different operations never mix on the wire. A write that
fails or takes nothing leaves the frame where it was.
-/

namespace Depot.Frame

/-- Sends the frames of one stream. -/
structure Writer where
  /-- The longest slice of a single write. -/
  chunk : Nat
  /-- The frame in progress; empty when there is none. -/
  staged : List UInt8 := []
  /-- How much of the frame in progress is written. -/
  sent : Nat := 0
  deriving DecidableEq, Repr

namespace Writer

/-- A writer with no frame in progress. A slice has at least one byte. -/
def new (chunk : Nat) : Writer := { chunk := max chunk 1 }

/-- A writer with room for a slice, if there can be as much room. -/
def new? (chunk : Nat) : Option Writer :=
  if Memory.holds chunk 1 then some (new chunk) else none

/-- Whether no frame is in progress. -/
def isIdle (w : Writer) : Bool := w.staged.isEmpty

/-- The number of bytes of the frame in progress that are still to be written. -/
def remaining (w : Writer) : Nat := w.staged.length - w.sent

/-- Drops the frame in progress. -/
def reset (w : Writer) : Writer := { w with staged := [], sent := 0 }

/-- Makes the frame of a packet the one in progress. -/
def stage (w : Writer) (p : Packet) : Except Fault Writer :=
  p.encode.map fun frame => { w with staged := frame, sent := 0 }

/-- The slice that the next write offers. -/
def slice (w : Writer) : List UInt8 := (w.staged.drop w.sent).take w.chunk

/-- The writer after `count` bytes were taken. -/
def advance (w : Writer) (count : Nat) : Writer :=
  let sent := w.sent + count
  -- A frame that is written to the end makes room for the next one.
  if sent = w.staged.length then w.reset else { w with sent }

/-- One write, with the number of bytes taken; without a frame in progress nothing is written. -/
def write (w : Writer) (sink : Sink) : Except StreamError Nat × Writer × Sink :=
  if w.isIdle then (.ok 0, w, sink)
  else match sink.write w.slice with
    | (.error e, sink) => (.error e, w, sink)
    -- A sink that takes nothing and says so would be offered the same slice for ever.
    | (.ok 0, sink) => (.error .writeZero, w, sink)
    | (.ok count, sink) => (.ok count, w.advance count, sink)

/-- Writes until no frame is in progress, at most `rounds` times. -/
def writeAll (w : Writer) (sink : Sink) : Nat → Except StreamError Unit × Writer × Sink
  | 0 => (.ok (), w, sink)
  | rounds + 1 =>
      if w.isIdle then (.ok (), w, sink)
      else match w.write sink with
        | (.error e, w, sink) => (.error e, w, sink)
        | (.ok _, w, sink) => w.writeAll sink rounds

/-- Writes the rest of the frame in progress and flushes. Every write takes a byte or fails, so as
many writes as there are bytes suffice. -/
def flush (w : Writer) (sink : Sink) : Except StreamError Unit × Writer × Sink :=
  match w.writeAll sink w.remaining with
  | (.error e, w, sink) => (.error e, w, sink)
  | (.ok (), w, sink) => (sink.flush, w, sink)

/-- Writes a packet as a whole. -/
def send (w : Writer) (p : Packet) (sink : Sink) : Except StreamError Unit × Writer × Sink :=
  match w.stage p with
  | .error fault => (.error (.fault fault), w, sink)
  | .ok w => w.flush sink

end Writer

end Depot.Frame
