import Depot.Packet.Kind

/-!
# Framing faults

A byte stream can stop being a sequence of frames in four ways. Every fault ends the connection it
occurs on, because nothing in the stream says where the next frame would start.
-/

namespace Depot.Frame

/-- The ways in which a byte stream fails to be a sequence of frames. -/
inductive Fault
  /-- The first byte of a header is not the magic byte. -/
  | badMagic (found : UInt8)
  /-- The last byte of a header is neither of the two markers. -/
  | badMarker (found : UInt8)
  /-- A header announces a longer payload than the reader takes. -/
  | oversized (size max : Nat)
  /-- The stream ends inside a frame. -/
  | truncated (buffered expected : Nat)
  deriving DecidableEq, Repr

namespace Fault

/-- The code of the suspend that ends a connection with this fault. A stream that merely ends early
was closed by the peer; any other fault is a bad packet. -/
def suspendCode : Fault → ErrorCode
  | truncated _ _ => .socketClosed
  | _ => .invalidPacket

/-- Whether the stream ended inside a frame. -/
def isTruncation : Fault → Bool
  | truncated _ _ => true
  | _ => false

/-- The name of a kind of fault. -/
def label : Fault → String
  | badMagic _ => "BadMagic"
  | badMarker _ => "BadMarker"
  | oversized _ _ => "Oversized"
  | truncated _ _ => "Truncated"

/-- The text of a fault. -/
def message : Fault → String
  | badMagic found => "bad header magic: expected 0x01, found 0x" ++ Text.Hex.byte found
  | badMarker found => "bad continuation marker: 0x" ++ Text.Hex.byte found
  | oversized size max => s!"frame payload exceeds limit: {size} > {max}"
  | truncated buffered expected =>
      s!"premature EOF: {buffered} of {expected} frame bytes received"

end Fault

/-- The ways in which reading from or writing to a connection fails. -/
inductive StreamError
  /-- What was read or should be written is not a frame. -/
  | fault (cause : Fault)
  /-- The other side takes no more bytes. -/
  | brokenPipe
  /-- The connection was reset. -/
  | connectionReset
  /-- A write was accepted with no byte taken. -/
  | writeZero
  deriving DecidableEq, Repr

/-- The class of a stream error. -/
def StreamError.kind : StreamError → String
  | fault cause => if cause.isTruncation then "UnexpectedEof" else "InvalidData"
  | brokenPipe => "BrokenPipe"
  | connectionReset => "ConnectionReset"
  | writeZero => "WriteZero"

end Depot.Frame
