import Depot.Packet.Header

/-!
# Packets

A packet is a header with a payload. The constructors take the announced size from the payload, so
the two agree in every packet that this program builds; a payload of 4 GiB or more announces the
largest size that fits and has no frame.

`Packet.encode` writes a packet as a frame: the header, then the payload.
-/

namespace Depot

/-- The largest payload that a header can announce. -/
def maxAnnounced : Nat := 4294967295

/-- A header with the bytes that follow it. -/
structure Packet where
  header : Header
  payload : List UInt8
  deriving DecidableEq, Repr, Inhabited

namespace Packet

/-- A packet of the session as a whole, that is of operation 0 and of no storage area. -/
def new (request : RequestType) (payload : List UInt8) : Packet :=
  { header := { request, size := UInt32.ofNat (min payload.length maxAnnounced) }, payload }

/-- The packet as the one with number `n` of its transfer. -/
def withSequence (p : Packet) (n : UInt16) : Packet :=
  { p with header := { p.header with sequence := n } }

/-- The packet as one that speaks of a storage area. -/
def withKind (p : Packet) (kind : FileKind) : Packet :=
  { p with header := { p.header with kind } }

/-- The packet as one of an operation. -/
def withOperation (p : Packet) (operation : UInt8) : Packet :=
  { p with header := { p.header with operation } }

/-- The packet as one that is followed by more frames, or not. -/
def withMore (p : Packet) (more : Bool) : Packet :=
  { p with header := { p.header with more } }

/-- The purpose of a packet. -/
def request (p : Packet) : RequestType := p.header.request

/-- The operation that a packet belongs to. -/
def operation (p : Packet) : UInt8 := p.header.operation

/-- Whether more frames follow a packet. -/
def more (p : Packet) : Bool := p.header.more

/-- The report that a request of an operation failed. -/
def error (request : RequestType) (code : ErrorCode) (operation : UInt8) : Packet :=
  (new .error [request.toByte, code.toByte]).withOperation operation

/-- The packet that ends a session. -/
def suspend (code : ErrorCode) : Packet :=
  new .suspend [code.toByte]

/-- The probe that shows its sender to be alive. -/
def connectionCheck : Packet :=
  new .connectionCheck [RequestType.connectionCheck.toByte]

/-- The reason that a suspend gives, if it gives one. -/
def suspendCode? (p : Packet) : Option ErrorCode :=
  match p.request with
  | .suspend => p.payload.head?.map .ofByte
  | _ => none

/-- The frame of a packet. A payload that no header can announce has none. -/
def encode (p : Packet) : Except Frame.Fault (List UInt8) :=
  if p.payload.length > maxAnnounced then .error (.oversized p.payload.length maxAnnounced)
  else .ok (p.header.encode ++ p.payload)

end Packet

end Depot
