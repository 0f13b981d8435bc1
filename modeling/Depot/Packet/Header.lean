import Depot.Frame.Fault
import Depot.Wire.LittleEndian

/-!
# The packet header

Every frame starts with eleven bytes: a magic byte, the sequence number, the purpose, the payload
size, the storage area, the operation and a marker that says whether more frames follow.

`decode_encode` says that a written header reads back, up to the bytes that `other` may repeat;
`encode_decode` says that whatever reads as a header is written back byte for byte.
-/

namespace Depot

/-- The fields of a packet header. -/
structure Header where
  /-- Number of the packet within its transfer, modulo 65536. -/
  sequence : UInt16 := 0
  request : RequestType
  /-- Length of the payload in bytes. -/
  size : UInt32 := 0
  kind : FileKind := .none
  /-- The operation that the packet belongs to. -/
  operation : UInt8 := 0
  /-- Whether more frames follow. -/
  more : Bool := false
  deriving DecidableEq, Repr, Inhabited

namespace Header

/-- The length of a header on the wire. -/
def length : Nat := 11

/-- The first byte of every header. -/
def magic : UInt8 := 0x01

/-- The last byte of a header after which more frames follow. -/
def moreMarker : UInt8 := 0xf0

/-- The last byte of a header that ends its sequence of frames. -/
def lastMarker : UInt8 := 0x0f

/-- The eleven bytes of a header. -/
def encode (h : Header) : List UInt8 :=
  [magic] ++ Wire.bytes16 h.sequence ++ [h.request.toByte] ++ Wire.bytes32 h.size ++
    [h.kind.toByte, h.operation, if h.more then moreMarker else lastMarker]

/-- The meaning of a marker byte. -/
def more? (marker : UInt8) : Option Bool :=
  if marker = moreMarker then some true
  else if marker = lastMarker then some false
  else none

/-- Reads a header from its eleven bytes. A wrong magic byte is reported before a wrong marker. -/
def decode : List UInt8 → Except Frame.Fault Header
  | [first, s0, s1, request, z0, z1, z2, z3, kind, operation, marker] =>
      if first ≠ magic then .error (.badMagic first)
      else match more? marker with
        | none => .error (.badMarker marker)
        | some more => .ok
            { sequence := Wire.word16 s0 s1
              request := .ofByte request
              size := Wire.word32 z0 z1 z2 z3
              kind := .ofByte kind
              operation, more }
  | raw => .error (.truncated raw.length length)

/-- Every header takes up the same number of bytes. -/
@[simp] theorem length_encode (h : Header) : h.encode.length = length := rfl

/-- The header with its two enumerations as they read back from the wire. -/
def canonical (h : Header) : Header :=
  { h with request := .ofByte h.request.toByte, kind := .ofByte h.kind.toByte }

/-- The marker that is written is read back as the flag it stands for. -/
theorem more?_marker (more : Bool) :
    more? (if more then moreMarker else lastMarker) = some more := by
  cases more <;> rfl

/-- A header that was written is read back, with its enums as the wire knows them. -/
theorem decode_encode (h : Header) : decode h.encode = .ok h.canonical := by
  simp [encode, decode, Wire.bytes16, Wire.bytes32, more?_marker, Wire.word16_bytes16,
    Wire.word32_bytes32, canonical]

/-- Only the two markers are accepted, so the flag tells which of them it was. -/
theorem marker_of_more? {marker : UInt8} {more : Bool} (h : more? marker = some more) :
    (if more then moreMarker else lastMarker) = marker := by
  unfold more? at h
  split at h
  · simp_all
  · split at h <;> simp_all

/-- What is read is written back byte for byte: decoding forgets nothing. -/
theorem encode_decode {raw : List UInt8} {h : Header} (hd : decode raw = .ok h) :
    h.encode = raw := by
  unfold decode at hd
  -- Three things can be wrong: the number of bytes, the magic, the marker. What is left is a header made of
  -- the bytes themselves.
  split at hd
  · split at hd
    · simp at hd
    · rename_i hm
      split at hd
      · simp at hd
      · rename_i hmore
        cases hd
        simp only [encode, Wire.bytes16_word16, Wire.bytes32_word32, RequestType.toByte_ofByte,
          FileKind.toByte_ofByte, marker_of_more? hmore]
        simp_all
  · simp at hd

end Header

end Depot
