import Depot.Packet.Basic

/-!
# Payload layouts

Requests that name a file carry little-endian words followed by the name: one byte for its length,
then the name in ASCII. Readers take the fields from the front and leave what follows them alone;
they report the first field that is cut short, with the number of bytes up to its end.
-/

namespace Depot

/-- The ways in which a payload cannot be read or written. -/
inductive PayloadError
  /-- A field ends at byte `needed`, but only `available` bytes are there. -/
  | truncated (needed available : Nat)
  /-- A file name has a byte, or a character, outside ASCII. -/
  | nameNotAscii
  /-- A file name is longer than its length byte can say. -/
  | nameTooLong (length : Nat)
  deriving DecidableEq, Repr

/-- The name of a kind of payload error. -/
def PayloadError.label : PayloadError → String
  | truncated _ _ => "Truncated"
  | nameNotAscii => "NameNotAscii"
  | nameTooLong _ => "NameTooLong"

/-- The text of a payload error. -/
def PayloadError.message : PayloadError → String
  | truncated needed available =>
      s!"payload truncated: need {needed} bytes, have {available}"
  | nameNotAscii => "file name is not ASCII"
  | nameTooLong length => s!"file name is {length} bytes; at most 255 are allowed"

namespace Payload

/-- The longest file name that fits its length byte. -/
def maxName : Nat := 255

/-- The word in the four bytes from `start`. -/
def readWord (payload : List UInt8) (start : Nat) : Except PayloadError UInt32 :=
  match payload.drop start with
  | b0 :: b1 :: b2 :: b3 :: _ => .ok (Wire.word32 b0 b1 b2 b3)
  | _ => .error (.truncated (start + 4) payload.length)

/-- The name whose length byte stands at `start`. -/
def readName (payload : List UInt8) (start : Nat) : Except PayloadError String :=
  match payload.drop start with
  | [] => .error (.truncated (start + 1) payload.length)
  | length :: rest =>
      let raw := rest.take length.toNat
      if raw.length < length.toNat then
        .error (.truncated (start + 1 + length.toNat) payload.length)
      else if raw.all (· < 128) then
        .ok (String.ofList (raw.map fun b => Char.ofNat b.toNat))
      else .error .nameNotAscii

/-- A name behind its length byte. Being outside ASCII is reported before being too long. -/
def writeName (name : String) : Except PayloadError (List UInt8) :=
  let chars := name.toList
  if chars.all (·.toNat < 128) then
    if chars.length > maxName then .error (.nameTooLong chars.length)
    else .ok (UInt8.ofNat chars.length :: chars.map fun c => UInt8.ofNat c.toNat)
  else .error .nameNotAscii

end Payload

/-- A request for a file. -/
structure FileRequest where
  /-- The owner, whose directory is meant. -/
  user : UInt32
  name : String
  deriving DecidableEq, Repr

namespace FileRequest

/-- Reads a request for a file. -/
def parse (payload : List UInt8) : Except PayloadError FileRequest := do
  let user ← Payload.readWord payload 0
  let name ← Payload.readName payload 4
  return { user, name }

/-- Writes a request for a file. -/
def encode (r : FileRequest) : Except PayloadError (List UInt8) := do
  let name ← Payload.writeName r.name
  return Wire.bytes32 r.user ++ name

end FileRequest

/-- What is said of a file before its content is sent. -/
structure FileDescriptor where
  /-- The length of the file in bytes. -/
  size : UInt32
  user : UInt32
  name : String
  deriving DecidableEq, Repr

namespace FileDescriptor

/-- Reads a file description. -/
def parse (payload : List UInt8) : Except PayloadError FileDescriptor := do
  let size ← Payload.readWord payload 0
  let user ← Payload.readWord payload 4
  let name ← Payload.readName payload 8
  return { size, user, name }

/-- Writes a file description. -/
def encode (d : FileDescriptor) : Except PayloadError (List UInt8) := do
  let name ← Payload.writeName d.name
  return Wire.bytes32 d.size ++ Wire.bytes32 d.user ++ name

end FileDescriptor

/-- The report of a failed request. -/
structure ErrorReport where
  request : RequestType
  code : ErrorCode
  deriving DecidableEq, Repr

namespace ErrorReport

/-- Reads an error report. -/
def parse : List UInt8 → Except PayloadError ErrorReport
  | request :: code :: _ => .ok { request := .ofByte request, code := .ofByte code }
  | payload => .error (.truncated 2 payload.length)

/-- Writes an error report. -/
def encode (r : ErrorReport) : List UInt8 := [r.request.toByte, r.code.toByte]

end ErrorReport

namespace UserId

/-- Reads a user id. -/
def parse (payload : List UInt8) : Except PayloadError UInt32 := Payload.readWord payload 0

/-- Writes a user id. -/
def encode (user : UInt32) : List UInt8 := Wire.bytes32 user

end UserId

end Depot
