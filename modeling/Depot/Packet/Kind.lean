import Depot.Text.Numerals

/-!
# What a packet is for

Three bytes of the protocol name something: the purpose of a packet, the storage area that it speaks
of, and the reason for a failure. Each is an enumeration with one more case, `other`, for bytes
without a meaning, so that reading a byte loses nothing:

* `RequestType.toByte_ofByte`, `FileKind.toByte_ofByte` and `ErrorCode.toByte_ofByte` say that a byte
  read and written again is the same byte.

The converse holds of the values that reading can give, where `other` never holds a byte that has a
meaning.
-/

namespace Depot

/-- The text of an unassigned byte, in hexadecimal. -/
private def unassignedHex (b : UInt8) : String :=
  "Other(0x" ++ Text.Hex.byte b ++ ")"

/-- The text of an unassigned byte, in decimal. -/
private def unassignedDecimal (b : UInt8) : String :=
  "Other(" ++ toString b.toNat ++ ")"

/-- The purpose of a packet. -/
inductive RequestType
  /-- Describes a file by size, owner and name; from a client it opens an upload. -/
  | fileInfo
  /-- Asks for a new user id. -/
  | idRequest
  /-- Carries a new user id. -/
  | id
  | healthRecord
  | story
  | manager
  | update
  | newUser
  /-- Carries one block of a file. -/
  | file
  /-- Asks for a file. -/
  | fileRequest
  /-- Reports a failed request. -/
  | error
  /-- Ends the session. -/
  | suspend
  /-- Asks nothing; shows that the sender is alive. -/
  | connectionCheck
  /-- Says that an upload is stored. -/
  | fileSaveDone
  /-- A byte without a meaning. -/
  | other (byte : UInt8)
  deriving DecidableEq, Repr, Inhabited

namespace RequestType

/-- The assigned purposes, in the order of their bytes. -/
def known : List RequestType :=
  [fileInfo, idRequest, id, healthRecord, story, manager, update, newUser, file, fileRequest, error,
    suspend, connectionCheck, fileSaveDone]

/-- The purpose that a byte stands for. -/
def ofByte : UInt8 → RequestType
  | 0 => fileInfo
  | 1 => idRequest
  | 2 => id
  | 3 => healthRecord
  | 4 => story
  | 5 => manager
  | 6 => update
  | 7 => newUser
  | 8 => file
  | 9 => fileRequest
  | 10 => error
  | 11 => suspend
  | 12 => connectionCheck
  | 13 => fileSaveDone
  | b => other b

/-- The byte that stands for a purpose. -/
def toByte : RequestType → UInt8
  | fileInfo => 0
  | idRequest => 1
  | id => 2
  | healthRecord => 3
  | story => 4
  | manager => 5
  | update => 6
  | newUser => 7
  | file => 8
  | fileRequest => 9
  | error => 10
  | suspend => 11
  | connectionCheck => 12
  | fileSaveDone => 13
  | other b => b

/-- Whether the byte behind the value has a meaning. -/
def isKnown : RequestType → Bool
  | other _ => false
  | _ => true

/-- Whether a client opens an operation with it. -/
def startsOperation : RequestType → Bool
  | fileRequest | fileInfo | idRequest => true
  | _ => false

/-- Whether it ends the operation that reads it: a suspend, or an error of the peer. -/
def endsOperation : RequestType → Bool
  | suspend | error => true
  | _ => false

/-- The name of an assigned purpose; `unassigned` gives the text of any other byte. -/
def nameOr (unassigned : UInt8 → String) : RequestType → String
  | fileInfo => "FileInfo"
  | idRequest => "IdRequest"
  | id => "Id"
  | healthRecord => "HealthRecord"
  | story => "Story"
  | manager => "Manager"
  | update => "Update"
  | newUser => "NewUser"
  | file => "File"
  | fileRequest => "FileRequest"
  | error => "Error"
  | suspend => "Suspend"
  | connectionCheck => "ConnectionCheck"
  | fileSaveDone => "FileSaveDone"
  | other b => unassigned b

/-- The text in messages to people. -/
def label (r : RequestType) : String := r.nameOr unassignedHex

/-- The text in diagnostics, where unassigned bytes are decimal. -/
def decimalLabel (r : RequestType) : String := r.nameOr unassignedDecimal

/-- The byte survives, also one that stands for no request. -/
theorem toByte_ofByte (b : UInt8) : (ofByte b).toByte = b := by
  unfold ofByte
  split <;> rfl

end RequestType

/-- The storage area that a packet speaks of. -/
inductive FileKind
  /-- Content that all users share. -/
  | dlc
  /-- The files of one user. -/
  | user
  /-- No storage area. -/
  | none
  /-- A byte without a meaning. -/
  | other (byte : UInt8)
  deriving DecidableEq, Repr, Inhabited

namespace FileKind

/-- The assigned areas, in the order of their bytes. -/
def known : List FileKind := [dlc, user, none]

/-- The area that a byte stands for. -/
def ofByte : UInt8 → FileKind
  | 0 => dlc
  | 1 => user
  | 2 => none
  | b => other b

/-- The byte that stands for an area. -/
def toByte : FileKind → UInt8
  | dlc => 0
  | user => 1
  | none => 2
  | other b => b

/-- Whether the byte behind the value has a meaning. -/
def isKnown : FileKind → Bool
  | other _ => false
  | _ => true

/-- Whether files are kept under it. -/
def isStored : FileKind → Bool
  | dlc | user => true
  | _ => false

/-- Only downloadable content and what users upload is kept in the store. -/
theorem isStored_iff (kind : FileKind) : kind.isStored = true ↔ kind = dlc ∨ kind = user := by
  cases kind <;> simp [isStored]

/-- The text in messages, where unassigned bytes are decimal. -/
def label : FileKind → String
  | dlc => "Dlc"
  | user => "User"
  | none => "None"
  | other b => unassignedDecimal b

/-- The byte survives, also one that stands for no kind of file. -/
theorem toByte_ofByte (b : UInt8) : (ofByte b).toByte = b := by
  unfold ofByte
  split <;> rfl

end FileKind

/-- The reason that an error or a suspend gives. -/
inductive ErrorCode
  | success
  | socketClosed
  | fileNotFound
  | argumentError
  | emptyFile
  | invalidPacket
  | noMoreId
  | connectionCheckFailed
  | manualShutdown
  | unknown
  /-- A byte without a meaning. -/
  | other (byte : UInt8)
  deriving DecidableEq, Repr, Inhabited

namespace ErrorCode

/-- The assigned reasons, in the order of their bytes. -/
def known : List ErrorCode :=
  [success, socketClosed, fileNotFound, argumentError, emptyFile, invalidPacket, noMoreId,
    connectionCheckFailed, manualShutdown, unknown]

/-- The reason that a byte stands for. -/
def ofByte : UInt8 → ErrorCode
  | 0 => success
  | 1 => socketClosed
  | 2 => fileNotFound
  | 3 => argumentError
  | 4 => emptyFile
  | 5 => invalidPacket
  | 6 => noMoreId
  | 7 => connectionCheckFailed
  | 8 => manualShutdown
  | 9 => unknown
  | b => other b

/-- The byte that stands for a reason. -/
def toByte : ErrorCode → UInt8
  | success => 0
  | socketClosed => 1
  | fileNotFound => 2
  | argumentError => 3
  | emptyFile => 4
  | invalidPacket => 5
  | noMoreId => 6
  | connectionCheckFailed => 7
  | manualShutdown => 8
  | unknown => 9
  | other b => b

/-- Whether the byte behind the value has a meaning. -/
def isKnown : ErrorCode → Bool
  | other _ => false
  | _ => true

/-- The name of an assigned reason; `unassigned` gives the text of any other byte. -/
def nameOr (unassigned : UInt8 → String) : ErrorCode → String
  | success => "Success"
  | socketClosed => "SocketClosed"
  | fileNotFound => "FileNotFound"
  | argumentError => "ArgumentError"
  | emptyFile => "EmptyFile"
  | invalidPacket => "InvalidPacket"
  | noMoreId => "NoMoreId"
  | connectionCheckFailed => "ConnectionCheckFailed"
  | manualShutdown => "ManualShutdown"
  | unknown => "Unknown"
  | other b => unassigned b

/-- The text in messages to people. -/
def label (c : ErrorCode) : String := c.nameOr unassignedHex

/-- The text in diagnostics, where unassigned bytes are decimal. -/
def decimalLabel (c : ErrorCode) : String := c.nameOr unassignedDecimal

/-- The byte survives, also one that stands for no error. -/
theorem toByte_ofByte (b : UInt8) : (ofByte b).toByte = b := by
  unfold ofByte
  split <;> rfl

end ErrorCode

end Depot
