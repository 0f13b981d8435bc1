import Depot.Packet.Payload
import Depot.Storage.Store

/-!
# Why operations fail

An operation ends without success for a reason that is reported to the peer under one code, or because
the session or the peer ended it, which is not reported.
-/

namespace Depot.Operation

/-- The reasons for which an operation fails. -/
inductive Failure
  | fileNotFound
  | emptyFile
  /-- A field of the request is not acceptable. -/
  | argument (detail : String)
  /-- The packets of the operation make no sense. -/
  | invalidPacket (detail : String)
  | noMoreIds
  /-- The file system failed. -/
  | io (detail : String)
  /-- The session, or the peer, ended the operation. -/
  | suspended
  deriving DecidableEq, Repr

namespace Failure

/-- The name of a kind of failure. -/
def label : Failure → String
  | fileNotFound => "FileNotFound"
  | emptyFile => "EmptyFile"
  | argument _ => "Argument"
  | invalidPacket _ => "InvalidPacket"
  | noMoreIds => "NoMoreIds"
  | io _ => "Io"
  | suspended => "Suspended"

/-- The text of a failure. -/
def message : Failure → String
  | fileNotFound => "file not found"
  | emptyFile => "file is empty"
  | argument detail => "invalid argument: " ++ detail
  | invalidPacket detail => "invalid packet: " ++ detail
  | noMoreIds => "no more user ids"
  | io detail => "i/o failure: " ++ detail
  | suspended => "session suspended"

/-- The code under which a failure is reported, if it is. -/
def code? : Failure → Option ErrorCode
  | fileNotFound => some .fileNotFound
  | emptyFile => some .emptyFile
  | argument _ => some .argumentError
  | invalidPacket _ => some .invalidPacket
  | noMoreIds => some .noMoreId
  | io _ => some .unknown
  | suspended => none

/-- What a malformed payload is to an operation. -/
def ofPayload (e : PayloadError) : Failure := invalidPacket e.message

/-- What a refusal of the store is to an operation. -/
def ofStore : Storage.StoreError → Failure
  | .notFound _ => fileNotFound
  | .unsupportedKind _ => fileNotFound
  | .invalidName name => argument ("file name " ++ Text.Quoted.encode name)
  | .tooLarge length => argument s!"file of {length} bytes"
  | .noMoreIds => noMoreIds
  | .io detail => io detail

end Failure

end Depot.Operation
