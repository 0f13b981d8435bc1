import Depot.Operation.Failure
import Depot.Operation.Scene

/-!
# Operations

An operation is one request of a client in progress: a download, an upload or the making of a user id.
It has an inbox of its own and goes through stages. A `Turn` is what one step of a stage comes to: the
operation waits for a packet, or goes on to another stage, or is over.
-/

namespace Depot

namespace Operation

/-- A download in progress. -/
structure Transfer where
  /-- Where the file is. -/
  place : Storage.Place
  kind : FileKind
  /-- What was found when the file was opened. -/
  descriptor : FileDescriptor
  /-- The number of bytes that are sent. -/
  offset : Nat := 0
  /-- The number of the last block. -/
  sequence : UInt16 := 0
  /-- Whether the description of the file is sent. -/
  announced : Bool := false
  deriving DecidableEq, Repr

/-- The number of bytes that a download still has to send. -/
def Transfer.remaining (t : Transfer) : Nat := t.descriptor.size.toNat - t.offset

/-- An upload in progress. -/
structure Upload where
  kind : FileKind
  /-- What the client said of the file. -/
  descriptor : FileDescriptor
  /-- What has come of its content. -/
  data : List UInt8 := []
  deriving DecidableEq, Repr

/-- How far an operation has come. -/
inductive Stage
  /-- It has read nothing yet. -/
  | opening
  /-- A file was asked for and has to be found. -/
  | locating (kind : FileKind) (request : FileRequest)
  /-- A file is being sent. -/
  | sending (transfer : Transfer)
  /-- The content of a file is coming in. -/
  | collecting (upload : Upload)
  /-- The content of a file is complete and has to be stored. -/
  | saving (upload : Upload)
  /-- A user id has to be made. -/
  | allocating
  deriving DecidableEq, Repr

end Operation

/-- A request in progress. -/
structure Operation where
  /-- The operation id, which its packets carry. -/
  id : UInt8
  kind : OperationKind
  stage : Operation.Stage := .opening
  /-- The packets of the client that it has not read. -/
  inbox : Queue Packet := {}
  deriving DecidableEq, Repr

namespace Operation

/-- What one step of an operation comes to. -/
inductive Turn
  /-- Nothing can be done before another packet comes. -/
  | wait
  /-- It goes on with another stage and what is left of its inbox. -/
  | next (stage : Stage) (inbox : Queue Packet) (scene : Scene)
  /-- It is over. -/
  | done (result : Except Failure Unit) (scene : Scene)

/-- Goes on with what was worked out, or ends with the failure. -/
def Turn.proceed {α : Type} (scene : Scene) (result : Except Failure α) (go : α → Turn) : Turn :=
  match result with
  | .error failure => .done (.error failure) scene
  | .ok a => go a

/-- Reads the next packet of the inbox. The end of the inbox ends the operation, and so does a packet
that says so. -/
def Turn.read (inbox : Queue Packet) (scene : Scene) (go : Packet → Queue Packet → Turn) : Turn :=
  match inbox.receive with
  | (.pending, _) => .wait
  | (.ended, _) => .done (.error .suspended) scene
  | (.item p, rest) =>
      if p.request.endsOperation then .done (.error .suspended) scene else go p rest

end Operation

end Depot
