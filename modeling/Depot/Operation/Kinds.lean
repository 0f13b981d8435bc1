import Depot.Operation.Basic

/-!
# The three kinds of operations

What downloads, uploads and allocations do with their packets, and with the scene. Each function here is
the whole of what an operation of the kind does in one of its stages.
-/

namespace Depot.Operation

/-! ### Downloads

A download answers a request for a file with a description of the file and then its content, block by
block. The first block is read before anything is sent, so a file that cannot be read at all yields
nothing but the error. A file that has become shorter in the meantime ends the download with an error
after the blocks that were sent, none of which says that it is the last. -/

namespace Download

/-- Checks the packet that opens a download. -/
def request (p : Packet) : Except Failure (FileKind × FileRequest) := do
  if p.request ≠ .fileRequest then
    throw (.invalidPacket ("download opened by " ++ p.request.label))
  let request ← (FileRequest.parse p.payload).mapError .ofPayload
  -- The payload was read first, so a bad payload of a bad kind is a bad payload.
  if !p.header.kind.isStored then throw (.argument ("file kind " ++ p.header.kind.label))
  if request.user = 0 then throw (.argument "user id 0")
  return (p.header.kind, request)

/-- Finds the file that is asked for. -/
def locate (service : Service) (scene : Scene) (kind : FileKind) (request : FileRequest) :
    Except Failure Transfer := do
  let (place, size) ←
    (service.store.openFile scene.tree kind request.user request.name).mapError .ofStore
  -- A file without content has no block, and no block could say that it is the last.
  if size = 0 then throw .emptyFile
  return { place, kind, descriptor := { size, user := request.user, name := request.name } }

/-- The bytes of a file from an offset on, exactly `count` of them. -/
def readBlock (tree : Storage.Tree) (place : Storage.Place) (offset count : Nat) :
    Except Failure (List UInt8) :=
  -- The file may have changed since it was found: it counts for what it is now.
  let block := match tree.get? place with
    | some (.file content) => content.block offset count
    | _ => []
  if block.length < count then .error (.io "early eof") else .ok block

/-- The packet that describes the file. -/
def infoPacket (t : Transfer) : Except Failure Packet := do
  let payload ← t.descriptor.encode.mapError .ofPayload
  return ((Packet.new .fileInfo payload).withKind t.kind).withMore true

/-- The download after another block of some length. -/
def advance (t : Transfer) (count : Nat) : Transfer :=
  { t with offset := t.offset + count, sequence := t.sequence + 1, announced := true }

/-- The packet of the block that leads to a state of the download. -/
def blockPacket (t : Transfer) (block : List UInt8) : Packet :=
  (((Packet.new .file block).withSequence t.sequence).withKind t.kind).withMore
    (decide (t.remaining > 0))

/-- Sends the description of the file, if it is not sent yet. -/
def announce (id : UInt8) (t : Transfer) (scene : Scene) : Except Failure Scene :=
  if t.announced then .ok scene
  else match infoPacket t with
    | .error failure => .error failure
    | .ok p => match scene.send? id p with
      | none => .error .suspended
      | some scene => .ok scene

/-- Sends one more block. Before each block whatever has come in is looked at, only to see whether it
ends the download. -/
def sendBlock (service : Service) (id : UInt8) (t : Transfer) (inbox : Queue Packet)
    (scene : Scene) : Turn :=
  let count := min t.remaining service.limits.downloadChunk
  -- The first block is read before the file is announced, so a file that cannot be read is not.
  .proceed scene (readBlock scene.tree t.place t.offset count) fun block =>
  .proceed scene (announce id t scene) fun scene =>
  -- After the announcement the session may have died, or the client may have had enough.
  if !scene.session.live || inbox.waiting.any (·.request.endsOperation) then
    .done (.error .suspended) scene
  else
    let t' := advance t count
    match scene.send? id (blockPacket t' block) with
    | none => .done (.error .suspended) scene
    | some scene =>
        if t'.remaining = 0 then .done (.ok ()) scene
        else .next (.sending t') inbox.drained scene

end Download

/-! ### Uploads

An upload is opened by the description of a file, which the blocks of its content follow; the last one
says that it is the last. Only then is the file stored, as a whole. The length in the description is
checked against the limit, but it is the content that counts. -/

namespace Upload

/-- An upload that is too long. -/
def tooLong (length limit : Nat) : Failure :=
  .argument s!"upload of {length} bytes exceeds limit of {limit}"

/-- Checks the packet that opens an upload. -/
def request (limits : Limits) (p : Packet) : Except Failure Upload := do
  if p.request ≠ .fileInfo then
    throw (.invalidPacket ("upload opened by " ++ p.request.label))
  if !p.more then throw (.invalidPacket "file info is marked as the last frame")
  let descriptor ← (FileDescriptor.parse p.payload).mapError .ofPayload
  if descriptor.user = 0 then throw (.argument "user id 0")
  if !p.header.kind.isStored then throw .fileNotFound
  if descriptor.size.toNat > limits.maxUpload then
    throw (tooLong descriptor.size.toNat limits.maxUpload)
  return { kind := p.header.kind, descriptor }

/-- Adds the block in a packet. -/
def collect (limits : Limits) (u : Upload) (p : Packet) : Except Failure Upload := do
  match p.request with
  | .file =>
      let total := u.data.length + p.payload.length
      if total > limits.maxUpload then throw (tooLong total limits.maxUpload)
      return { u with data := u.data ++ p.payload }
  | .fileInfo => throw (.invalidPacket "repeated file info")
  | other => throw (.invalidPacket ("unexpected " ++ other.label ++ " during upload"))

/-- The packet that says that a file is stored. -/
def confirmation : Packet := .new .fileSaveDone [ErrorCode.success.toByte]

/-- Stores the file. -/
def save (service : Service) (id : UInt8) (u : Upload) (scene : Scene) : Turn :=
  let stored :=
    service.store.save scene.tree u.kind u.descriptor.user u.descriptor.name u.data
  .proceed scene (stored.mapError .ofStore) fun tree =>
  -- The file stays stored, whether or not that can still be told.
  let scene := { scene with tree }
  match scene.send? id confirmation with
  | none => .done (.error .suspended) scene
  | some scene => .done (.ok ()) scene

end Upload

/-! ### Allocations

An allocation makes a new user id, tells it to the client and makes it the user of the session. All
that can go wrong with the store is one and the same to the client: there is no id to be had. -/

namespace Allocation

/-- Checks the packet that opens an allocation. -/
def request (p : Packet) : Except Failure Unit :=
  if p.request ≠ .idRequest then
    .error (.invalidPacket ("allocation opened by " ++ p.request.label))
  else .ok ()

/-- Makes the id. -/
def allocate (service : Service) (id : UInt8) (scene : Scene) : Turn :=
  match service.store.allocate scene.tree with
  | .error _ => .done (.error .noMoreIds) scene
  | .ok (user, tree) =>
      -- The session has its user even if the client is never told of it.
      let scene := { scene with tree, session := { scene.session with user } }
      match scene.send? id (.new .id (UserId.encode user)) with
      | none => .done (.error .suspended) scene
      | some scene => .done (.ok ()) scene

end Allocation

end Depot.Operation
