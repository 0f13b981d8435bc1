import Depot.Operation.Run

/-!
# Operations in parts

Operations run beside each other and beside the switchboard. What `Operation.step` does at once is done
in parts, and between two of them anybody else may do something. A `Script` is what is left of a step.
Each of its parts touches one of the things that are shared: the inbox, the files, the user, the sign
that the session is alive, the queue to the peer.

In particular a packet is sent in two parts. The operation looks whether the session is alive, and then
it queues the packet without looking again. If the session is ended in between, the packet is queued
all the same.

`run` does a script with nothing in between, which comes to what `Operation.step` does.
-/

namespace Depot.Operation

/-- What is left of a step. -/
inductive Script
  /-- The step is over, and the operation goes on with a stage. -/
  | next (stage : Stage)
  /-- The operation is over. -/
  | finish (outcome : Outcome)
  /-- Takes the next packet of the inbox, and waits for it if need be. One that says so ends the
  operation, and so does the end of the inbox. -/
  | read (go : Packet → Script)
  /-- Takes the packets that are in the inbox, one in a part, to see whether any of them ends the
  operation. -/
  | scan (go : Script)
  /-- Uses the files: what becomes of them, and how it goes on from what they were. -/
  | files (write : Storage.Tree → Storage.Tree) (go : Storage.Tree → Script)
  /-- Makes somebody the user of the session. -/
  | identify (user : UInt32) (go : Script)
  /-- Looks whether the session is alive. -/
  | check (live dead : Script)
  /-- Queues a packet for the peer, if the queue takes it. Whether the session is alive does not count
  any more. -/
  | put (p : Packet) (taken refused : Script)

namespace Script

/-- Sends a packet: looks whether the session is alive, and queues the packet then. -/
def send (p : Packet) (sent unsent : Script) : Script := .check (.put p sent unsent) unsent

/-- Ends an operation that has failed. The failure is reported, if it has a code. -/
def fail (op : Operation) (failure : Failure) : Script :=
  let ended := .finish (outcome (.error failure))
  match failure.code? with
  | none => ended
  | some code => .send (.error op.kind.request code op.id) ended ended

/-- Goes on with what was worked out, or ends with the failure. -/
def proceed {α : Type} (op : Operation) (result : Except Failure α) (go : α → Script) : Script :=
  match result with
  | .error failure => .fail op failure
  | .ok a => go a

/-- Looks at the files, and leaves them as they are. -/
def look (go : Storage.Tree → Script) : Script := .files (fun tree => tree) go

/-- Sends the description of the file, if it is not sent yet. -/
def announce (op : Operation) (t : Transfer) (go : Script) : Script :=
  if t.announced then go
  else .proceed op (Download.infoPacket t) fun p => .send p go (.finish .aborted)

/-- Sends one more block. The session is looked at, then the inbox, and then the session once more. -/
def sendBlock (service : Service) (op : Operation) (t : Transfer) : Script :=
  let count := min t.remaining service.limits.downloadChunk
  let t' := Download.advance t count
  .look fun tree =>
  .proceed op (Download.readBlock tree t.place t.offset count) fun block =>
  .announce op t <|
  -- The inbox is looked at between two looks at the session.
  .check (.scan <|
    .send (Download.blockPacket t' block)
      (if t'.remaining = 0 then .finish .ok else .next (.sending t')) (.finish .aborted))
    (.finish .aborted)

/-- Stores the file of an upload. -/
def save (service : Service) (op : Operation) (u : Upload) : Script :=
  let stored (tree : Storage.Tree) :=
    service.store.save tree u.kind u.descriptor.user u.descriptor.name u.data
  -- Storing a file is one part: it is there as a whole or not at all.
  .files (fun tree => (stored tree).toOption.getD tree) fun tree =>
  .proceed op ((stored tree).mapError .ofStore) fun _ =>
  .send Upload.confirmation (.finish .ok) (.finish .aborted)

/-- Makes a user id. -/
def allocate (service : Service) (op : Operation) : Script :=
  .files (fun tree => ((service.store.allocate tree).toOption.map (·.2)).getD tree) fun tree =>
  .proceed op ((service.store.allocate tree).mapError fun _ => .noMoreIds) fun (user, _) =>
  .identify user <|
  .send (.new .id (UserId.encode user)) (.finish .ok) (.finish .aborted)

/-- What a script comes to with nothing in between. -/
def run : Script → Operation → Scene → Progress
  | .next stage, op, s => .running { op with stage } s
  | .finish outcome, op, s => .ended outcome (s.count (.handlers op.kind outcome))
  | .read go, op, s =>
      match op.inbox.receive with
      | (.pending, _) => .waiting
      | (.ended, _) => .ended .aborted (s.count (.handlers op.kind .aborted))
      | (.item p, rest) =>
          if p.request.endsOperation then .ended .aborted (s.count (.handlers op.kind .aborted))
          else (go p).run { op with inbox := rest } s
  | .scan go, op, s =>
      if op.inbox.waiting.any (·.request.endsOperation) then
        .ended .aborted (s.count (.handlers op.kind .aborted))
      else go.run { op with inbox := op.inbox.drained } s
  | .files write go, op, s => (go s.tree).run op { s with tree := write s.tree }
  | .identify user go, op, s => go.run op { s with session := { s.session with user } }
  -- Nothing comes in between here, so a packet that follows the check is queued for a session that is alive.
  | .check live dead, op, s => if s.session.live then live.run op s else dead.run op s
  | .put p taken refused, op, s =>
      if s.session.outbound.isClosed then refused.run op s
      else taken.run op { s with session := s.session.post (p.withOperation op.id) }

end Script

/-- The script of the stage that an operation is in. -/
def script (service : Service) (op : Operation) : Script :=
  match op.stage with
  | .opening =>
      .read fun p =>
      match op.kind with
      | .download =>
          .proceed op (Download.request p) fun (kind, request) => .next (.locating kind request)
      | .upload => .proceed op (Upload.request service.limits p) fun upload => .next (.collecting upload)
      | .allocate => .proceed op (Allocation.request p) fun () => .next .allocating
  | .locating kind request =>
      .look fun tree =>
      .proceed op (Download.locate service { tree } kind request) fun transfer =>
      .next (.sending transfer)
  | .sending transfer => .sendBlock service op transfer
  | .collecting upload =>
      .read fun p =>
      .proceed op (Upload.collect service.limits upload p) fun upload =>
      .next (if p.more then .collecting upload else .saving upload)
  | .saving upload => .save service op upload
  | .allocating => .allocate service op

/-- What one part comes to. -/
inductive Part
  /-- Nothing can be done before another packet comes. -/
  | wait
  /-- It is done, and this is left of the step; none if it was the last part. -/
  | on (op : Operation) (rest : Option Script) (scene : Scene)
  /-- The operation is over and leaves the switchboard. -/
  | left (scene : Scene)

/-- The next part of a script. An operation that is over is counted and lets go of its inbox; after that
it only has to leave. -/
def Script.part (op : Operation) (s : Scene) : Script → Part
  | .next stage => .on { op with stage } none s
  | .finish outcome =>
      if op.inbox.receiver = .gone then .left s
      else .on { op with inbox := op.inbox.dropReceiver } (some (.finish outcome))
        (s.count (.handlers op.kind outcome))
  | .read go =>
      match op.inbox.receive with
      | (.pending, _) => .wait
      | (.ended, _) => .on op (some (.finish .aborted)) s
      | (.item p, rest) =>
          .on { op with inbox := rest }
            (some (if p.request.endsOperation then .finish .aborted else go p)) s
  | .scan go =>
      match op.inbox.tryReceive with
      | none => .on op (some go) s
      | some (p, rest) =>
          .on { op with inbox := rest }
            (some (if p.request.endsOperation then .finish .aborted else .scan go)) s
  | .files write go => .on op (some (go s.tree)) { s with tree := write s.tree }
  | .identify user go => .on op (some go) { s with session := { s.session with user } }
  | .check live dead => .on op (some (if s.session.live then live else dead)) s
  | .put p taken refused =>
      if s.session.outbound.isClosed then .on op (some refused) s
      else .on op (some taken) { s with session := s.session.post (p.withOperation op.id) }

end Depot.Operation
