import Depot.Operation.Run
import Depot.Switchboard.Roster

/-!
# The switchboard

The switchboard of a session takes its packets in the order in which they came. A request starts an
operation under its operation id, blocks and errors go to the operation that they name, and a suspend
goes to all of them and ends the session. What names no running operation is dropped.

The operations run on their own. `advance?` takes a single step of one of them, so that any order of
dispatching and running can be spoken of. Nothing comes in the middle of a step or of a dispatch: a packet
that is sent in a step was sent by an operation that had just seen the session alive, and an operation that
ends in one has left with it. `Midway` takes both apart. `settle` is the order in which nothing is dispatched before
all of them, in the order in which they started, have gone as far as they can.
-/

namespace Depot

/-- An operation on the switchboard. -/
structure Switchboard.Entry where
  /-- The number of operations that were started before it. -/
  number : Nat
  operation : Operation
  deriving DecidableEq, Repr

/-- What has become of a switchboard after a suspend. -/
inductive Switchboard.Halt
  /-- Operations may still be running. -/
  | draining
  | closed
  deriving DecidableEq, Repr

/-- The running operations of a session. -/
structure Switchboard where
  entries : Switchboard.Roster Switchboard.Entry := {}
  /-- The number of operations ever started. -/
  started : Nat := 0
  halt : Option Switchboard.Halt := none
  deriving DecidableEq, Repr

namespace Switchboard

/-- The states of a switchboard. -/
inductive State
  | idle
  | active
  | draining
  | closed
  deriving DecidableEq, Repr

/-- The name of a state. -/
def State.label : State → String
  | idle => "Idle"
  | active => "Active"
  | draining => "Draining"
  | closed => "Closed"

/-- The state of a switchboard. -/
def state (b : Switchboard) : State :=
  match b.halt with
  | some .draining => .draining
  | some .closed => .closed
  | none => if b.entries.isEmpty then .idle else .active

/-- The ids of the running operations. -/
def activeIds (b : Switchboard) : List UInt8 := b.entries.ids

/-- What a packet means for the packets after it. -/
inductive Flow
  | go
  /-- The session was suspended with this code. -/
  | stop (code : ErrorCode)
  deriving DecidableEq, Repr

/-- Puts a packet into the inbox of an operation. -/
def Entry.put (p : Packet) (e : Entry) : Entry :=
  { e with operation := { e.operation with inbox := e.operation.inbox.push p } }

/-- A new operation with the packet that opens it. -/
def Entry.opened (number : Nat) (kind : OperationKind) (p : Packet) : Entry :=
  Entry.put p { number, operation := { id := p.operation, kind } }

/-- Starts an operation. One that has the id of a running operation is refused. -/
def start (b : Switchboard) (kind : OperationKind) (p : Packet) (scene : Scene) :
    Switchboard × Scene :=
  match b.entries.enroll? p.operation (.opened b.started kind p) with
  | some entries => ({ b with entries, started := b.started + 1 }, scene)
  | none =>
      -- The running operation does not notice. Its namesake is answered, and the session goes on.
      let refusal := Packet.error kind.request .invalidPacket p.operation
      let scene := scene.count (.errors .operationInUse)
      (b, { scene with session := scene.session.post refusal })

/-- Hands a packet to the operation that it names, if it is running. -/
def forward (b : Switchboard) (p : Packet) : Switchboard :=
  { b with entries := b.entries.amend p.operation (.put p) }

/-- Hands a suspend to all operations. The session is killed after that, in the same dispatch. -/
def suspend (b : Switchboard) (p : Packet) : Switchboard :=
  { b with entries := b.entries.map (.put p), halt := some .draining }

/-- Takes one packet. To hand out a suspend and to kill the session is one step here; the operations may go
on between the two (`Midway.signal`). -/
def dispatch (b : Switchboard) (p : Packet) (scene : Scene) : Flow × Switchboard × Scene :=
  match p.request with
  -- An unreadable code still suspends.
  | .suspend => (.stop (p.suspendCode?.getD .unknown), b.suspend p, scene.kill)
  | .file | .error => (.go, b.forward p, scene)
  | other =>
      match OperationKind.ofRequest? other with
      | some kind => (.go, b.start kind p scene)
      -- Packets that start nothing and belong to nothing, such as answers to a probe.
      | none => (.go, b, scene)

/-- Writes down where the operation with an id stands now. One that is over leaves the switchboard in the
same step. In parts it lets go of its inbox first and leaves later; in between, packets go to an inbox that
nobody listens to, as they do on one of the `Lines` that is still connected. -/
def store (b : Switchboard) (id : UInt8) (op : Option Operation) : Switchboard :=
  match op with
  | some operation => { b with entries := b.entries.amend id fun e => { e with operation } }
  | none => { b with entries := b.entries.dismiss id }

/-- Takes one step of the operation with an id, if it can take one. The step is taken as a whole, to the end
of the operation if it is the last (`Midway.exists_partFor_of_advance?` says of which parts it is made). -/
def advance? (service : Service) (b : Switchboard) (id : UInt8) (scene : Scene) :
    Option (Switchboard × Scene) :=
  match b.entries.find? id with
  | none => none
  | some e =>
      match e.operation.step service scene with
      | .waiting => none
      | .running op scene => some (b.store id (some op), scene)
      | .ended _ scene => some (b.store id none, scene)

/-- Runs the operation with an id as far as it goes. -/
def work (service : Service) (b : Switchboard) (id : UInt8) (scene : Scene) :
    Switchboard × Scene :=
  match b.entries.find? id with
  | none => (b, scene)
  | some e =>
      let (op, scene) := e.operation.run service scene
      (b.store id op, scene)

/-- The ids of the running operations, in the order in which they started. -/
def startOrder (b : Switchboard) : List UInt8 :=
  (b.entries.values.mergeSort fun e f => e.number ≤ f.number).map (·.operation.id)

/-- Runs all operations as far as they go. -/
def settle (service : Service) (b : Switchboard) (scene : Scene) : Switchboard × Scene :=
  b.startOrder.foldl (fun (b, scene) id => b.work service id scene) (b, scene)

/-- Closes the switchboard if nothing is running. -/
def close? (b : Switchboard) : Option Switchboard :=
  if b.entries.isEmpty then some { b with halt := some .closed } else none

/-- Runs all operations as far as they go, and closes the switchboard if all of them are over. -/
def drain (service : Service) (b : Switchboard) (scene : Scene) : Bool × Switchboard × Scene :=
  let (b, scene) := b.settle service scene
  match b.close? with
  | some b => (true, b, scene)
  | none => (false, b, scene)

/-- Dispatches packets one after another, whatever becomes of each. -/
def dispatchAll (b : Switchboard) (scene : Scene) : List Packet → List Flow × Switchboard × Scene
  | [] => ([], b, scene)
  | p :: rest =>
      let (flow, b, scene) := b.dispatch p scene
      let (flows, b, scene) := b.dispatchAll scene rest
      (flow :: flows, b, scene)

end Switchboard

end Depot
