import Depot.Operation.Kinds

/-!
# Running operations

`step` takes an operation one step further, and `run` goes on until it waits for a packet or is over.
However it ends, an operation is counted once, and what went wrong is reported to the client if it is
still there.

`budget` bounds the number of steps that an operation can take before it has to wait or is over, as
long as the blocks of a download are not empty; it is the fuel of `run`.
-/

namespace Depot.Operation

/-- One step of the stage that an operation is in, with nothing in between. `script` has its parts. -/
def turn (service : Service) (op : Operation) (scene : Scene) : Turn :=
  match op.stage with
  | .opening =>
      .read op.inbox scene fun p inbox =>
      match op.kind with
      | .download =>
          .proceed scene (Download.request p) fun (kind, request) =>
          .next (.locating kind request) inbox scene
      | .upload =>
          .proceed scene (Upload.request service.limits p) fun upload =>
          .next (.collecting upload) inbox scene
      | .allocate =>
          .proceed scene (Allocation.request p) fun () => .next .allocating inbox scene
  | .locating kind request =>
      .proceed scene (Download.locate service scene kind request) fun transfer =>
      .next (.sending transfer) op.inbox scene
  | .sending transfer => Download.sendBlock service op.id transfer op.inbox scene
  | .collecting upload =>
      .read op.inbox scene fun p inbox =>
      -- A failed block ends the upload, and all that was collected is given up.
      .proceed scene (Upload.collect service.limits upload p) fun upload =>
      .next (if p.more then .collecting upload else .saving upload) inbox scene
  | .saving upload => Upload.save service op.id upload scene
  | .allocating => Allocation.allocate service op.id scene

/-- Reports a failure to the client, if it has a code and the client can be reached. -/
def report (op : Operation) (failure : Failure) (scene : Scene) : Scene :=
  match failure.code? with
  | none => scene
  -- A session that is gone is not told.
  | some code => (scene.send? op.id (.error op.kind.request code op.id)).getD scene

/-- How an operation with a result ends. -/
def outcome : Except Failure Unit → Outcome
  | .ok () => .ok
  | .error .suspended => .aborted
  | .error _ => .error

/-- Ends an operation: a failure is reported, and the outcome is counted. -/
def conclude (op : Operation) (result : Except Failure Unit) (scene : Scene) : Scene :=
  let scene := match result with
    | .ok () => scene
    | .error failure => op.report failure scene
  scene.count (.handlers op.kind (outcome result))

/-- Where an operation stands after a step. -/
inductive Progress
  | waiting
  | running (op : Operation) (scene : Scene)
  | ended (outcome : Outcome) (scene : Scene)
  deriving DecidableEq, Repr

/-- One step of an operation. -/
def step (service : Service) (op : Operation) (scene : Scene) : Progress :=
  match op.turn service scene with
  | .wait => .waiting
  | .next stage inbox scene => .running { op with stage, inbox } scene
  | .done result scene => .ended (outcome result) (op.conclude result scene)

/-- Steps of an operation up to the next one that has to wait or ends it. -/
def budget (op : Operation) : Nat :=
  match op.stage with
  | .opening => Storage.Store.maxLength + op.inbox.waiting.length + 4
  | .locating _ _ => Storage.Store.maxLength + 3
  | .sending t => t.remaining + 1
  | .collecting _ => op.inbox.waiting.length + 2
  | .saving _ => 1
  | .allocating => 1

/-- At most `fuel` steps. What is left of the operation is given back, if it is not over. -/
def runFor (service : Service) : Nat → Operation → Scene → Option Operation × Scene
  | 0, op, scene => (some op, scene)
  | fuel + 1, op, scene =>
      match op.step service scene with
      | .waiting => (some op, scene)
      | .running op scene => runFor service fuel op scene
      | .ended _ scene => (none, scene)

/-- Runs an operation until it waits or is over. -/
def run (service : Service) (op : Operation) (scene : Scene) : Option Operation × Scene :=
  runFor service op.budget op scene

end Depot.Operation
