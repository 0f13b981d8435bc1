import Depot.Connection.Slot
import Depot.Diagnostics.Metrics
import Depot.Pool
import Depot.Server.Backoff

/-!
# Admission

How a running server lets connections in. A slot is borrowed from the pool before a connection is
accepted, so nobody is let in while every slot is in use. Each connection is served by a task of its
own, which counts it, serves it and gives the slot back. A failure to accept gives the slot back, and
the next attempt waits for the delay of the back-off.

When the server shuts down the gate stops, the pool is closed, and the server returns when all tasks
are over. `step?` takes one step of the gate or of one task; `Run` is any course of such steps.
-/

namespace Depot.Server

/-- A slot of the pool. -/
structure PooledSlot where
  /-- Tells the slots of a pool apart. -/
  number : Nat
  slot : Slot
  deriving DecidableEq, Repr

/-- The bytes that the place of a slot takes in the pool, not counting its buffers. -/
def PooledSlot.size : Nat := 256

/-- What the gate is about to do. -/
inductive Gate
  /-- Borrows a slot. -/
  | borrowing
  /-- Waits for a slot, under a number in the queue of the pool. -/
  | queued (number : Nat)
  /-- Waits for a connection, with a slot for it. -/
  | accepting (slot : PooledSlot)
  /-- Waits after a failure. -/
  | pausing (delay : Duration)
  | stopped
  deriving DecidableEq, Repr

/-- How far the task of a connection has come. -/
inductive TaskStage
  | admitted
  /-- The connection is counted as active. -/
  | counted
  /-- The connection is served, and not counted any more. -/
  | served
  deriving DecidableEq, Repr

/-- The task of one connection. -/
structure Task where
  /-- The number of the connection. -/
  id : Nat
  slot : PooledSlot
  stage : TaskStage := .admitted
  deriving DecidableEq, Repr

/-- The state of a running server, as far as letting connections in goes. -/
structure Admission where
  config : Config
  backoff : Backoff
  pool : Pool PooledSlot
  gate : Gate := .borrowing
  /-- The delay after the next failure. -/
  delay : Duration
  /-- The number of connections accepted so far. -/
  accepted : Nat := 0
  tasks : List Task := []
  /-- The number of connections that are counted as active. -/
  active : Nat := 0
  /-- Whether the server is shutting down. -/
  shutdown : Bool := false
  deriving DecidableEq, Repr

namespace Admission

/-- A server that has just started. -/
def start (config : Config) (backoff : Backoff) : Admission :=
  let backoff := backoff.normalized
  { config, backoff, pool := .new config.maxClients, delay := backoff.initial }

/-- A slot that is built for the pool. -/
def build (config : Config) (number : Nat) : PooledSlot := { number, slot := .new config }

/-- A slot that is given back. -/
def reset (s : PooledSlot) : PooledSlot := { s with slot := s.slot.recycle }

/-- One step of the gate or of a task. -/
inductive Event
  /-- The gate asks for a slot. -/
  | borrow
  /-- The gate gets a slot for the connection to come, and a connection from this peer comes. -/
  | accept (peer : String)
  /-- Accepting a connection fails. -/
  | fail
  /-- The delay after a failure is over. -/
  | resume
  /-- The task of a connection counts it. -/
  | count (id : Nat)
  /-- The task of a connection serves it, whatever that does to its slot. -/
  | serve (id : Nat) (slot : Slot)
  /-- The task of a connection has served it. -/
  | uncount (id : Nat)
  /-- The task of a connection gives its slot back and is over. -/
  | release (id : Nat)
  /-- The server begins to shut down. -/
  | shutdown
  /-- The gate stops because the server shuts down. -/
  | stop
  /-- The pool is closed because the server shuts down. -/
  | close
  deriving DecidableEq, Repr

/-- The task of a connection at a stage. -/
def task? (a : Admission) (id : Nat) (stage : TaskStage) : Option Task :=
  a.tasks.find? fun t => t.id == id && t.stage == stage

/-- Changes the task of a connection. -/
def updateTask (a : Admission) (id : Nat) (f : Task → Task) : Admission :=
  { a with tasks := a.tasks.map fun t => if t.id = id then f t else t }

/-- The gate asks for a slot. -/
def borrow? (a : Admission) : Option Admission :=
  match a.gate with
  | .borrowing =>
      match a.pool.acquire (build a.config) with
      | (.item slot, pool) => some { a with pool, gate := .accepting slot }
      | (.queued number, pool) => some { a with pool, gate := .queued number }
      -- Only a closed pool refuses a borrower who is ready to wait.
      | (.failed _, pool) => some { a with pool, gate := .stopped }
  | .queued number =>
      match a.pool.ask (build a.config) number with
      | (.item slot, pool) => some { a with pool, gate := .accepting slot }
      | (.pending, _) => none
      | (_, pool) => some { a with pool, gate := .stopped }
  | _ => none

/-- A connection comes. -/
def accept? (a : Admission) (peer : String) : Option Admission :=
  match a.gate with
  | .accepting slot =>
      let id := a.accepted + 1
      -- The number is that of the connection; slots have numbers of their own.
      let slot := { slot with slot := slot.slot.attach id (some peer) }
      some { a with
        accepted := id
        tasks := a.tasks ++ [{ id, slot }]
        -- After a success the next failure is the first one again.
        delay := a.backoff.initial
        gate := .borrowing }
  | _ => none

/-- Accepting a connection fails. -/
def fail? (a : Admission) : Option Admission :=
  match a.gate with
  | .accepting slot =>
      some { a with
        -- The slot is not kept during the pause.
        pool := a.pool.release reset slot
        gate := .pausing a.delay
        delay := a.backoff.next a.delay }
  | _ => none

/-- The gate stops. What it had is given back. -/
def stop? (a : Admission) : Option Admission :=
  if !a.shutdown then none
  else match a.gate with
    | .stopped => none
    | .accepting slot => some { a with pool := a.pool.release reset slot, gate := .stopped }
    -- A borrower who leaves the queue gives back what was set aside for it.
    | .queued number => some { a with pool := a.pool.cancel number, gate := .stopped }
    | _ => some { a with gate := .stopped }

/-- The server after a step, if the step can be taken. Before it asks for anything the gate looks at
whether the server shuts down. -/
def step? (a : Admission) : Event → Option Admission
  | .borrow => if a.shutdown then none else a.borrow?
  | .accept peer => if a.shutdown then none else a.accept? peer
  | .fail => if a.shutdown then none else a.fail?
  | .resume =>
      match a.gate with
      | .pausing _ => if a.shutdown then none else some { a with gate := .borrowing }
      | _ => none
  | .count id =>
      (a.task? id .admitted).map fun _ =>
        { a.updateTask id fun t => { t with stage := .counted } with active := a.active + 1 }
  | .serve id slot =>
      (a.task? id .counted).map fun _ =>
        a.updateTask id fun t => { t with slot := { t.slot with slot } }
  | .uncount id =>
      (a.task? id .counted).map fun _ =>
        { a.updateTask id fun t => { t with stage := .served } with active := a.active - 1 }
  | .release id =>
      (a.task? id .served).map fun t =>
        { a with
          tasks := a.tasks.filter (·.id != id)
          pool := a.pool.release reset t.slot }
  | .shutdown => some { a with shutdown := true }
  | .stop => a.stop?
  | .close => if a.shutdown then some { a with pool := a.pool.close } else none

/-- The server after a course of steps, if they can be taken one after another. -/
def run? (a : Admission) : List Event → Option Admission
  | [] => some a
  | e :: rest => (a.step? e).bind fun a => a.run? rest

/-- Whether the server has returned. -/
def hasReturned (a : Admission) : Bool :=
  a.shutdown && a.pool.closed && a.gate == .stopped && a.tasks.isEmpty

/-- The states that a server can come to. -/
def Reachable (config : Config) (backoff : Backoff) (a : Admission) : Prop :=
  ∃ events, (start config backoff).run? events = some a

end Admission

end Depot.Server
