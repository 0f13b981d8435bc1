import Depot.Queue

/-!
# The ends of a queue

A queue whose senders are told apart: they are numbered in the order in which they were made, and each
is held or dropped. What is asked of an end that does not exist is not done.
-/

namespace Depot.Queue

/-- A queue with its senders. -/
structure Ends (α : Type) where
  queue : Queue α := {}
  /-- For every sender that was ever made, whether it is held. -/
  held : List Bool := [true]
  deriving DecidableEq, Repr

namespace Ends

variable {α : Type}

/-- Whether a sender exists. -/
def hasSender (e : Ends α) (i : Nat) : Bool := e.held[i]?.getD false

/-- Whether the receiver exists. -/
def hasReceiver (e : Ends α) : Bool := e.queue.receiver != .gone

/-- Sends an item through a sender. A closed queue gives it back. -/
def send? (e : Ends α) (i : Nat) (a : α) : Option (Except α (Ends α)) :=
  if e.hasSender i then some ((e.queue.send a).map fun queue => { e with queue }) else none

/-- Makes another sender out of one. -/
def clone? (e : Ends α) (i : Nat) : Option (Ends α) :=
  if e.hasSender i then some { queue := e.queue.addSender, held := e.held ++ [true] } else none

/-- Drops a sender. -/
def drop? (e : Ends α) (i : Nat) : Option (Ends α) :=
  if e.hasSender i then some { queue := e.queue.dropSender, held := e.held.set i false } else none

/-- Takes the first item without waiting. -/
def tryReceive? (e : Ends α) : Option (Option α × Ends α) :=
  if e.hasReceiver then
    match e.queue.tryReceive with
    | none => some (none, e)
    | some (a, queue) => some (some a, { e with queue })
  else none

/-- Takes the first item, or says whether one may still come. -/
def receive? (e : Ends α) : Option (Received α × Ends α) :=
  if e.hasReceiver then
    let (received, queue) := e.queue.receive
    some (received, { e with queue })
  else none

/-- Refuses new items. -/
def close? (e : Ends α) : Option (Ends α) :=
  if e.hasReceiver then some { e with queue := e.queue.close } else none

/-- Drops the receiver. -/
def dropReceiver? (e : Ends α) : Option (Ends α) :=
  if e.hasReceiver then some { e with queue := e.queue.dropReceiver } else none

end Ends

end Depot.Queue
