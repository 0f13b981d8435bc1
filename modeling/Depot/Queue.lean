/-!
# Queues

An unbounded first-in first-out queue between any number of senders and one receiver. Both ends can
read how many items are waiting; the count is kept beside the items because the senders can still
read it when the receiver, and with it whatever was waiting, is gone.

The items are held in two lists, so that neither end has to walk over them. `waiting` is the view in
which they are one, and the lemmas below say what each operation does to it: `waiting_send`,
`waiting_tryReceive`, `tryReceive_eq_none_iff`, `waiting_drained`, `waiting_close`.

`Counted` says what the count is worth: as long as the receiver exists it is the number of waiting
items. Every operation keeps it.
-/

namespace Depot

/-- The receiving end of a queue. -/
inductive Receiver
  | listening
  /-- Takes what is waiting, and nothing new. -/
  | closed
  /-- Does not exist any more. -/
  | gone
  deriving DecidableEq, Repr

/-- A queue with its two ends. -/
structure Queue (α : Type) where
  /-- The items that are received next, in order. -/
  front : List α := []
  /-- The items that come after those, the last one first. -/
  back : List α := []
  /-- The number that both ends read. -/
  count : Nat := 0
  /-- The number of senders. -/
  senders : Nat := 1
  receiver : Receiver := .listening
  deriving DecidableEq, Repr

/-- The answer to a receiver who is ready to wait. -/
inductive Received (α : Type)
  | item (a : α)
  /-- Nothing is there, but something may come. -/
  | pending
  /-- Nothing is there, and nothing will come. -/
  | ended
  deriving DecidableEq, Repr

namespace Queue

variable {α : Type}

/-- The items that are sent and not received, in order. -/
def waiting (q : Queue α) : List α := q.front ++ q.back.reverse

/-- Whether senders are refused. -/
def isClosed (q : Queue α) : Bool := q.receiver != .listening

/-- Whether the count is zero. -/
def isEmpty (q : Queue α) : Bool := q.count == 0

/-- Adds an item at the end. A closed queue gives it back. -/
def send (q : Queue α) (a : α) : Except α (Queue α) :=
  if q.isClosed then .error a
  else .ok { q with back := a :: q.back, count := q.count + 1 }

/-- Adds an item at the end, or drops it if the queue is closed. -/
def push (q : Queue α) (a : α) : Queue α :=
  match q.send a with
  | .ok q' => q'
  | .error _ => q

/-- Takes the first item, if there is one. -/
def tryReceive (q : Queue α) : Option (α × Queue α) :=
  match q.front with
  | a :: rest => some (a, { q with front := rest, count := q.count - 1 })
  | [] =>
      match q.back.reverse with
      | a :: rest => some (a, { q with front := rest, back := [], count := q.count - 1 })
      | [] => none

/-- Takes all items. -/
def drained (q : Queue α) : Queue α :=
  -- The count is lowered by what is taken, it is not reset.
  { q with front := [], back := [], count := q.count - q.waiting.length }

/-- Takes the first item, or says whether one may still come. -/
def receive (q : Queue α) : Received α × Queue α :=
  match q.tryReceive with
  | some (a, q') => (.item a, q')
  | none => if q.isClosed || q.senders == 0 then (.ended, q) else (.pending, q)

/-- Refuses new items; those waiting can still be received. -/
def close (q : Queue α) : Queue α :=
  match q.receiver with
  | .listening => { q with receiver := .closed }
  | _ => q

/-- Ends the receiver. What is waiting is lost, and the senders go on to see the count it had. -/
def dropReceiver (q : Queue α) : Queue α := { q with front := [], back := [], receiver := .gone }

/-- Adds a sender. -/
def addSender (q : Queue α) : Queue α := { q with senders := q.senders + 1 }

/-- Ends a sender. -/
def dropSender (q : Queue α) : Queue α := { q with senders := q.senders - 1 }

/-- What is sent waits behind everything that waited before. -/
theorem waiting_send {q q' : Queue α} {a : α} (h : q.send a = .ok q') :
    q'.waiting = q.waiting ++ [a] := by
  unfold send at h
  split at h
  · cases h
  · cases h
    simp [waiting]

/-- Nothing can be taken just when nothing waits, in either of the two lists. -/
theorem tryReceive_eq_none_iff {q : Queue α} : q.tryReceive = none ↔ q.waiting = [] := by
  unfold tryReceive
  split
  · simp_all [waiting]
  · split <;> simp_all [waiting]

/-- What is taken is what waited longest, and the rest goes on waiting in its order. -/
theorem waiting_tryReceive {q q' : Queue α} {a : α} (h : q.tryReceive = some (a, q')) :
    q.waiting = a :: q'.waiting := by
  unfold tryReceive at h
  -- The front is served first. Only when it is empty is the back turned around to become the new front.
  split at h
  · rename_i hf
    cases h
    simp [waiting, hf]
  · rename_i hf
    split at h
    · rename_i hb
      cases h
      simp [waiting, hf, hb]
    · cases h

/-- A drained queue is empty. -/
@[simp] theorem waiting_drained (q : Queue α) : q.drained.waiting = [] := by simp [drained, waiting]

/-- With the receiver goes all that waited for it. -/
@[simp] theorem waiting_dropReceiver (q : Queue α) : q.dropReceiver.waiting = [] := by
  simp [dropReceiver, waiting]

/-- Closing refuses what comes, it does not take away what waits. -/
@[simp] theorem waiting_close (q : Queue α) : q.close.waiting = q.waiting := by
  unfold close
  split <;> rfl

/-- Whether the count tells the truth to the receiver. -/
def Counted (q : Queue α) : Prop := q.receiver ≠ .gone → q.count = q.waiting.length

/-- Sending keeps the count in step with what waits. -/
theorem counted_send {q q' : Queue α} {a : α} (h : q.Counted) (hs : q.send a = .ok q') :
    q'.Counted := by
  intro hr
  rw [waiting_send hs, List.length_append]
  unfold send at hs
  split at hs
  · cases hs
  · cases hs
    simp [h hr]

/-- So does taking, which only lowers the count of a queue that has something in it. -/
theorem counted_tryReceive {q q' : Queue α} {a : α} (h : q.Counted)
    (hr : q.tryReceive = some (a, q')) : q'.Counted := by
  have hw := waiting_tryReceive hr
  -- Whichever of the two lists it comes from, one is taken off the count and the receiver stays what it is.
  have hc : q'.count = q.count - 1 ∧ q'.receiver = q.receiver := by
    unfold tryReceive at hr
    split at hr
    · cases hr
      exact ⟨rfl, rfl⟩
    · split at hr <;> cases hr
      exact ⟨rfl, rfl⟩
  intro hg
  have := h (hc.2 ▸ hg)
  simp [hc.1, this, hw]

/-- Closing touches neither the count nor what waits. -/
theorem counted_close {q : Queue α} (h : q.Counted) : q.close.Counted := by
  intro hg
  rw [waiting_close]
  unfold close at hg ⊢
  -- A queue whose receiver is gone stays as it is, so there the count is the one from before.
  split
  · rename_i hr
    exact h (by simp [hr])
  · rename_i hr
    exact h (by simpa [hr] using hg)

/-- Without a receiver nobody reads the count, and nothing is said of it. -/
theorem counted_dropReceiver (q : Queue α) : q.dropReceiver.Counted := by
  intro h
  simp [dropReceiver] at h

end Queue

end Depot
