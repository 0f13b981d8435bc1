import Depot.Proofs.Queue.Receive

/-!
# Counting in parts

The count of a queue stands beside its items, and nobody gets hold of both at once. Whoever sends adds to
the count, offers the item then, and takes the addition back if the item is refused. Whoever receives takes
the item and takes one off the count then. In between others go on with parts of their own, so the count may
be ahead of the items. It is never behind them, and nobody who has to lower it finds it at zero.

## Key results

- `run?_of_send`, `run?_of_refused`, `run?_of_tryReceive`: whole calls are made of these parts
- `Balanced`: the count is what waits, and one for everybody who is in the middle of a call
- `balanced_step`, `balanced_run`: every part can be done, and it preserves that
-/

namespace Depot.Queue

variable {α : Type}

/-- The same queue with another count. -/
def recount (q : Queue α) (n : Nat) : Queue α := { q with count := n }

@[simp] theorem front_recount (q : Queue α) (n : Nat) : (q.recount n).front = q.front := rfl

@[simp] theorem back_recount (q : Queue α) (n : Nat) : (q.recount n).back = q.back := rfl

@[simp] theorem senders_recount (q : Queue α) (n : Nat) : (q.recount n).senders = q.senders := rfl

@[simp] theorem count_recount (q : Queue α) (n : Nat) : (q.recount n).count = n := rfl

@[simp] theorem receiver_recount (q : Queue α) (n : Nat) : (q.recount n).receiver = q.receiver := rfl

@[simp] theorem waiting_recount (q : Queue α) (n : Nat) : (q.recount n).waiting = q.waiting := rfl

@[simp] theorem isClosed_recount (q : Queue α) (n : Nat) : (q.recount n).isClosed = q.isClosed := rfl

@[simp] theorem recount_recount (q : Queue α) (m n : Nat) : (q.recount m).recount n = q.recount n := rfl

@[simp] theorem recount_count (q : Queue α) : q.recount q.count = q := rfl

/-- A part of a call. -/
inductive Part (α : Type)
  /-- Counts an item that is about to be offered. -/
  | raise
  | offer (a : α)
  | take
  /-- Takes one off the count. -/
  | lower
  | close
  | dropReceiver
  deriving DecidableEq, Repr

/-- A queue that several use at once, one part of a call after another. -/
structure InUse (α : Type) where
  queue : Queue α := {}
  /-- How many have counted an item and not offered it yet. -/
  raised : Nat := 0
  /-- How many have to take one off the count, for an item that was refused or taken. -/
  owed : Nat := 0
  deriving DecidableEq, Repr

namespace InUse

/-- Offers an item that was counted. A closed queue refuses it. -/
def offer (s : InUse α) (a : α) : InUse α :=
  if s.queue.isClosed then { s with raised := s.raised - 1, owed := s.owed + 1 }
  else { s with queue := { s.queue with back := a :: s.queue.back }, raised := s.raised - 1 }

/-- Takes the first item, if there is one. -/
def take (s : InUse α) : InUse α :=
  match s.queue.tryReceive with
  | none => s
  | some (_, q) => { s with queue := q.recount s.queue.count, owed := s.owed + 1 }

/-- What a part does. Nobody offers what was not counted, takes without being the receiver or lowers the
count for nothing. The count cannot be lowered below zero. -/
def step? (s : InUse α) : Part α → Option (InUse α)
  | .raise => some { s with queue := s.queue.recount (s.queue.count + 1), raised := s.raised + 1 }
  | .offer a => some (if s.raised = 0 then s else s.offer a)
  | .take => some (if s.queue.receiver = .gone then s else s.take)
  | .lower =>
      if s.owed = 0 then some s
      else if s.queue.count = 0 then none
      else some { s with queue := s.queue.recount (s.queue.count - 1), owed := s.owed - 1 }
  | .close => some { s with queue := s.queue.close }
  | .dropReceiver => some { s with queue := s.queue.dropReceiver }

/-- What parts do, one after another. -/
def run? (s : InUse α) (parts : List (Part α)) : Option (InUse α) := parts.foldlM step? s

/-! ### Whole calls -/

/-- To send is to raise the count and then to offer the item. -/
theorem run?_of_send {q q' : Queue α} {a : α} (h : q.send a = .ok q') :
    run? { queue := q } [.raise, .offer a] = some { queue := q' } := by
  unfold send at h
  split at h
  · cases h
  · next hopen =>
    cases h
    simp [run?, step?, offer, hopen]

/-- What was counted for an item that is refused is taken back. -/
theorem run?_of_refused {q : Queue α} {a b : α} (h : q.send a = .error b) :
    run? { queue := q } [.raise, .offer a, .lower] = some { queue := q } := by
  unfold send at h
  split at h
  · next hclosed => simp [run?, step?, offer, hclosed]
  · cases h

/-- To receive is to take the item and then to lower the count. -/
theorem run?_of_tryReceive {q q' : Queue α} {a : α} (h : q.tryReceive = some (a, q'))
    (hgone : q.receiver ≠ .gone) (hcount : q.count ≠ 0) :
    run? { queue := q } [.take, .lower] = some { queue := q' } := by
  simp [run?, step?, take, h, hgone, hcount, ← count_tryReceive h]

/-! ### The balance -/

/-- The count is what waits, and one for everybody who is in the middle of a call. Without a receiver
nothing waits, and the count may be above that. -/
structure Balanced (s : InUse α) : Prop where
  covered : s.raised + s.owed ≤ s.queue.count
  exact : s.queue.receiver ≠ .gone → s.queue.count = s.queue.waiting.length + s.raised + s.owed

variable {s : InUse α}

/-- A queue that counts what waits in it is balanced while nobody uses it. -/
theorem balanced_of_counted {q : Queue α} (h : q.Counted) : Balanced { queue := q } :=
  ⟨Nat.zero_le _, h⟩

theorem Balanced.raise (h : s.Balanced) :
    Balanced { s with queue := s.queue.recount (s.queue.count + 1), raised := s.raised + 1 } := by
  have hcovered := h.covered
  refine ⟨by simp only [count_recount]; omega, fun hgone => ?_⟩
  have hexact := h.exact hgone
  simp only [count_recount, waiting_recount]
  omega

/-- An item that is offered waits, or is refused and has to be uncounted. -/
theorem Balanced.offer (h : s.Balanced) (hraised : s.raised ≠ 0) (a : α) : (s.offer a).Balanced := by
  have hcovered := h.covered
  unfold InUse.offer
  split
  · -- A refused item is still counted, until its sender comes to lower the count.
    refine ⟨by simp only; omega, fun hgone => ?_⟩
    have hexact := h.exact hgone
    simp only
    omega
  · refine ⟨by simp only; omega, fun hgone => ?_⟩
    have hexact := h.exact hgone
    simp only [waiting, List.reverse_cons, List.length_append, List.length_singleton] at hexact ⊢
    omega

/-- An item that is taken has to be uncounted. -/
theorem Balanced.take (h : s.Balanced) (hgone : s.queue.receiver ≠ .gone) : s.take.Balanced := by
  have hexact := h.exact hgone
  unfold InUse.take
  split
  · exact h
  · next a q htry =>
    -- The item that is not there any more is still counted.
    have hwaiting := congrArg List.length (waiting_tryReceive htry)
    rw [List.length_cons] at hwaiting
    refine ⟨by simp only [count_recount]; omega, fun _ => ?_⟩
    simp only [count_recount, waiting_recount]
    omega

/-- Whoever has to lower the count is part of it. -/
theorem Balanced.lower (h : s.Balanced) (howed : s.owed ≠ 0) :
    s.queue.count ≠ 0 ∧
      Balanced { s with queue := s.queue.recount (s.queue.count - 1), owed := s.owed - 1 } := by
  have hcovered := h.covered
  refine ⟨by omega, by simp only [count_recount]; omega, fun hgone => ?_⟩
  have hexact := h.exact hgone
  simp only [count_recount, waiting_recount]
  omega

theorem Balanced.close (h : s.Balanced) : Balanced { s with queue := s.queue.close } := by
  obtain ⟨hcount, -, hreceiver⟩ := ends_close s.queue
  refine ⟨hcount ▸ h.covered, fun hgone => ?_⟩
  simp only [hcount, waiting_close]
  exact h.exact (mt hreceiver.mpr hgone)

/-- Every part can be done, and it preserves the balance. -/
theorem balanced_step (h : s.Balanced) (part : Part α) : ∃ s', s.step? part = some s' ∧ s'.Balanced := by
  -- One case for each part. Those that nobody is in the middle of come to nothing.
  cases part with
  | raise => exact ⟨_, rfl, h.raise⟩
  | offer a =>
    by_cases hraised : s.raised = 0
    · exact ⟨s, by simp only [step?, hraised, ↓reduceIte], h⟩
    · exact ⟨s.offer a, by simp only [step?, hraised, ↓reduceIte], h.offer hraised a⟩
  | take =>
    by_cases hgone : s.queue.receiver = .gone
    · exact ⟨s, by simp only [step?, hgone, ↓reduceIte], h⟩
    · exact ⟨s.take, by simp only [step?, hgone, ↓reduceIte], h.take hgone⟩
  | lower =>
    by_cases howed : s.owed = 0
    · exact ⟨s, by simp only [step?, howed, ↓reduceIte], h⟩
    · obtain ⟨hcount, hbalanced⟩ := h.lower howed
      exact ⟨_, by rw [step?, if_neg howed, if_neg hcount], hbalanced⟩
  | close => exact ⟨_, rfl, h.close⟩
  | dropReceiver => exact ⟨_, rfl, h.covered, fun hgone => absurd rfl hgone⟩

/-- Any number of parts can be done one after another, and the balance holds behind all of them. -/
theorem balanced_run (h : s.Balanced) (parts : List (Part α)) :
    ∃ s', s.run? parts = some s' ∧ s'.Balanced := by
  induction parts generalizing s with
  | nil => exact ⟨s, rfl, h⟩
  | cons part rest ih =>
    obtain ⟨s₁, hstep, h₁⟩ := balanced_step h part
    obtain ⟨s₂, hrun, h₂⟩ := ih h₁
    refine ⟨s₂, ?_, h₂⟩
    rw [run?, List.foldlM_cons, hstep]
    exact hrun

end InUse

end Depot.Queue
