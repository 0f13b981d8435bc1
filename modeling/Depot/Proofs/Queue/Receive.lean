import Depot.Queue

/-!
# Pushing and receiving

What `push` and `receive` do to the items that are waiting, and what they leave alone: the receiver and
the senders. A queue that listens takes every item that is pushed; one that has an item gives it out,
whoever is still there to send.

## Key results

- `waiting_push`, `waiting_foldl_push`: what is pushed waits behind the rest
- `receive_item`, `exists_receive`: what is received was waiting in front
-/

namespace Depot.Queue

variable {α : Type}

theorem push_of_listening {q : Queue α} (a : α) (h : q.receiver = .listening) :
    q.push a = { q with back := a :: q.back, count := q.count + 1 } := by
  simp [push, send, isClosed, h]

theorem push_of_closed {q : Queue α} (a : α) (h : q.isClosed = true) : q.push a = q := by
  simp only [push, send, h, ↓reduceIte]

/-- Pushing leaves both ends of a queue as they are. -/
theorem ends_push (q : Queue α) (a : α) :
    (q.push a).receiver = q.receiver ∧ (q.push a).senders = q.senders := by
  simp only [push, send]
  split
  · next h =>
    split at h
    · cases h
    · cases h; exact ⟨rfl, rfl⟩
  · exact ⟨rfl, rfl⟩

/-- An item for somebody who listens waits behind the others. -/
theorem waiting_push {q : Queue α} (a : α) (h : q.receiver = .listening) :
    (q.push a).waiting = q.waiting ++ [a] := by
  rw [push_of_listening a h]
  simp only [waiting, List.reverse_cons, List.append_assoc]

/-- Whatever waits behind a push was there or was pushed. -/
theorem mem_waiting_push {q : Queue α} {a b : α} (h : b ∈ (q.push a).waiting) :
    b ∈ q.waiting ∨ b = a := by
  by_cases hlistening : q.receiver = .listening
  · rw [waiting_push a hlistening, List.mem_append, List.mem_singleton] at h
    exact h
  · -- A closed queue gives it back.
    simp only [push, send, isClosed, bne_iff_ne.mpr hlistening, ↓reduceIte] at h
    exact .inl h

/-- A push leaves in front what was waiting before. -/
theorem waiting_prefix_push (q : Queue α) (a : α) : q.waiting <+: (q.push a).waiting := by
  by_cases hlistening : q.receiver = .listening
  · exact ⟨[a], (waiting_push a hlistening).symm⟩
  · exact ⟨[], by rw [List.append_nil, push_of_closed a (bne_iff_ne.mpr hlistening)]⟩

/-- A push keeps the count in step with what waits. -/
theorem counted_push {q : Queue α} (a : α) (h : q.Counted) : (q.push a).Counted := by
  unfold push
  split
  · next hsent => exact counted_send h hsent
  · exact h

/-- Items do nothing to the ends of a queue. -/
theorem ends_foldl_push (q : Queue α) (items : List α) :
    (items.foldl push q).receiver = q.receiver ∧ (items.foldl push q).senders = q.senders := by
  induction items generalizing q with
  | nil => exact ⟨rfl, rfl⟩
  | cons a items ih =>
    obtain ⟨hreceiver, hsenders⟩ := ends_push q a
    rw [List.foldl_cons, (ih _).1, (ih _).2]
    exact ⟨hreceiver, hsenders⟩

/-- Items that are pushed one after another wait in that order. -/
theorem waiting_foldl_push {q : Queue α} (items : List α) (h : q.receiver = .listening) :
    (items.foldl push q).waiting = q.waiting ++ items := by
  induction items generalizing q with
  | nil => rw [List.foldl_nil, List.append_nil]
  | cons a items ih =>
    rw [List.foldl_cons, ih (by rw [(ends_push q a).1, h]), waiting_push a h, List.append_assoc,
      List.singleton_append]

/-- So does any number of pushes. -/
theorem counted_foldl_push {q : Queue α} (items : List α) (h : q.Counted) :
    (items.foldl push q).Counted := by
  induction items generalizing q with
  | nil => exact h
  | cons a items ih => exact ih (counted_push a h)

/-- As long as there is a receiver, a queue without a count has nothing that waits. -/
theorem isEmpty_iff {q : Queue α} (h : q.Counted) (hlistening : q.receiver = .listening) :
    q.isEmpty = true ↔ q.waiting = [] := by
  have hcount : q.count = q.waiting.length := h (by simp [hlistening])
  simp [isEmpty, hcount]

/-- Whatever waits was there before or is one of them. -/
theorem mem_waiting_foldl_push {q : Queue α} {items : List α} {b : α}
    (h : b ∈ (items.foldl push q).waiting) : b ∈ q.waiting ∨ b ∈ items := by
  induction items generalizing q with
  | nil => exact .inl h
  | cons a items ih =>
    rcases ih h with h | h
    · rcases mem_waiting_push h with h | rfl
      · exact .inl h
      · exact .inr List.mem_cons_self
    · exact .inr (List.mem_cons_of_mem a h)

/-- Only a queue that listens takes an item, and its ends stay as they are. -/
theorem ends_send {q q' : Queue α} {a : α} (h : q.send a = .ok q') :
    q.isClosed = false ∧ q'.receiver = q.receiver ∧ q'.senders = q.senders := by
  unfold send at h
  split at h
  · cases h
  · next hopen =>
    cases h
    exact ⟨Bool.not_eq_true _ ▸ hopen, rfl, rfl⟩

/-- To receive does nothing to the ends. -/
theorem ends_tryReceive {q q' : Queue α} {a : α} (h : q.tryReceive = some (a, q')) :
    q'.receiver = q.receiver ∧ q'.senders = q.senders := by
  unfold tryReceive at h
  split at h
  · cases h; exact ⟨rfl, rfl⟩
  · split at h
    · cases h; exact ⟨rfl, rfl⟩
    · cases h

theorem count_tryReceive {q q' : Queue α} {a : α} (h : q.tryReceive = some (a, q')) :
    q'.count = q.count - 1 := by
  unfold tryReceive at h
  split at h
  · cases h; rfl
  · split at h
    · cases h; rfl
    · cases h

theorem isClosed_close (q : Queue α) : q.close.isClosed = true := by
  cases hreceiver : q.receiver <;> simp [close, isClosed, hreceiver]

/-- Closing leaves the count and the senders, and whether there is a receiver. -/
theorem ends_close (q : Queue α) :
    q.close.count = q.count ∧ q.close.senders = q.senders ∧
      (q.close.receiver = .gone ↔ q.receiver = .gone) := by
  cases hreceiver : q.receiver <;> simp [close, hreceiver]

/-- What is received was the first to wait. -/
theorem receive_item {q q' : Queue α} {a : α} (h : q.receive = (.item a, q')) :
    q.waiting = a :: q'.waiting ∧ q'.receiver = q.receiver ∧ q'.senders = q.senders := by
  unfold receive at h
  split at h
  · next htry =>
    cases h
    exact ⟨waiting_tryReceive htry, ends_tryReceive htry⟩
  · split at h <;> cases h

/-- Whatever waits can be received. -/
theorem exists_receive {q : Queue α} {a : α} {rest : List α} (h : q.waiting = a :: rest) :
    ∃ q', q.receive = (.item a, q') ∧ q'.waiting = rest := by
  cases htry : q.tryReceive with
  | none => rw [tryReceive_eq_none_iff.mp htry] at h; cases h
  | some taken =>
    -- Whatever was taken, it was the first to wait.
    obtain ⟨b, q'⟩ := taken
    have hwaiting := waiting_tryReceive htry
    rw [h] at hwaiting
    cases hwaiting
    exact ⟨q', by simp only [receive, htry], rfl⟩

/-- Only an empty queue has its receiver wait. -/
theorem receive_pending {q q' : Queue α} (h : q.receive = (.pending, q')) : q.waiting = [] := by
  unfold receive at h
  split at h
  · cases h
  · next htry => exact tryReceive_eq_none_iff.mp htry

/-- The end of a queue leaves it as it is. The queue of somebody who listens ends when nobody is left to
send, and not before it is empty. -/
theorem receive_ended {q q' : Queue α} (h : q.receive = (.ended, q')) :
    q.waiting = [] ∧ q' = q ∧ (q.receiver = .listening → q.senders = 0) := by
  unfold receive at h
  split at h
  · cases h
  · next htry =>
    split at h
    · next hend =>
      cases h
      refine ⟨tryReceive_eq_none_iff.mp htry, rfl, fun hlistening => ?_⟩
      simpa [isClosed, hlistening] using hend
    · cases h

end Depot.Queue
