import Depot.Pool

/-!
# Permits

A pool has as many permits as it has room for items. Each is still to be granted, set aside for somebody
in the queue, spent on an item that is out, or `loose`: taken by an operation that has not finished. An
item is built only when none is free, so there are as many as were ever held at the same time, and as soon
as somebody had to wait there are as many as there is room for.

## Key results

- `sound_lend`: lending spends a loose permit, and it builds an item exactly when more are held than ever
- `sound_restore`: a loose permit goes to the first in the queue or back to the pool
- `sound_leave_granted`: whoever leaves the queue leaves its permit behind
-/

namespace Depot.Pool

variable {α : Type} {p p' : Pool α} {build : Nat → α} {item : α} {out loose number : Nat} {w : Waiter}

/-- The number of those in the queue for whom a permit is set aside. -/
def granted (p : Pool α) : Nat := p.waiters.countP (·.granted)

/-- Where the permits are and where the items are, with so many items out and so many permits loose. -/
structure Sound (p : Pool α) (out loose : Nat) : Prop where
  balance : p.permits + out + p.granted + loose = p.capacity
  stock : out + p.free.length = p.built
  held_le : out + p.granted ≤ p.built
  built_le : p.built ≤ p.capacity
  full : p.waiters ≠ [] → p.built = p.capacity
  numbers : (p.waiters.map Waiter.number).Nodup
  number_lt : ∀ w ∈ p.waiters, w.number < p.queued

theorem sound_new (capacity : Nat) : (new capacity : Pool α).Sound 0 0 where
  balance := rfl
  stock := rfl
  held_le := Nat.le_refl 0
  built_le := Nat.zero_le _
  full := fun h => absurd rfl h
  numbers := List.nodup_nil
  number_lt := fun w hw => by cases hw

/-- Closing does not touch anything else. -/
theorem sound_close (h : p.Sound out loose) : p.close.Sound out loose :=
  ⟨h.balance, h.stock, h.held_le, h.built_le, h.full, h.numbers, h.number_lt⟩

/-- A permit that can be granted is taken. -/
theorem sound_take (h : p.Sound out 0) (hpermits : p.permits ≠ 0) :
    ({ p with permits := p.permits - 1 } : Pool α).Sound out 1 := by
  have hbalance := h.balance
  refine ⟨?_, h.stock, h.held_le, h.built_le, h.full, h.numbers, h.number_lt⟩
  show p.permits - 1 + out + p.granted + 1 = p.capacity
  omega

/-- The item that is lent is the first that is free, or a new one if there is none. -/
theorem lend_cases (hlend : p.lend build = (item, p')) :
    (∃ rest, p.free = item :: rest ∧ p' = { p with free := rest }) ∨
      (p.free = [] ∧ item = build p.built ∧ p' = { p with built := p.built + 1 }) := by
  unfold lend at hlend
  split at hlend
  · next rest hfree =>
    cases hlend
    exact .inl ⟨rest, hfree, rfl⟩
  · next hfree =>
    cases hlend
    exact .inr ⟨hfree, rfl, rfl⟩

/-- Lending spends a loose permit. The items that were built are as many as before, or as many as are
held now if these are more. -/
theorem sound_lend (h : p.Sound out 1) (hlend : p.lend build = (item, p')) :
    p'.Sound (out + 1) 0 ∧ p'.built = max p.built (out + 1 + p'.granted) := by
  have hbalance := h.balance
  have hstock := h.stock
  have hheld := h.held_le
  rcases lend_cases hlend with ⟨rest, hfree, rfl⟩ | ⟨hfree, -, rfl⟩
  · rw [hfree, List.length_cons] at hstock
    -- There is an item for each permit that is set aside, and one more.
    have hroom : out + p.granted + 1 ≤ p.built := by
      by_cases hwaiters : p.waiters = []
      · have hnone : p.granted = 0 := by rw [granted, hwaiters]; rfl
        omega
      · have hfull := h.full hwaiters
        omega
    refine ⟨⟨?_, ?_, ?_, h.built_le, h.full, h.numbers, h.number_lt⟩, ?_⟩
    · show p.permits + (out + 1) + p.granted + 0 = p.capacity
      omega
    · show out + 1 + rest.length = p.built
      omega
    · show out + 1 + p.granted ≤ p.built
      omega
    · show p.built = max p.built (out + 1 + p.granted)
      omega
  · rw [hfree, List.length_nil] at hstock
    -- All items are out, so nothing is set aside and nobody ever had to wait.
    have hwaiters : p.waiters = [] := by
      by_cases hwaiters : p.waiters = []
      · exact hwaiters
      · have hfull := h.full hwaiters
        omega
    refine ⟨⟨?_, ?_, ?_, ?_, fun hne => absurd hwaiters hne, h.numbers, h.number_lt⟩, ?_⟩
    · show p.permits + (out + 1) + p.granted + 0 = p.capacity
      omega
    · show out + 1 + p.free.length = p.built + 1
      rw [hfree, List.length_nil]
      omega
    · show out + 1 + p.granted ≤ p.built + 1
      omega
    · show p.built + 1 ≤ p.capacity
      omega
    · show p.built + 1 = max p.built (out + 1 + p.granted)
      omega

/-- An item comes back, and its permit is loose. -/
theorem sound_store (h : p.Sound (out + 1) 0) (item : α) :
    ({ p with free := item :: p.free } : Pool α).Sound out 1 := by
  have hbalance := h.balance
  have hstock := h.stock
  have hheld := h.held_le
  refine ⟨?_, ?_, ?_, h.built_le, h.full, h.numbers, h.number_lt⟩
  · show p.permits + out + p.granted + 1 = p.capacity
    omega
  · show out + (p.free.length + 1) = p.built
    omega
  · show out + p.granted ≤ p.built
    omega

/-! ### The queue -/

/-- Granting a permit to somebody in the queue leaves everybody in place. -/
theorem grantFirst_eq_some {waiters waiters' : List Waiter} (h : grantFirst waiters = some waiters') :
    waiters'.map Waiter.number = waiters.map Waiter.number ∧
      waiters'.countP (·.granted) = waiters.countP (·.granted) + 1 := by
  -- Past those who have one already.
  induction waiters generalizing waiters' with
  | nil => cases h
  | cons w rest ih =>
    unfold grantFirst at h
    split at h
    · next hgranted =>
      obtain ⟨rest', hrest, rfl⟩ := Option.map_eq_some_iff.mp h
      obtain ⟨hnumbers, hcount⟩ := ih hrest
      simp only [List.map_cons, hnumbers, List.countP_cons, hgranted, hcount, ↓reduceIte,
        and_self]
    · next hgranted =>
      cases h
      simp only [List.map_cons, List.countP_cons, hgranted]
      simp

/-- A permit that finds its place moves between the pool and the queue, and all else stays. -/
theorem restore_eq (p : Pool α) :
    ∃ permits waiters, p.restore = { p with permits, waiters } := by
  unfold restore
  split
  · exact ⟨_, _, rfl⟩
  · exact ⟨_, _, rfl⟩

/-- An item that comes back is reset and free, and its permit finds its place. -/
theorem release_eq (p : Pool α) (reset : α → α) (item : α) :
    ∃ permits waiters, p.release reset item =
      { p with permits, waiters, free := reset item :: p.free } :=
  restore_eq { p with free := reset item :: p.free }

/-- A loose permit goes to the first in the queue that has none, or back to the pool. -/
theorem sound_restore (h : p.Sound out 1) : p.restore.Sound out 0 := by
  have hbalance := h.balance
  unfold restore
  split
  · next waiters hgrant =>
    -- Nothing is set aside any more once the pool is closed.
    have hsome : grantFirst p.waiters = some waiters := by
      split at hgrant
      · cases hgrant
      · exact hgrant
    obtain ⟨hnumbers, hcount⟩ := grantFirst_eq_some hsome
    have hwaiters : p.waiters ≠ [] := by
      intro hnil
      rw [hnil] at hsome
      cases hsome
    have hfull := h.full hwaiters
    refine ⟨?_, h.stock, ?_, h.built_le, fun _ => hfull, ?_, ?_⟩
    · show p.permits + out + waiters.countP (·.granted) + 0 = p.capacity
      rw [hcount]
      show p.permits + out + (p.granted + 1) + 0 = p.capacity
      omega
    · show out + waiters.countP (·.granted) ≤ p.built
      rw [hcount]
      show out + (p.granted + 1) ≤ p.built
      omega
    · show (waiters.map Waiter.number).Nodup
      rw [hnumbers]
      exact h.numbers
    · intro w hw
      have hmem : w.number ∈ p.waiters.map Waiter.number := hnumbers ▸ List.mem_map_of_mem hw
      obtain ⟨v, hv, hnumber⟩ := List.mem_map.mp hmem
      rw [← hnumber]
      exact h.number_lt v hv
  · refine ⟨?_, h.stock, h.held_le, h.built_le, h.full, h.numbers, h.number_lt⟩
    show p.permits + 1 + out + p.granted + 0 = p.capacity
    omega

/-- The pool with one more in the queue. -/
abbrev joined (p : Pool α) : Pool α :=
  { p with waiters := p.waiters ++ [{ number := p.queued }], queued := p.queued + 1 }

theorem granted_joined (p : Pool α) : p.joined.granted = p.granted := by
  show (p.waiters ++ [_]).countP _ = _
  rw [List.countP_append]
  rfl

/-- Only where no permit is left somebody joins the queue, and then the pool is as full as it can be. -/
theorem sound_joined (h : p.Sound out 0) (hpermits : p.permits = 0) : p.joined.Sound out 0 := by
  have hbalance := h.balance
  have hheld := h.held_le
  have hbuilt := h.built_le
  have hgranted := granted_joined p
  refine ⟨?_, h.stock, ?_, h.built_le, fun _ => ?_, ?_, ?_⟩
  · show p.permits + out + p.joined.granted + 0 = p.capacity
    omega
  · show out + p.joined.granted ≤ p.built
    omega
  · show p.built = p.capacity
    omega
  · -- Numbers are given out in order.
    rw [List.map_append, List.map_singleton, List.nodup_append]
    refine ⟨h.numbers, by simp, ?_⟩
    intro a ha b hb
    obtain ⟨v, hv, rfl⟩ := List.mem_map.mp ha
    rw [List.mem_singleton.mp hb]
    exact Nat.ne_of_lt (h.number_lt v hv)
  · intro w hw
    show w.number < p.queued + 1
    rcases List.mem_append.mp hw with hw | hw
    · have hlt := h.number_lt w hw
      omega
    · rw [List.mem_singleton.mp hw]
      exact Nat.lt_succ_self _

/-- The one with a number is one of the queue, and nobody else has the number. -/
theorem perm_of_find? {waiters : List Waiter} (hnodup : (waiters.map Waiter.number).Nodup)
    (h : waiters.find? (·.number == number) = some w) :
    waiters.Perm (w :: waiters.filter (·.number != number)) := by
  induction waiters with
  | nil => cases h
  | cons v rest ih =>
    rw [List.map_cons, List.nodup_cons] at hnodup
    by_cases hv : v.number = number
    · rw [List.find?_cons_of_pos (by simpa using hv)] at h
      cases h
      -- Those behind it have other numbers and stay.
      have hothers : ∀ u ∈ rest, (u.number != number) = true := by
        intro u hu
        rw [bne_iff_ne]
        intro hsame
        exact hnodup.1 (hv ▸ hsame ▸ List.mem_map_of_mem hu)
      rw [List.filter_cons_of_neg (by simp [hv]), List.filter_eq_self.mpr hothers]
    · rw [List.find?_cons_of_neg (by simpa using hv)] at h
      rw [List.filter_cons_of_pos (by simpa using hv)]
      exact ((ih hnodup.2 h).cons v).trans (List.Perm.swap w v _)

/-- The pool without the one in the queue that has a number. -/
abbrev leave (p : Pool α) (number : Nat) : Pool α :=
  { p with waiters := p.waiters.filter (·.number != number) }

/-- Whoever leaves the queue leaves its permit behind, if one was set aside for it. -/
theorem sound_leave (h : p.Sound out 0) (hfind : p.waiters.find? (·.number == number) = some w) :
    (p.leave number).Sound out (if w.granted then 1 else 0) := by
  have hbalance := h.balance
  have hheld := h.held_le
  have hcount : p.granted = (p.leave number).granted + if w.granted then 1 else 0 := by
    show p.waiters.countP (·.granted) = _
    rw [(perm_of_find? h.numbers hfind).countP_eq, List.countP_cons]
    rfl
  have hsub : (p.leave number).waiters.Sublist p.waiters := List.filter_sublist
  refine ⟨?_, h.stock, ?_, h.built_le, fun hne => h.full ?_, (hsub.map _).nodup h.numbers,
    fun v hv => h.number_lt v (hsub.subset hv)⟩
  · show p.permits + out + (p.leave number).granted + (if w.granted then 1 else 0) = p.capacity
    omega
  · show out + (p.leave number).granted ≤ p.built
    omega
  · intro hnil
    rw [hnil, List.sublist_nil] at hsub
    exact hne hsub

/-! ### Borrowing -/

theorem tryAcquire_of_closed (h : p.closed = true) : p.tryAcquire build = (.error .closed, p) :=
  if_pos h

theorem tryAcquire_of_exhausted (hopen : p.closed = false) (h : p.permits = 0) :
    p.tryAcquire build = (.error .exhausted, p) := by
  rw [tryAcquire, if_neg (by simp [hopen]), if_pos h]

/-- A pool with a permit lends an item against it. -/
theorem tryAcquire_of_permit (hopen : p.closed = false) (h : p.permits ≠ 0) :
    p.tryAcquire build =
      (.ok (({ p with permits := p.permits - 1 } : Pool α).lend build).1,
        (({ p with permits := p.permits - 1 } : Pool α).lend build).2) := by
  rw [tryAcquire, if_neg (by simp [hopen]), if_neg h]

/-- The answer to somebody in the queue. -/
theorem ask_of_find? (build : Nat → α) (hfind : p.waiters.find? (·.number == number) = some w) :
    p.ask build number =
      if p.closed then
        (.failed .closed, if w.granted then (p.leave number).restore else p.leave number)
      else if w.granted then
        (.item ((p.leave number).lend build).1, ((p.leave number).lend build).2)
      else (.pending, p) := by
  rw [ask, hfind]

theorem cancel_of_find? (hfind : p.waiters.find? (·.number == number) = some w) :
    p.cancel number = if w.granted then (p.leave number).restore else p.leave number := by
  rw [cancel, hfind]

end Depot.Pool
