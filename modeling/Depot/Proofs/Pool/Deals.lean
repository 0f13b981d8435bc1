import Depot.Pool.Loans
import Depot.Proofs.Pool.Permits

/-!
# Dealing with a pool

Any number of borrowers take items from a pool, wait for them, change them and give them back, in any
order, and at some time the pool may be closed. `Deal` says all that one event can come to, and what a run
keeps follows from it: the permits add up, as many items are built as are held at most, a closed pool
lends nothing, and a loan that is over stays over.

## Key results

- `deal_after`: what an event comes to
- `sound_deal`: what it does to the permits and to the number of items
- `built_run`: the items that were built are as many as were ever held at the same time
-/

namespace Depot

/-- What somebody does with a pool. -/
inductive Loans.Event (α : Type)
  | tryBorrow
  | borrow
  /-- The borrower with a number in the queue asks again. -/
  | ask (number : Nat)
  /-- The borrower with a number leaves the queue. -/
  | cancel (number : Nat)
  /-- The item of a loan is changed by who has it. -/
  | change (loan : Nat) (f : α → α)
  | giveBack (loan : Nat)
  | close

namespace Loans

variable {α : Type}

/-- A pool of which nothing is out. -/
def opening (capacity : Nat) : Loans α := { pool := .new capacity }

/-- The answer to an event, if it asks for an item. -/
def answer? (build : Nat → α) (l : Loans α) : Event α → Option (LoanAnswer α)
  | .tryBorrow => some (l.tryBorrow build).1
  | .borrow => some (l.borrow build).1
  | .ask number => some (l.ask build number).1
  | _ => none

/-- The pool with its loans after an event. What is asked of a loan that is not out is not done. -/
def after (build : Nat → α) (reset : α → α) (l : Loans α) : Event α → Loans α
  | .tryBorrow => (l.tryBorrow build).2
  | .borrow => (l.borrow build).2
  | .ask number => (l.ask build number).2
  | .cancel number => l.cancel number
  | .change loan f => (l.change? loan f).getD l
  | .giveBack loan => (l.giveBack? reset loan).getD l
  | .close => l.close

/-- The pool with its loans after one event after another. -/
def run (build : Nat → α) (reset : α → α) (l : Loans α) (events : List (Event α)) : Loans α :=
  events.foldl (after build reset) l

/-- The items that are out. -/
def outstanding (l : Loans α) : List α := l.lent.filterMap id

/-- The number of items that are held: out, or set aside for somebody in the queue. -/
def held (l : Loans α) : Nat := l.outstanding.length + l.pool.granted

/-- The largest number of items that are held at the same time in the course of events. -/
def peak (build : Nat → α) (reset : α → α) (l : Loans α) : List (Event α) → Nat
  | [] => l.held
  | e :: rest => max l.held ((l.after build reset e).peak build reset rest)

/-! ### What an event comes to -/

/-- A permit is taken from where it is: it could be granted, or it was set aside for somebody who leaves
the queue. -/
inductive Loosened (p : Pool α) : Pool α → Prop
  | take (h : p.permits ≠ 0) : Loosened p { p with permits := p.permits - 1 }
  | leave {number : Nat} {w : Waiter} (hfind : p.waiters.find? (·.number == number) = some w)
      (hgranted : w.granted = true) : Loosened p (p.leave number)

/-- What an event may come to, with the answer to it. -/
inductive Deal (build : Nat → α) (reset : α → α) (l : Loans α) :
    Event α → Option (LoanAnswer α) → Loans α → Prop
  | nothing {e : Event α} {answer : Option (LoanAnswer α)}
      (h : ∀ loan item, answer ≠ some (.lent loan item)) : Deal build reset l e answer l
  | lends {e : Event α} {p p' : Pool α} {item : α} (hopen : l.pool.closed = false)
      (hloose : Loosened l.pool p) (hlend : p.lend build = (item, p')) :
      Deal build reset l e (some (.lent l.lent.length item))
        { pool := p', lent := l.lent ++ [some item] }
  | joins {e : Event α} (hpermits : l.pool.permits = 0) :
      Deal build reset l e (some (.queued l.pool.queued)) { l with pool := l.pool.joined }
  | leaves {e : Event α} {answer : Option (LoanAnswer α)} {number : Nat} {w : Waiter}
      (h : ∀ loan item, answer ≠ some (.lent loan item))
      (hfind : l.pool.waiters.find? (·.number == number) = some w) (hwaits : w.granted = false) :
      Deal build reset l e answer { l with pool := l.pool.leave number }
  | restores {e : Event α} {answer : Option (LoanAnswer α)} {p : Pool α}
      (h : ∀ loan item, answer ≠ some (.lent loan item)) (hloose : Loosened l.pool p) :
      Deal build reset l e answer { l with pool := p.restore }
  | changes {loan : Nat} {f : α → α} {item : α} (hitem : l.item? loan = some item) :
      Deal build reset l (.change loan f) none { l with lent := l.lent.set loan (some (f item)) }
  | returns {loan : Nat} {item : α} (hitem : l.item? loan = some item) :
      Deal build reset l (.giveBack loan) none
        { pool := l.pool.release reset item, lent := l.lent.set loan none }
  | closes : Deal build reset l .close none l.close

section

variable {build : Nat → α} {reset : α → α} {l l' : Loans α} {e : Event α}
  {answer : Option (LoanAnswer α)}

/-- A loan has an item as long as it is not blank. -/
theorem item?_eq_some {loan : Nat} {item : α} :
    l.item? loan = some item ↔ l.lent[loan]? = some (some item) := by
  rw [item?, Option.join_eq_some_iff]

/-- A borrower who does not wait is lent an item, or nothing happens. -/
private theorem deal_tryBorrow : Deal build reset l e (some (l.tryBorrow build).1) (l.tryBorrow build).2 := by
  unfold tryBorrow
  cases hclosed : l.pool.closed with
  | true =>
    rw [Pool.tryAcquire_of_closed hclosed]
    exact .nothing (by simp)
  | false =>
    by_cases hpermits : l.pool.permits = 0
    · rw [Pool.tryAcquire_of_exhausted hclosed hpermits]
      exact .nothing (by simp)
    · rw [Pool.tryAcquire_of_permit hclosed hpermits]
      exact .lends hclosed (.take hpermits) rfl

/-- A borrower who is ready to wait is lent an item or joins the queue, unless the pool is closed. -/
private theorem deal_borrow : Deal build reset l e (some (l.borrow build).1) (l.borrow build).2 := by
  unfold borrow Pool.acquire
  cases hclosed : l.pool.closed with
  | true =>
    rw [Pool.tryAcquire_of_closed hclosed]
    exact .nothing (by simp)
  | false =>
    by_cases hpermits : l.pool.permits = 0
    · rw [Pool.tryAcquire_of_exhausted hclosed hpermits]
      exact .joins hpermits
    · rw [Pool.tryAcquire_of_permit hclosed hpermits]
      exact .lends hclosed (.take hpermits) rfl

/-- Who asks again is lent what was set aside for them, or leaves a closed pool, or goes on waiting. -/
private theorem deal_ask (number : Nat) :
    Deal build reset l e (some (l.ask build number).1) (l.ask build number).2 := by
  unfold ask
  cases hfind : l.pool.waiters.find? (·.number == number) with
  | none =>
    rw [Pool.ask, hfind]
    exact .nothing (by simp)
  | some w =>
    rw [Pool.ask_of_find? build hfind]
    cases hclosed : l.pool.closed with
    | true =>
      cases hgranted : w.granted with
      | true => exact .restores (by simp) (.leave hfind hgranted)
      | false => exact .leaves (by simp) hfind hgranted
    | false =>
      cases hgranted : w.granted with
      | true => exact .lends hclosed (.leave hfind hgranted) rfl
      | false => exact .nothing (by simp)

/-- Who leaves gives back what was set aside for them. -/
private theorem deal_cancel (number : Nat) : Deal build reset l e none (l.cancel number) := by
  unfold cancel
  cases hfind : l.pool.waiters.find? (·.number == number) with
  | none =>
    rw [Pool.cancel, hfind]
    exact .nothing (by simp)
  | some w =>
    rw [Pool.cancel_of_find? hfind]
    cases hgranted : w.granted with
    | true => exact .restores (by simp) (.leave hfind hgranted)
    | false => exact .leaves (by simp) hfind hgranted

/-- What an event comes to. -/
theorem deal_after (build : Nat → α) (reset : α → α) (l : Loans α) (e : Event α) :
    Deal build reset l e (l.answer? build e) (l.after build reset e) := by
  -- One case for each event. A loan that is not out can neither be changed nor given back.
  cases e with
  | tryBorrow => exact deal_tryBorrow
  | borrow => exact deal_borrow
  | ask number => exact deal_ask number
  | cancel number => exact deal_cancel number
  | change loan f =>
    simp only [answer?, after, change?]
    cases hitem : l.item? loan with
    | none => exact .nothing (by simp)
    | some item => exact .changes hitem
  | giveBack loan =>
    simp only [answer?, after, giveBack?]
    cases hitem : l.item? loan with
    | none => exact .nothing (by simp)
    | some item => exact .returns hitem
  | close => exact .closes

/-! ### Permits -/

/-- The items that are out and those that the pool knows of. -/
def Sound (l : Loans α) : Prop := l.pool.Sound l.outstanding.length 0

theorem sound_opening (capacity : Nat) : (opening capacity : Loans α).Sound := Pool.sound_new capacity

/-- A permit that was taken belongs to somebody who is neither a borrower nor in the queue. -/
theorem sound_loosened {p q : Pool α} {out : Nat} (h : p.Sound out 0) (hloose : Loosened p q) :
    q.Sound out 1 := by
  cases hloose with
  | take hpermits => exact Pool.sound_take h hpermits
  | leave hfind hgranted =>
    have hleave := Pool.sound_leave h hfind
    rwa [if_pos hgranted] at hleave

/-- A permit is taken from the pool or from the queue, and all else stays. -/
theorem Loosened.exists_eq {p q : Pool α} (h : Loosened p q) :
    ∃ permits waiters, q = { p with permits, waiters } := by
  cases h with
  | take _ => exact ⟨_, _, rfl⟩
  | leave _ _ => exact ⟨_, _, rfl⟩

/-- The item of a loan is one of those that are out, and the others stay when it is changed or comes
back. -/
theorem perm_outstanding {loan : Nat} {item : α} (hitem : l.item? loan = some item) :
    ∃ others, l.outstanding.Perm (item :: others) ∧
      ∀ next : Option α, ((l.lent.set loan next).filterMap id).Perm (next.toList ++ others) := by
  obtain ⟨hlt, hget⟩ := List.getElem?_eq_some_iff.mp (item?_eq_some.mp hitem)
  have hlent : l.lent = l.lent.take loan ++ some item :: l.lent.drop (loan + 1) := by
    rw [← hget, ← List.drop_eq_getElem_cons hlt, List.take_append_drop]
  -- The loans before it and those behind it are the others.
  refine ⟨(l.lent.take loan).filterMap id ++ (l.lent.drop (loan + 1)).filterMap id, ?_, fun next => ?_⟩
  · rw [outstanding]
    conv => lhs; rw [hlent, List.filterMap_append]
    exact List.perm_middle
  · rw [List.set_eq_take_append_cons_drop, if_pos hlt, List.filterMap_append]
    cases next with
    | none => exact List.Perm.refl _
    | some a => exact List.perm_middle

/-- A new loan is one more item that is out. -/
theorem filterMap_lend (lent : List (Option α)) (item : α) :
    (lent ++ [some item]).filterMap id = lent.filterMap id ++ [item] := by
  rw [List.filterMap_append]
  rfl

/-- Every event keeps the permits in order, and as many items are built as are held at most. -/
theorem sound_deal (h : l.Sound) (hdeal : Deal build reset l e answer l') :
    l'.Sound ∧ l'.pool.built = max l.pool.built l'.held := by
  have hheld := h.held_le
  -- A permit is loose between the place where it was and the place to which it goes, and nothing else moves.
  cases hdeal with
  | nothing _ => exact ⟨h, (Nat.max_eq_left hheld).symm⟩
  | lends _ hloose hlend =>
    have hsound := Pool.sound_lend (sound_loosened h hloose) hlend
    obtain ⟨permits, waiters, rfl⟩ := hloose.exists_eq
    rw [Sound, held, outstanding, filterMap_lend, List.length_append, List.length_singleton]
    exact hsound
  | joins hpermits =>
    have hsound := Pool.sound_joined h hpermits
    exact ⟨hsound, (Nat.max_eq_left hsound.held_le).symm⟩
  | leaves _ hfind hwaits =>
    have hsound := Pool.sound_leave h hfind
    rw [if_neg (by simp [hwaits])] at hsound
    exact ⟨hsound, (Nat.max_eq_left hsound.held_le).symm⟩
  | @restores _ _ p _ hloose =>
    have hsound := Pool.sound_restore (sound_loosened h hloose)
    refine ⟨hsound, ?_⟩
    have hmax := (Nat.max_eq_left hsound.held_le).symm
    obtain ⟨permits, waiters, rfl⟩ := hloose.exists_eq
    obtain ⟨permits', waiters', hrestore⟩ := Pool.restore_eq { l.pool with permits, waiters }
    rw [hrestore] at hmax ⊢
    exact hmax
  | @changes loan f item hitem =>
    obtain ⟨others, hbefore, hafter⟩ := perm_outstanding hitem
    have hlength : ((l.lent.set loan (some (f item))).filterMap id).length = l.outstanding.length := by
      rw [(hafter _).length_eq, hbefore.length_eq]
      rfl
    refine ⟨?_, ?_⟩
    · rw [Sound, outstanding, hlength]
      exact h
    · rw [held, outstanding, hlength]
      exact (Nat.max_eq_left hheld).symm
  | @returns loan item hitem =>
    obtain ⟨others, hbefore, hafter⟩ := perm_outstanding hitem
    have hlength : l.outstanding.length = ((l.lent.set loan none).filterMap id).length + 1 := by
      rw [(hafter none).length_eq, hbefore.length_eq]
      rfl
    rw [Sound, hlength] at h
    have hsound : (l.pool.release reset item).Sound _ 0 :=
      Pool.sound_restore (Pool.sound_store h (reset item))
    refine ⟨hsound, ?_⟩
    have hmax := (Nat.max_eq_left hsound.held_le).symm
    obtain ⟨permits, waiters, hrelease⟩ := Pool.release_eq l.pool reset item
    rw [hrelease] at hmax ⊢
    exact hmax
  | closes => exact ⟨Pool.sound_close h, (Nat.max_eq_left hheld).symm⟩

/-- The room of a pool stays as it is, and a closed pool stays closed. -/
theorem pool_deal (hdeal : Deal build reset l e answer l') :
    l'.pool.capacity = l.pool.capacity ∧ (l.pool.closed = true → l'.pool.closed = true) := by
  -- Permits and waiters come and go. Nothing else of the pool is touched, but by closing.
  cases hdeal with
  | lends _ hloose hlend =>
    obtain ⟨permits, waiters, rfl⟩ := hloose.exists_eq
    rcases Pool.lend_cases hlend with ⟨rest, -, rfl⟩ | ⟨-, -, rfl⟩
    · exact ⟨rfl, id⟩
    · exact ⟨rfl, id⟩
  | restores _ hloose =>
    obtain ⟨permits, waiters, rfl⟩ := hloose.exists_eq
    obtain ⟨permits', waiters', hrestore⟩ := Pool.restore_eq { l.pool with permits, waiters }
    rw [hrestore]
    exact ⟨rfl, id⟩
  | @returns loan item _ =>
    obtain ⟨permits, waiters, hrelease⟩ := Pool.release_eq l.pool reset item
    rw [hrelease]
    exact ⟨rfl, id⟩
  | closes => exact ⟨rfl, fun _ => rfl⟩
  | _ => exact ⟨rfl, id⟩

/-- Nothing is lent by a pool that is closed. -/
theorem not_lent_of_closed (hdeal : Deal build reset l e answer l') (hclosed : l.pool.closed = true)
    (loan : Nat) (item : α) : answer ≠ some (.lent loan item) := by
  cases hdeal with
  | nothing h => exact h loan item
  | lends hopen _ _ =>
    rw [hclosed] at hopen
    cases hopen
  | leaves h _ _ => exact h loan item
  | restores h _ => exact h loan item
  | _ => simp

/-- A loan that is over is never taken up again. -/
theorem blank_deal {loan : Nat} (hblank : l.lent[loan]? = some none)
    (hdeal : Deal build reset l e answer l') : l'.lent[loan]? = some none := by
  -- A new loan is written behind all others, and a change or a return needs an item.
  cases hdeal with
  | lends _ _ _ =>
    obtain ⟨hlt, -⟩ := List.getElem?_eq_some_iff.mp hblank
    rw [List.getElem?_append_left hlt, hblank]
  | @changes other f item hitem =>
    -- The item that is changed belongs to another loan, since it is out.
    have hne : other ≠ loan := by
      rintro rfl
      rw [item?_eq_some, hblank] at hitem
      cases hitem
    rw [List.getElem?_set_ne hne, hblank]
  | @returns other item hitem =>
    have hne : other ≠ loan := by
      rintro rfl
      rw [item?_eq_some, hblank] at hitem
      cases hitem
    rw [List.getElem?_set_ne hne, hblank]
  | _ => exact hblank

/-! ### Whole runs -/

/-- What every event keeps is kept by a run. -/
theorem run_induction {P : Loans α → Prop} {events : List (Event α)} (h : P l)
    (hstep : ∀ (l : Loans α), ∀ e ∈ events, P l → P (l.after build reset e)) :
    P (l.run build reset events) := by
  -- Event by event, from whatever the events before have left.
  induction events generalizing l with
  | nil => exact h
  | cons e rest ih =>
    exact ih (hstep l e List.mem_cons_self h) fun l e he => hstep l e (List.mem_cons_of_mem _ he)

/-- The permits are in order after any run. -/
theorem sound_run (h : l.Sound) (events : List (Event α)) : (l.run build reset events).Sound :=
  run_induction h fun l e _ h => (sound_deal h (deal_after build reset l e)).1

/-- No run changes the capacity. -/
theorem capacity_run (build : Nat → α) (reset : α → α) (l : Loans α) (events : List (Event α)) :
    (l.run build reset events).pool.capacity = l.pool.capacity :=
  run_induction (P := fun l' => l'.pool.capacity = l.pool.capacity) rfl fun l e _ h =>
    (pool_deal (deal_after build reset l e)).1.trans h

/-- No run opens a closed pool. -/
theorem closed_run (hclosed : l.pool.closed = true) (events : List (Event α)) :
    (l.run build reset events).pool.closed = true :=
  run_induction (P := fun l => l.pool.closed = true) hclosed fun l e _ h =>
    (pool_deal (deal_after build reset l e)).2 h

/-- No run takes up a loan that is over. -/
theorem blank_run {loan : Nat} (hblank : l.lent[loan]? = some none) (events : List (Event α)) :
    (l.run build reset events).lent[loan]? = some none :=
  run_induction (P := fun l => l.lent[loan]? = some none) hblank fun l e _ h =>
    blank_deal h (deal_after build reset l e)

/-- A pool that was closed at any point of a run is closed at its end. -/
theorem closed_of_mem (build : Nat → α) (reset : α → α) (l : Loans α) {events : List (Event α)}
    (h : .close ∈ events) :
    (l.run build reset events).pool.closed = true := by
  obtain ⟨before, behind, rfl⟩ := List.append_of_mem h
  rw [run, List.foldl_append]
  exact closed_run rfl behind

theorem held_le_peak (build : Nat → α) (reset : α → α) (l : Loans α) (events : List (Event α)) :
    l.held ≤ l.peak build reset events := by
  cases events with
  | nil => exact Nat.le_refl _
  | cons e rest => exact Nat.le_max_left _ _

/-- An item is built only when more are held than ever before. -/
theorem built_run (build : Nat → α) (reset : α → α) (h : l.Sound) (events : List (Event α)) :
    (l.run build reset events).pool.built = max l.pool.built (l.peak build reset events) := by
  -- Along the run: the peak from here on and the items built so far grow together.
  induction events generalizing l with
  | nil => exact (Nat.max_eq_left h.held_le).symm
  | cons e rest ih =>
    obtain ⟨hsound, hbuilt⟩ := sound_deal h (deal_after build reset l e)
    have hheld := h.held_le
    have hpeak := held_le_peak build reset (l.after build reset e) rest
    have hrest := ih hsound
    change l.held ≤ l.pool.built at hheld
    show ((l.after build reset e).run build reset rest).pool.built =
      max l.pool.built (max l.held ((l.after build reset e).peak build reset rest))
    omega

end

end Loans

end Depot
