import Depot.Proofs.Pool.Deals

/-!
# Who has which item

To tell items apart they are `Marked` with the number in which they were built and with what became of
them since. Nobody but us looks at the marks: without them, a run is the run of the plain items. Every
item that was built is out on one loan or free, at every point of every run, and none is lent that was
changed after it was last reset.

## Key results

- `kept_deal`: what every event keeps of the marks
- `run_bare`: marks make no difference
- `custody`: what holds at every point of every run
-/

namespace Depot

/-- What becomes of an item. -/
inductive Deed
  | built
  | changed
  | reset
  deriving DecidableEq, Repr

/-- An item with the number in which it was built and what became of it, the last thing first. -/
structure Marked (α : Type) where
  number : Nat
  value : α
  deeds : List Deed

namespace Marked

variable {α : Type}

/-- A new item. -/
def build (build : Nat → α) (number : Nat) : Marked α := ⟨number, build number, [.built]⟩

/-- An item that is changed by who has it. -/
def change (f : α → α) (m : Marked α) : Marked α := ⟨m.number, f m.value, .changed :: m.deeds⟩

/-- An item that is reset. -/
def reset (reset : α → α) (m : Marked α) : Marked α := ⟨m.number, reset m.value, .reset :: m.deeds⟩

/-- Whether an item is new, or nobody has changed it since it was reset. -/
def Clean (m : Marked α) : Prop := m.deeds = [.built] ∨ m.deeds.head? = some .reset

end Marked

namespace Loans

variable {α : Type}

/-- An event among items with marks. -/
def Event.marked : Event α → Event (Marked α)
  | .tryBorrow => .tryBorrow
  | .borrow => .borrow
  | .ask number => .ask number
  | .cancel number => .cancel number
  | .change loan f => .change loan (Marked.change f)
  | .giveBack loan => .giveBack loan
  | .close => .close

/-- Each item that was built is out on one loan or free, and what is free was reset. -/
structure Kept (m : Loans (Marked α)) : Prop where
  numbers : ((m.outstanding ++ m.pool.free).map Marked.number).Perm (List.range m.pool.built)
  reset : ∀ item ∈ m.pool.free, item.deeds.head? = some .reset

theorem kept_opening (capacity : Nat) : (opening capacity : Loans (Marked α)).Kept :=
  ⟨List.Perm.refl _, fun item hitem => by cases hitem⟩

section

variable {build : Nat → α} {reset : α → α} {m m' : Loans (Marked α)} {e : Event α}
  {answer : Option (LoanAnswer (Marked α))}

/-- Every event keeps items apart, and lends clean ones only. -/
theorem kept_deal (h : m.Kept)
    (hdeal : Deal (Marked.build build) (Marked.reset reset) m e.marked answer m') :
    m'.Kept ∧ ∀ loan item, answer = some (.lent loan item) → item.Clean := by
  generalize hevent : e.marked = event at hdeal
  cases hdeal with
  | nothing hanswer => exact ⟨h, fun loan item heq => absurd heq (hanswer loan item)⟩
  | lends _ hloose hlend =>
    obtain ⟨permits, waiters, rfl⟩ := hloose.exists_eq
    have hnumbers := h.numbers
    rcases Pool.lend_cases hlend with ⟨rest, hfree, rfl⟩ | ⟨hfree, rfl, rfl⟩
    · -- The item was free and is out now.
      change m.pool.free = _ at hfree
      refine ⟨⟨?_, fun item hitem => h.reset item ?_⟩, ?_⟩
      · rw [outstanding, filterMap_lend, List.append_assoc, List.singleton_append]
        rw [hfree] at hnumbers
        exact hnumbers
      · rw [hfree]
        exact List.mem_cons_of_mem _ hitem
      · intro loan item heq
        cases heq
        exact .inr (h.reset _ (hfree ▸ List.mem_cons_self))
    · -- The new item has the next number.
      change m.pool.free = _ at hfree
      refine ⟨⟨?_, h.reset⟩, ?_⟩
      · rw [hfree, List.append_nil] at hnumbers
        rw [outstanding, filterMap_lend, hfree, List.append_nil, List.map_append, List.range_succ]
        exact hnumbers.append_right _
      · intro loan item heq
        cases heq
        exact .inl rfl
  | joins _ => exact ⟨⟨h.numbers, h.reset⟩, by simp⟩
  | leaves hanswer _ _ =>
    exact ⟨⟨h.numbers, h.reset⟩, fun loan item heq => absurd heq (hanswer loan item)⟩
  | restores hanswer hloose =>
    obtain ⟨permits, waiters, rfl⟩ := hloose.exists_eq
    obtain ⟨permits', waiters', hrestore⟩ := Pool.restore_eq { m.pool with permits, waiters }
    rw [hrestore]
    exact ⟨⟨h.numbers, h.reset⟩, fun loan item heq => absurd heq (hanswer loan item)⟩
  | @changes loan f item hitem =>
    -- Whatever the change is, the item keeps its number.
    have hnumber : (f item).number = item.number := by
      cases e with
      | change _ g => cases hevent; rfl
      | _ => cases hevent
    obtain ⟨others, hbefore, hafter⟩ := perm_outstanding hitem
    refine ⟨⟨?_, h.reset⟩, by simp⟩
    have hsame := ((hafter (some (f item))).append_right m.pool.free).map Marked.number
    refine hsame.trans (List.Perm.trans (.of_eq ?_)
      (((hbefore.append_right m.pool.free).map Marked.number).symm.trans h.numbers))
    simp [hnumber]
  | @returns loan item hitem =>
    obtain ⟨permits, waiters, hrelease⟩ := Pool.release_eq m.pool (Marked.reset reset) item
    obtain ⟨others, hbefore, hafter⟩ := perm_outstanding hitem
    rw [hrelease]
    refine ⟨⟨?_, ?_⟩, by simp⟩
    · -- The item is free now, and it keeps its number too.
      have hback := ((hafter none).append_right (Marked.reset reset item :: m.pool.free)).map
        Marked.number
      refine hback.trans (List.Perm.trans ?_
        (((hbefore.append_right m.pool.free).map Marked.number).symm.trans h.numbers))
      simp only [Option.toList_none, List.nil_append, List.map_append, List.map_cons,
        List.cons_append]
      exact List.perm_middle
    · intro other hother
      rcases List.mem_cons.mp hother with rfl | hother
      · rfl
      · exact h.reset other hother
  | closes => exact ⟨⟨h.numbers, h.reset⟩, by simp⟩

/-- Every run of events keeps items apart. -/
theorem kept_run (build : Nat → α) (reset : α → α) (events : List (Event α)) (h : m.Kept) :
    (m.run (Marked.build build) (Marked.reset reset) (events.map .marked)).Kept := by
  refine run_induction h fun m event hevent h => ?_
  obtain ⟨e, -, rfl⟩ := List.mem_map.mp hevent
  exact (kept_deal h (deal_after _ _ m e.marked)).1

end

/-! ### Without marks -/

end Loans

/-- A pool of items without their marks. -/
def Pool.bare {α : Type} (p : Pool (Marked α)) : Pool α :=
  { capacity := p.capacity, permits := p.permits, free := p.free.map Marked.value, built := p.built,
    waiters := p.waiters, queued := p.queued, closed := p.closed }

namespace Pool

variable {α : Type}

/-- The item that is lent is the same, and so is what is left. -/
theorem lend_bare (build : Nat → α) (p : Pool (Marked α)) :
    p.bare.lend build =
      ((p.lend (Marked.build build)).1.value, (p.lend (Marked.build build)).2.bare) := by
  unfold lend bare
  cases p.free <;> rfl

/-- Whoever does not wait gets the same item, or is refused for the same reason. -/
theorem tryAcquire_bare (build : Nat → α) (p : Pool (Marked α)) :
    p.bare.tryAcquire build =
      ((p.tryAcquire (Marked.build build)).1.map Marked.value,
        (p.tryAcquire (Marked.build build)).2.bare) := by
  cases hclosed : p.closed with
  | true =>
    rw [tryAcquire_of_closed hclosed, tryAcquire_of_closed (p := p.bare) hclosed]
    rfl
  | false =>
    by_cases hpermits : p.permits = 0
    · rw [tryAcquire_of_exhausted hclosed hpermits, tryAcquire_of_exhausted (p := p.bare) hclosed hpermits]
      rfl
    · rw [tryAcquire_of_permit hclosed hpermits, tryAcquire_of_permit (p := p.bare) hclosed hpermits]
      have hlend := lend_bare build { p with permits := p.permits - 1 }
      exact congrArg (fun lent : α × Pool α => (Except.ok lent.1, lent.2)) hlend

/-- A permit goes to the same waiter, or back to the pool. -/
theorem restore_bare (p : Pool (Marked α)) : p.bare.restore = p.restore.bare := by
  unfold restore
  have hgrant : (if p.bare.closed then none else grantFirst p.bare.waiters) =
      if p.closed then none else grantFirst p.waiters := rfl
  rw [hgrant]
  cases (if p.closed then none else grantFirst p.waiters) <;> rfl

/-- The item that comes back is reset with or without its marks. -/
theorem release_bare (reset : α → α) (p : Pool (Marked α)) (item : Marked α) :
    p.bare.release reset item.value = (p.release (Marked.reset reset) item).bare :=
  restore_bare { p with free := Marked.reset reset item :: p.free }

end Pool

namespace Loans

variable {α : Type}

/-- Loans of items without their marks. -/
def bare (m : Loans (Marked α)) : Loans α :=
  { pool := m.pool.bare, lent := m.lent.map (Option.map Marked.value) }

end Loans

/-- An answer about an item without its marks. -/
def LoanAnswer.bare {α : Type} : LoanAnswer (Marked α) → LoanAnswer α
  | .lent number item => .lent number item.value
  | .failed e => .failed e
  | .queued number => .queued number
  | .pending => .pending
  | .absent => .absent

namespace Loans

variable {α : Type}

section

variable (build : Nat → α) (reset : α → α) (m : Loans (Marked α))

/-- The same item makes the same loan. -/
private theorem lend_bare (p : Pool (Marked α)) (item : Marked α) :
    m.bare.lend p.bare item.value = ((m.lend p item).1.bare, (m.lend p item).2.bare) := by
  simp only [lend, bare, LoanAnswer.bare, List.map_append, List.length_map]
  rfl

/-- Marks make no difference to a borrower who does not wait. -/
private theorem tryBorrow_bare :
    m.bare.tryBorrow build =
      ((m.tryBorrow (Marked.build build)).1.bare, (m.tryBorrow (Marked.build build)).2.bare) := by
  unfold tryBorrow
  rw [show m.bare.pool = m.pool.bare from rfl, Pool.tryAcquire_bare]
  obtain ⟨result, p⟩ := m.pool.tryAcquire (Marked.build build)
  cases result with
  | error e => rfl
  | ok item => exact lend_bare m p item

/-- Marks make no difference to a borrower who is ready to wait. -/
private theorem borrow_bare :
    m.bare.borrow build =
      ((m.borrow (Marked.build build)).1.bare, (m.borrow (Marked.build build)).2.bare) := by
  unfold borrow Pool.acquire
  rw [show m.bare.pool = m.pool.bare from rfl, Pool.tryAcquire_bare]
  obtain ⟨result, p⟩ := m.pool.tryAcquire (Marked.build build)
  cases result with
  | error e =>
    -- Who is refused for want of permits joins the queue, under the same number.
    cases e with
    | closed => rfl
    | exhausted => rfl
  | ok item => exact lend_bare m p item

/-- Marks make no difference to a borrower who asks again. -/
private theorem ask_bare (number : Nat) :
    m.bare.ask build number =
      ((m.ask (Marked.build build) number).1.bare, (m.ask (Marked.build build) number).2.bare) := by
  unfold ask
  cases hfind : m.pool.waiters.find? (·.number == number) with
  | none =>
    rw [Pool.ask, Pool.ask, hfind, show m.bare.pool.waiters.find? (·.number == number) = none from hfind]
    rfl
  | some w =>
    rw [Pool.ask_of_find? _ hfind, Pool.ask_of_find? (p := m.bare.pool) build hfind]
    have hrestore := (m.pool.leave number).restore_bare
    cases hclosed : m.pool.closed with
    | true =>
      rw [if_pos rfl, if_pos (show m.bare.pool.closed = true from hclosed)]
      cases hgranted : w.granted with
      | true => exact congrArg (fun pool => (LoanAnswer.failed .closed, { m.bare with pool })) hrestore
      | false => rfl
    | false =>
      rw [if_neg Bool.false_ne_true, if_neg (by rw [show m.bare.pool.closed = false from hclosed]; simp)]
      cases hgranted : w.granted with
      | true =>
        have hlend := (m.pool.leave number).lend_bare build
        simp only [show m.bare.pool.leave number = (m.pool.leave number).bare from rfl, hlend]
        exact lend_bare m _ _
      | false => rfl

/-- Marks make no difference to a borrower who leaves. -/
private theorem cancel_bare (number : Nat) : m.bare.cancel number = (m.cancel number).bare := by
  unfold cancel
  cases hfind : m.pool.waiters.find? (·.number == number) with
  | none =>
    rw [Pool.cancel, Pool.cancel, hfind,
      show m.bare.pool.waiters.find? (·.number == number) = none from hfind]
  | some w =>
    rw [Pool.cancel_of_find? hfind, Pool.cancel_of_find? (p := m.bare.pool) hfind]
    cases hgranted : w.granted with
    | true => exact congrArg (fun pool => { m.bare with pool }) (m.pool.leave number).restore_bare
    | false => rfl

theorem item?_bare (loan : Nat) : m.bare.item? loan = (m.item? loan).map Marked.value := by
  simp only [item?, bare, List.getElem?_map]
  cases m.lent[loan]? <;> rfl

/-- Marks make no difference to an event. -/
theorem after_bare (e : Event α) :
    m.bare.after build reset e =
      (m.after (Marked.build build) (Marked.reset reset) e.marked).bare := by
  cases e with
  | tryBorrow => exact congrArg Prod.snd (tryBorrow_bare build m)
  | borrow => exact congrArg Prod.snd (borrow_bare build m)
  | ask number => exact congrArg Prod.snd (ask_bare build m number)
  | cancel number => exact cancel_bare m number
  | change loan f =>
    simp only [after, Event.marked, change?, item?_bare]
    cases m.item? loan with
    | none => rfl
    | some item =>
      simp only [Option.map_some, Option.getD_some, bare, List.map_set]
      rfl
  | giveBack loan =>
    simp only [after, Event.marked, giveBack?, item?_bare]
    cases m.item? loan with
    | none => rfl
    | some item =>
      simp only [Option.map_some, Option.getD_some, bare, List.map_set]
      rw [m.pool.release_bare reset item]
      rfl
  | close => rfl

/-- Marks make no difference to an answer. -/
theorem answer?_bare (e : Event α) :
    m.bare.answer? build e = (m.answer? (Marked.build build) e.marked).map LoanAnswer.bare := by
  cases e with
  | tryBorrow => exact congrArg (fun r => some r.1) (tryBorrow_bare build m)
  | borrow => exact congrArg (fun r => some r.1) (borrow_bare build m)
  | ask number => exact congrArg (fun r => some r.1) (ask_bare build m number)
  | _ => rfl

/-- Marks make no difference to a run. -/
theorem run_bare (events : List (Event α)) :
    m.bare.run build reset events =
      (m.run (Marked.build build) (Marked.reset reset) (events.map .marked)).bare := by
  induction events generalizing m with
  | nil => rfl
  | cons e rest ih =>
    show (m.bare.after build reset e).run build reset rest = _
    rw [after_bare, ih]
    rfl

end

/-! ### Every run -/

section

variable (build : Nat → α) (reset : α → α)

/-- What holds of a pool with its loans after so many events, and of the same with marks. -/
structure Custody (capacity : Nat) (events : List (Event α)) (l : Loans α) (m : Loans (Marked α)) : Prop where
  /-- Marks make no difference. -/
  unseen : m.bare = l
  /-- There is room for one item at least, and for as many as can be counted at most. -/
  capacity_eq : l.pool.capacity = min (max capacity 1) Pool.maxCapacity
  held_le : l.held ≤ l.pool.capacity
  available_add_inUse : l.pool.available + l.pool.inUse = l.pool.capacity
  inUse_eq : l.pool.inUse = l.held
  /-- Each item that was built is out on one loan or free, and none is both or twice. -/
  exclusive : ((m.outstanding ++ m.pool.free).map Marked.number).Perm (List.range m.pool.built)
  /-- Whatever is lent next is new or was reset after it was last changed. -/
  clean : ∀ e loan a, l.answer? build e = some (.lent loan a) →
    ∃ item : Marked α, m.answer? (Marked.build build) e.marked = some (.lent loan item) ∧
      item.value = a ∧ item.Clean
  /-- As many items were built as were ever held at the same time. -/
  built_eq : l.pool.built = (opening capacity).peak build reset events
  /-- Nothing is lent once the pool was closed. -/
  closed : .close ∈ events → ∀ e loan a, l.answer? build e ≠ some (.lent loan a)
  /-- An item that is out can be given back, closed or not: it is reset and free, and its loan is over. -/
  returned : ∀ loan a, l.item? loan = some a →
    ∃ l', l.giveBack? reset loan = some l' ∧ l'.pool.free = reset a :: l.pool.free ∧
      l'.outstanding.length + 1 = l.outstanding.length ∧
      ∀ later, (l'.run build reset later).giveBack? reset loan = none

/-- Giving back an item that is out ends its loan for good. -/
private theorem giveBack_spec {l : Loans α} {loan : Nat} {a : α} (hitem : l.item? loan = some a) :
    ∃ l', l.giveBack? reset loan = some l' ∧ l'.pool.free = reset a :: l.pool.free ∧
      l'.outstanding.length + 1 = l.outstanding.length ∧
      ∀ later, (l'.run build reset later).giveBack? reset loan = none := by
  obtain ⟨others, hbefore, hafter⟩ := perm_outstanding hitem
  obtain ⟨permits, waiters, hrelease⟩ := Pool.release_eq l.pool reset a
  refine ⟨_, by rw [giveBack?, hitem]; rfl, congrArg Pool.free hrelease, ?_, fun later => ?_⟩
  · rw [hbefore.length_eq]
    exact congrArg (· + 1) (hafter none).length_eq
  · obtain ⟨hlt, -⟩ := List.getElem?_eq_some_iff.mp (item?_eq_some.mp hitem)
    -- A blank is left, and nothing ever fills it again.
    have hblank : (l.lent.set loan none)[loan]? = some none := by
      rw [List.getElem?_set_self hlt]
    rw [giveBack?, item?, blank_run hblank later]
    rfl

/-- At every point of every run of events a pool knows where each of its items is. -/
theorem custody (capacity : Nat) (events : List (Event α)) :
    Custody build reset capacity events ((opening capacity).run build reset events)
      ((opening capacity).run (Marked.build build) (Marked.reset reset) (events.map .marked)) := by
  -- What is known of the plain run, of the marked run, and of the two as one.
  have hsound : ((opening capacity).run build reset events).Sound :=
    sound_run (sound_opening capacity) events
  have hbuilt := built_run build reset (sound_opening capacity) events
  have hbare := run_bare build reset (opening capacity) events
  have hkept := kept_run build reset events (kept_opening (α := α) capacity)
  have hcapacity := capacity_run build reset (opening capacity) events
  have hclosed (h : .close ∈ events) := closed_of_mem build reset (opening capacity) h
  generalize (opening capacity).run (Marked.build build) (Marked.reset reset) (events.map .marked) = m
    at hbare hkept ⊢
  change (opening capacity).run build reset events = m.bare at hbare
  generalize (opening capacity).run build reset events = l at hsound hbuilt hbare hcapacity hclosed ⊢
  have hbalance := hsound.balance
  have hheld := hsound.held_le
  have hroom := hsound.built_le
  have hinUse : l.pool.inUse = l.held := by
    rw [Pool.inUse, held]
    omega
  refine
    { unseen := hbare.symm, capacity_eq := hcapacity, held_le := Nat.le_trans hheld hroom,
      available_add_inUse := ?_, inUse_eq := hinUse, exclusive := hkept.numbers, clean := ?_,
      built_eq := ?_, closed := ?_, returned := fun loan a hitem => giveBack_spec build reset hitem }
  · rw [Pool.available, Pool.inUse]
    omega
  · -- The answer is the one about the item with its marks, and that one is clean.
    intro e loan a hanswer
    rw [hbare, answer?_bare] at hanswer
    have hclean := (kept_deal hkept (deal_after (Marked.build build) (Marked.reset reset) m e.marked)).2
    cases hmarked : m.answer? (Marked.build build) e.marked with
    | none =>
      rw [hmarked] at hanswer
      cases hanswer
    | some answer =>
      rw [hmarked] at hanswer
      cases answer with
      | lent number item =>
        cases hanswer
        exact ⟨item, rfl, rfl, hclean _ item hmarked⟩
      | _ => cases hanswer
  · rw [hbuilt]
    exact Nat.max_eq_right (Nat.zero_le _)
  · intro hmem e loan a
    exact not_lent_of_closed (deal_after build reset l e) (hclosed hmem) loan a

end

end Loans

end Depot
