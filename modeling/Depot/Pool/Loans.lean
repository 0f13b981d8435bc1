import Depot.Pool

/-!
# Loans

A pool together with what is out on loan, each loan under the number in which it was made. What a
borrower does to an item while it has it is up to the borrower.
-/

namespace Depot

/-- A pool with its loans. -/
structure Loans (α : Type) where
  pool : Pool α
  /-- The items out on loan; those that came back are blank. -/
  lent : List (Option α) := []
  deriving DecidableEq, Repr

/-- The answer to somebody who asks for an item. -/
inductive LoanAnswer (α : Type)
  /-- The item, with the number of the loan. -/
  | lent (number : Nat) (item : α)
  | failed (e : PoolError)
  /-- The number in the queue. -/
  | queued (number : Nat)
  | pending
  /-- Nobody with that number is in the queue. -/
  | absent
  deriving DecidableEq, Repr

namespace Loans

variable {α : Type}

/-- Writes down another loan. -/
def lend (l : Loans α) (pool : Pool α) (item : α) : LoanAnswer α × Loans α :=
  (.lent l.lent.length item, { pool, lent := l.lent ++ [some item] })

/-- Borrows an item without waiting. -/
def tryBorrow (l : Loans α) (build : Nat → α) : LoanAnswer α × Loans α :=
  match l.pool.tryAcquire build with
  | (.ok item, pool) => l.lend pool item
  | (.error e, pool) => (.failed e, { l with pool })

/-- Borrows an item, or joins the queue. -/
def borrow (l : Loans α) (build : Nat → α) : LoanAnswer α × Loans α :=
  match l.pool.acquire build with
  | (.item item, pool) => l.lend pool item
  | (.failed e, pool) => (.failed e, { l with pool })
  | (.queued number, pool) => (.queued number, { l with pool })

/-- Somebody in the queue asks again. -/
def ask (l : Loans α) (build : Nat → α) (number : Nat) : LoanAnswer α × Loans α :=
  match l.pool.ask build number with
  | (.item item, pool) => l.lend pool item
  | (.failed e, pool) => (.failed e, { l with pool })
  | (.pending, pool) => (.pending, { l with pool })
  | (.absent, pool) => (.absent, { l with pool })

/-- Somebody leaves the queue. -/
def cancel (l : Loans α) (number : Nat) : Loans α := { l with pool := l.pool.cancel number }

/-- The item of a loan that is out. -/
def item? (l : Loans α) (number : Nat) : Option α := (l.lent[number]?).join

/-- A borrower changes its item. -/
def change? (l : Loans α) (number : Nat) (f : α → α) : Option (Loans α) :=
  (l.item? number).map fun item => { l with lent := l.lent.set number (some (f item)) }

/-- A borrower gives its item back. -/
def giveBack? (l : Loans α) (reset : α → α) (number : Nat) : Option (Loans α) :=
  (l.item? number).map fun item =>
    { pool := l.pool.release reset item, lent := l.lent.set number none }

/-- Closes the pool. -/
def close (l : Loans α) : Loans α := { l with pool := l.pool.close }

end Loans

end Depot
