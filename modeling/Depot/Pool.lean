import Depot.Amounts

/-!
# Pools

A pool lends out a bounded number of items. An item is built only when none is free, and is reset when
it comes back; of the free items the one that came back last is lent first. Those who have to wait are
served in order, and an item that comes back is granted to the first of them at once: it is not free
for anybody else, even before that borrower takes it. A closed pool grants nothing more, and what
it had set aside is lost to those who did not take it yet; but it takes back what is out.

Each operation on a pool is done as a whole before the next one, and a run is a sequence of them: whoever
gets a permit has the item that goes with it, and nobody comes between the two.

`Pool α` keeps the items themselves. `permits` counts what can still be granted; every grant, taken or
not, holds one permit, so that `available` and `inUse` always add up to the capacity.
-/

namespace Depot

/-- The ways in which a pool refuses. -/
inductive PoolError
  | closed
  /-- Every item is out. -/
  | exhausted
  deriving DecidableEq, Repr

/-- The name of a pool error. -/
def PoolError.label : PoolError → String
  | closed => "Closed"
  | exhausted => "Exhausted"

/-- The text of a pool error. -/
def PoolError.message : PoolError → String
  | closed => "resource pool is closed"
  | exhausted => "resource pool exhausted"

/-- A borrower in the queue. -/
structure Waiter where
  number : Nat
  /-- Whether a permit is set aside for it. -/
  granted : Bool := false
  deriving DecidableEq, Repr

/-- A bounded supply of items. -/
structure Pool (α : Type) where
  capacity : Nat
  /-- Grants that can still be made. -/
  permits : Nat
  /-- The items that came back, the last one first. -/
  free : List α := []
  /-- The number of items ever built. -/
  built : Nat := 0
  /-- Those who wait, first come first. -/
  waiters : List Waiter := []
  /-- The number of those who ever had to wait. -/
  queued : Nat := 0
  closed : Bool := false
  deriving DecidableEq, Repr

namespace Pool

variable {α : Type}

/-- The largest capacity. -/
def maxCapacity : Nat := 2305843009213693951

/-- A pool with nothing built yet. Its capacity is at least one. -/
def new (capacity : Nat) : Pool α :=
  let capacity := min (max capacity 1) maxCapacity
  { capacity, permits := capacity }

/-- A pool with a place for each of its items, which take so many bytes, if there can be as much
room. -/
def new? (size capacity : Nat) : Option (Pool α) :=
  let p := new capacity
  -- Room for all items is made at once, before the first is built.
  if Memory.holds p.capacity size then some p else none

/-- What could be granted right now. -/
def available (p : Pool α) : Nat := p.permits

/-- What is granted right now. -/
def inUse (p : Pool α) : Nat := p.capacity - p.permits

/-- Lends an item against a permit already taken: the last one that came back, or a new one. -/
def lend (p : Pool α) (build : Nat → α) : α × Pool α :=
  match p.free with
  | item :: rest => (item, { p with free := rest })
  | [] => (build p.built, { p with built := p.built + 1 })

/-- Borrows an item without waiting. The permit and the item are taken in one step. -/
def tryAcquire (p : Pool α) (build : Nat → α) : Except PoolError α × Pool α :=
  if p.closed then (.error .closed, p)
  else if p.permits = 0 then (.error .exhausted, p)
  else
    let (item, p) := ({ p with permits := p.permits - 1 }).lend build
    (.ok item, p)

/-- The answer to a borrower who is ready to wait. -/
inductive Ticket (α : Type)
  | item (a : α)
  | failed (e : PoolError)
  /-- Nothing is free; the borrower has this number in the queue. -/
  | queued (number : Nat)
  deriving DecidableEq, Repr

/-- Borrows an item, or joins the queue. -/
def acquire (p : Pool α) (build : Nat → α) : Ticket α × Pool α :=
  match p.tryAcquire build with
  | (.ok item, p) => (.item item, p)
  | (.error .closed, p) => (.failed .closed, p)
  | (.error .exhausted, p) =>
      -- Numbers are not used twice, so one that is given up names nobody.
      (.queued p.queued,
        { p with waiters := p.waiters ++ [{ number := p.queued }], queued := p.queued + 1 })

/-- Grants a permit to the first of some waiters that has none, if there is one. -/
def grantFirst : List Waiter → Option (List Waiter)
  | [] => none
  | w :: rest =>
      if w.granted then (grantFirst rest).map (w :: ·)
      else some ({ w with granted := true } :: rest)

/-- Gives a permit back: to the first waiter without one, or to the pool. A closed pool has no such
waiters. -/
def restore (p : Pool α) : Pool α :=
  match (if p.closed then none else grantFirst p.waiters) with
  -- The permit goes from hand to hand and was never free in between.
  | some waiters => { p with waiters }
  | none => { p with permits := p.permits + 1 }

/-- The answer to a borrower in the queue who asks again. -/
inductive Answer (α : Type)
  | item (a : α)
  | failed (e : PoolError)
  | pending
  /-- There is no such borrower. -/
  | absent
  deriving DecidableEq, Repr

/-- The borrower with a number asks whether it is its turn. After closing it is nobody's. A permit that was
set aside for it is there before it asks, and the item is taken in the step in which it asks. -/
def ask (p : Pool α) (build : Nat → α) (number : Nat) : Answer α × Pool α :=
  let leave : Pool α := { p with waiters := p.waiters.filter (·.number != number) }
  match p.waiters.find? (·.number == number) with
  | none => (.absent, p)
  | some w =>
      if p.closed then (.failed .closed, if w.granted then leave.restore else leave)
      else if w.granted then
        let (item, p) := leave.lend build
        (.item item, p)
      else (.pending, p)

/-- The borrower with a number leaves the queue. What was set aside for it goes to the next one. -/
def cancel (p : Pool α) (number : Nat) : Pool α :=
  let leave : Pool α := { p with waiters := p.waiters.filter (·.number != number) }
  match p.waiters.find? (·.number == number) with
  | some w => if w.granted then leave.restore else leave
  | none => p

/-- Takes an item back, reset. -/
def release (p : Pool α) (reset : α → α) (item : α) : Pool α :=
  ({ p with free := reset item :: p.free }).restore

/-- Closes the pool. -/
def close (p : Pool α) : Pool α := { p with closed := true }

/-- The text of a pool in diagnostics. -/
def debug (p : Pool α) : String :=
  "ResourcePool \x7b capacity: " ++ toString p.capacity ++ ", available: " ++
    toString p.available ++ ", .. \x7d"

/-- The text of a lent item in diagnostics. -/
def entryDebug (item : String) : String := "PoolEntry(Some(" ++ item ++ "))"

end Pool

end Depot
