import Depot.Amounts

/-!
# Back-off

The delay between two attempts to accept a connection starts small, doubles with every failure in a row
and stops growing at a maximum. A success starts it again.
-/

namespace Depot

/-- The bounds of the delay. -/
structure Backoff where
  initial : Duration := .millis 10
  max : Duration := .seconds 1
  deriving DecidableEq, Repr

namespace Backoff

/-- The shortest delay that is ever used. -/
def floor : Duration := .millis 1

/-- The bounds raised to the floor and put in order. -/
def normalized (b : Backoff) : Backoff :=
  let initial := Nat.max b.initial.nanos floor.nanos
  let max := Nat.max b.max.nanos floor.nanos
  { initial := ⟨min initial max⟩, max := ⟨Nat.max initial max⟩ }

/-- The delay after another failure. -/
def next (b : Backoff) (delay : Duration) : Duration :=
  ⟨min (delay.scale 2).nanos b.max.nanos⟩

/-- The next `count` delays. -/
def delays (b : Backoff) (delay : Duration) : Nat → List Duration
  | 0 => []
  | count + 1 => b.next delay :: b.delays (b.next delay) count

end Backoff

end Depot
