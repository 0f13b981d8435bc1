/-!
# Amounts of time and memory

Both have a bound that does not depend on how much of them there is. A duration is a length of time in whole
nanoseconds. The longest one is what 64 bits of seconds and the nanoseconds of a second can say, and
arithmetic that would pass it stops there. Buffers and stocks are laid out as a whole before anything is
put into them, and lengths in bytes are counted with a sign.
-/

namespace Depot

/-! ### Durations -/

/-- A length of time. -/
structure Duration where
  nanos : Nat
  deriving DecidableEq, Repr, Inhabited

namespace Duration

/-- Nanoseconds in a second. -/
def perSecond : Nat := 1000000000

/-- Nanoseconds in a millisecond. -/
def perMilli : Nat := 1000000

/-- The longest duration. -/
def longest : Duration := ⟨18446744073709551615 * perSecond + 999999999⟩

/-- No time at all. -/
def zero : Duration := ⟨0⟩

/-- So many seconds. -/
def seconds (n : Nat) : Duration := ⟨n * perSecond⟩

/-- So many milliseconds. -/
def millis (n : Nat) : Duration := ⟨n * perMilli⟩

/-- A multiple of a duration, at most the longest. -/
def scale (d : Duration) (factor : Nat) : Duration := ⟨min (d.nanos * factor) longest.nanos⟩

/-- The digits of a fraction with `places` places, without the zeros at its end. -/
def fraction (value places : Nat) : String :=
  let digits := (Nat.toDigits 10 (value + Nat.pow 10 places)).tail
  let kept := (digits.reverse.dropWhile (· == '0')).reverse
  if kept.isEmpty then "" else "." ++ String.ofList kept

/-- The text of a duration: in the largest of seconds, milliseconds, microseconds and nanoseconds that
it reaches, exact, without needless zeros. -/
def text (d : Duration) : String :=
  let n := d.nanos
  if n ≥ perSecond then toString (n / perSecond) ++ fraction (n % perSecond) 9 ++ "s"
  else if n ≥ perMilli then toString (n / perMilli) ++ fraction (n % perMilli) 6 ++ "ms"
  else if n ≥ 1000 then toString (n / 1000) ++ fraction (n % 1000) 3 ++ "µs"
  else toString n ++ "ns"

end Duration

/-! ### Memory -/

namespace Memory

/-- The most bytes that can be laid out at once. -/
def limit : Nat := 9223372036854775807

/-- Whether so many items of so many bytes each can be laid out. -/
def holds (count size : Nat) : Bool := count * size ≤ limit

end Memory

end Depot
