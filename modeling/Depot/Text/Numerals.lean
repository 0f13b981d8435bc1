/-!
# Numbers in text

Hexadecimal digits are written, in lower case, for the byte values and code points in messages. Decimal
numbers are read, and strictly: an optional sign, then at least one ASCII digit, and nothing else. Leading
zeros are fine; a value above the given limit is not a number.
-/

namespace Depot.Text

/-! ### Hexadecimal digits -/

namespace Hex

/-- A value below sixteen as one lower-case digit. -/
def digit (n : Nat) : Char :=
  if n < 10 then Char.ofNat (48 + n) else Char.ofNat (87 + n)

/-- A byte as exactly two digits. -/
def byte (b : UInt8) : String :=
  String.ofList [digit (b.toNat / 16), digit (b.toNat % 16)]

/-- A number with as few digits as it needs, at least one. -/
def number (n : Nat) : String :=
  String.ofList (Nat.toDigits 16 n)

end Hex

/-! ### Decimal numbers -/

namespace Decimal

/-- The value of a digit. -/
def digit? (c : Char) : Option Nat :=
  if '0' ≤ c ∧ c ≤ '9' then some (c.toNat - 48) else none

/-- The value of a string of digits, read after a number that is already `value`. -/
def digits? (value : Nat) : List Char → Option Nat
  | [] => some value
  | c :: rest => (digit? c).bind fun d => digits? (10 * value + d) rest

/-- The value of at least one digit, if it is at most `limit`. -/
def magnitude? (limit : Nat) : List Char → Option Nat
  | [] => none
  | cs => (digits? 0 cs).filter (· ≤ limit)

/-- A number from 0 to `limit`, with an optional plus sign. -/
def natural? (limit : Nat) (s : String) : Option Nat :=
  match s.toList with
  | '+' :: cs => magnitude? limit cs
  | cs => magnitude? limit cs

/-- A number from `-low` to `high`, with an optional sign. -/
def integer? (low high : Nat) (s : String) : Option Int :=
  match s.toList with
  | '+' :: cs => (magnitude? high cs).map Int.ofNat
  | '-' :: cs => (magnitude? low cs).map fun n => -Int.ofNat n
  | cs => (magnitude? high cs).map Int.ofNat

end Decimal

end Depot.Text
