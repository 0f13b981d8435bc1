import Depot.Text.Numerals
import Depot.Text.Unprintable

/-!
# Quoted text

The form in which messages quote text that came from outside: between double quotes, on one line, with
every character visible. The double quote, the backslash and the common controls are written with a
backslash; any other character that is not shown is written as its code point, and an apostrophe
stays as it is.
-/

namespace Depot.Text.Quoted

/-- One character inside quotes. -/
def escape (c : Char) : String :=
  match c.toNat with
  | 0 => "\\0"
  | 9 => "\\t"
  | 10 => "\\n"
  | 13 => "\\r"
  | 34 => "\\\""
  | 92 => "\\\\"
  | n => if Unprintable.contains n then "\\u\x7b" ++ Hex.number n ++ "\x7d" else c.toString

/-- Text between quotes. -/
def encode (s : String) : String :=
  "\"" ++ String.join (s.toList.map escape) ++ "\""

end Depot.Text.Quoted
