import Depot.Text.Numerals

/-!
# Reading numbers that were written

A number is written with ASCII digits and nothing else, one byte each, and what was written is read as
the same number. Other texts may be read as that number too, with zeros or a sign in front, so the
written form is a choice among them.
-/

namespace Depot.Text.Decimal

/-- A digit has a value. -/
theorem digit?_of_isDigit {c : Char} (h : c.isDigit = true) : digit? c = some (c.toNat - 48) := by
  simp only [Char.isDigit, Bool.and_eq_true, decide_eq_true_eq] at h
  exact if_pos h

/-- The digits after a number go on with it. -/
theorem digits?_of_isDigit {cs : List Char} (h : ∀ c ∈ cs, c.isDigit = true) (value : Nat) :
    digits? value cs = some (Nat.ofDigitChars 10 cs value) := by
  induction cs generalizing value with
  | nil => rfl
  | cons c rest ih =>
    have hrest (next : Nat) := ih (fun c hc => h c (List.mem_cons_of_mem _ hc)) next
    rw [digits?, digit?_of_isDigit (h c List.mem_cons_self), Option.bind_some, hrest,
      Nat.ofDigitChars_cons]
    rfl

/-- No number above the limit is read. -/
theorem natural?_le {limit n : Nat} {s : String} (h : natural? limit s = some n) : n ≤ limit := by
  have hmagnitude {cs : List Char} (h : magnitude? limit cs = some n) : n ≤ limit := by
    unfold magnitude? at h
    split at h
    · cases h
    · simpa using (Option.filter_eq_some_iff.mp h).2
  unfold natural? at h
  split at h
  · exact hmagnitude h
  · exact hmagnitude h

/-- A number is written in digits. -/
theorem isDigit_of_mem_toString {n : Nat} {c : Char} (h : c ∈ (toString n).toList) :
    c.isDigit = true := by
  rw [Nat.toString_eq_repr, Nat.toList_repr] at h
  exact Nat.isDigit_of_mem_toDigits (by omega) (by omega) h

/-- A number that was written is read as the same number. -/
theorem natural?_toString {limit n : Nat} (h : n ≤ limit) : natural? limit (toString n) = some n := by
  have hdigits : digits? 0 (toString n).toList = some n := by
    rw [digits?_of_isDigit fun c hc => isDigit_of_mem_toString hc, Nat.toString_eq_repr,
      Nat.toList_repr, Nat.ofDigitChars_ten_toDigits]
  unfold natural?
  split
  · -- A sign is no digit.
    next hsign =>
    have hmem : '+' ∈ (toString n).toList := by
      rw [hsign]
      exact List.mem_cons_self
    have hdigit := isDigit_of_mem_toString hmem
    simp at hdigit
  · unfold magnitude?
    split
    · next hempty =>
      rw [Nat.toString_eq_repr, Nat.toList_repr] at hempty
      exact absurd hempty Nat.toDigits_ne_nil
    · rw [hdigits]
      simp [h]

/-- No two numbers are written in the same way. -/
theorem toString_inj {n m : Nat} (h : toString n = toString m) : n = m := by
  have hn := natural?_toString (Nat.le_max_left n m)
  have hm := natural?_toString (Nat.le_max_right n m)
  rw [h, hm] at hn
  exact (Option.some.inj hn).symm

/-- A digit takes a byte. -/
theorem utf8ByteSize_digitChar {d : Nat} (h : d < 10) :
    (String.singleton d.digitChar).utf8ByteSize = 1 := by
  have hvalue : d.digitChar.val.toNat = 48 + d := Nat.toNat_digitChar_of_lt_ten h
  rw [String.utf8ByteSize_singleton, Char.utf8Size_eq_one_iff, UInt32.le_iff_toNat_le, hvalue]
  show 48 + d ≤ 127
  omega

/-- Each digit takes a byte. -/
theorem utf8ByteSize_toString_le {n k : Nat} (hk : 0 < k) (h : n < Nat.pow 10 k) :
    (toString n).utf8ByteSize ≤ k := by
  rw [Nat.toString_eq_repr]
  -- The last digit takes a byte, and the number without it is one of fewer digits.
  induction k generalizing n with
  | zero => cases hk
  | succ k ih =>
    by_cases hsmall : n < 10
    · rw [Nat.repr_of_lt hsmall, utf8ByteSize_digitChar hsmall]
      exact hk
    · rw [Nat.repr_of_ge (by omega), String.utf8ByteSize_append, utf8ByteSize_digitChar (by omega)]
      have hpos : 0 < k := by
        cases k with
        | zero => exact absurd h hsmall
        | succ k => exact Nat.succ_pos k
      have hrest : n / 10 < Nat.pow 10 k := (Nat.div_lt_iff_lt_mul (by omega)).mpr h
      exact Nat.succ_le_succ (ih hpos hrest)

end Depot.Text.Decimal
