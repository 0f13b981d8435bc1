/-!
# Little-endian words

Every number on the wire is written low byte first. This module holds the two widths in use, 16 and
32 bits, each as a writer to bytes and a reader from bytes:

* `word16_bytes16` and `word32_bytes32` say that a word reads back as it was written,
* `bytes16_word16` and `bytes32_word32` say that no two byte strings stand for the same word.
-/

namespace Depot.Wire

/-- The number that bytes of any width stand for, lowest first. -/
def number : List UInt8 → Nat
  | [] => 0
  | b :: rest => b.toNat + 256 * number rest

/-- The two bytes of a 16-bit word, low byte first. -/
def bytes16 (w : UInt16) : List UInt8 :=
  [w.toUInt8, UInt8.ofNat (w.toNat / 256)]

/-- The 16-bit word with the given low and high byte. -/
def word16 (b0 b1 : UInt8) : UInt16 :=
  UInt16.ofNat (b0.toNat + 256 * b1.toNat)

/-- The four bytes of a 32-bit word, low byte first. -/
def bytes32 (w : UInt32) : List UInt8 :=
  [w.toUInt8, UInt8.ofNat (w.toNat / 256), UInt8.ofNat (w.toNat / 65536),
    UInt8.ofNat (w.toNat / 16777216)]

/-- The 32-bit word with the given bytes, lowest first. -/
def word32 (b0 b1 b2 b3 : UInt8) : UInt32 :=
  UInt32.ofNat (b0.toNat + 256 * b1.toNat + 65536 * b2.toNat + 16777216 * b3.toNat)

/-- A word of 32 bits takes up four bytes. -/
@[simp] theorem length_bytes32 (w : UInt32) : (bytes32 w).length = 4 := rfl

/-- A word of 16 bits survives being written and read. -/
theorem word16_bytes16 (w : UInt16) :
    word16 w.toUInt8 (UInt8.ofNat (w.toNat / 256)) = w := by
  have := w.toNat_lt
  apply UInt16.toNat_inj.mp
  simp only [word16, UInt16.toNat_ofNat', UInt8.toNat_ofNat', UInt16.toNat_toUInt8]
  omega

/-- Two bytes survive being read and written. -/
theorem bytes16_word16 (b0 b1 : UInt8) : bytes16 (word16 b0 b1) = [b0, b1] := by
  have h0 := b0.toNat_lt
  have h1 := b1.toNat_lt
  simp only [bytes16, List.cons.injEq, and_true]
  constructor <;> apply UInt8.toNat_inj.mp <;>
    simp only [word16, UInt16.toNat_ofNat', UInt8.toNat_ofNat', UInt16.toNat_toUInt8] <;> omega

/-- A word of 32 bits survives being written and read. -/
theorem word32_bytes32 (w : UInt32) :
    word32 w.toUInt8 (UInt8.ofNat (w.toNat / 256)) (UInt8.ofNat (w.toNat / 65536))
      (UInt8.ofNat (w.toNat / 16777216)) = w := by
  have := w.toNat_lt
  apply UInt32.toNat_inj.mp
  simp only [word32, UInt32.toNat_ofNat', UInt8.toNat_ofNat', UInt32.toNat_toUInt8]
  omega

/-- Four bytes survive being read and written. -/
theorem bytes32_word32 (b0 b1 b2 b3 : UInt8) :
    bytes32 (word32 b0 b1 b2 b3) = [b0, b1, b2, b3] := by
  have h0 := b0.toNat_lt
  have h1 := b1.toNat_lt
  have h2 := b2.toNat_lt
  have h3 := b3.toNat_lt
  simp only [bytes32, List.cons.injEq, and_true]
  refine ⟨?_, ?_, ?_, ?_⟩ <;> apply UInt8.toNat_inj.mp <;>
    simp only [word32, UInt32.toNat_ofNat', UInt8.toNat_ofNat', UInt32.toNat_toUInt8] <;> omega

end Depot.Wire
