import Depot.Frame.Writer

/-!
# What a writer still has to write

What counts of a `Writer` is the bytes of the frame in progress that are not written yet, its `unsent`.
A writer is `Sound` when these are none only between two frames. Every operation keeps that, and the
lemmas below say what each does to the unsent bytes, so that nothing has to be said elsewhere of how
much of the frame is written.

## Key results

- `isIdle_iff`: a writer is idle when nothing is unsent
- `unsent_advance`: the bytes that were taken are not unsent any more
- `unsent_of_stage`: the frame of a packet is unsent as a whole
-/

namespace Depot.Frame.Writer

/-- The bytes of the frame in progress that are still to be written. -/
def unsent (w : Writer) : List UInt8 := w.staged.drop w.sent

/-- A slice has at least one byte, and a frame is in progress only as long as a byte of it is not
written. -/
structure Sound (w : Writer) : Prop where
  chunk_pos : 0 < w.chunk
  sent_lt : w.staged ≠ [] → w.sent < w.staged.length
  sent_eq : w.staged = [] → w.sent = 0

theorem sound_new (chunk : Nat) : (new chunk).Sound :=
  ⟨by simp only [new]; omega, fun h => absurd rfl h, fun _ => rfl⟩

/-- What remains is the number of unsent bytes. -/
@[simp] theorem length_unsent (w : Writer) : w.unsent.length = w.remaining := by
  rw [unsent, List.length_drop, remaining]

/-- An idle writer has nothing unsent. -/
theorem unsent_eq_nil_of_isIdle {w : Writer} (h : w.isIdle) : w.unsent = [] := by
  rw [unsent, List.isEmpty_iff.mp h, List.drop_nil]

/-- A writer is idle just if nothing is unsent. -/
theorem isIdle_iff {w : Writer} (hw : w.Sound) : w.isIdle ↔ w.unsent = [] := by
  refine ⟨unsent_eq_nil_of_isIdle, fun h => ?_⟩
  by_cases hstaged : w.staged = []
  · exact List.isEmpty_iff.mpr hstaged
  · -- A frame in progress has a byte that is not written.
    have hlt := hw.sent_lt hstaged
    have hle := List.drop_eq_nil_iff.mp h
    omega

/-- An idle writer is as good as a new one. -/
theorem reset_eq_of_isIdle {w : Writer} (hw : w.Sound) (h : w.isIdle) : w.reset = w := by
  have hstaged : w.staged = [] := List.isEmpty_iff.mp h
  have hsent := hw.sent_eq hstaged
  cases w
  cases hstaged
  cases hsent
  rfl

theorem sound_reset {w : Writer} (hw : w.Sound) : w.reset.Sound :=
  ⟨hw.chunk_pos, fun h => absurd rfl h, fun _ => rfl⟩

/-- The slice that is offered next is the beginning of what is unsent. -/
theorem slice_eq (w : Writer) : w.slice = w.unsent.take w.chunk := rfl

/-- A writer that is not idle has something to offer. -/
theorem slice_ne_nil {w : Writer} (hw : w.Sound) (h : w.isIdle = false) : w.slice ≠ [] := by
  have hne : w.unsent ≠ [] := fun hnil => by simp [(isIdle_iff hw).mpr hnil] at h
  have hpos := hw.chunk_pos
  intro hslice
  rcases List.take_eq_nil_iff.mp hslice with h0 | hnil
  · omega
  · exact hne hnil

/-- No more is offered than is unsent. -/
theorem length_slice_le (w : Writer) : w.slice.length ≤ w.unsent.length := by
  rw [slice_eq, List.length_take]
  exact Nat.min_le_right _ _

/-- Bytes of the slice are bytes of what is unsent. -/
theorem take_slice {w : Writer} {count : Nat} (h : count ≤ w.slice.length) :
    w.slice.take count = w.unsent.take count := by
  rw [slice_eq, List.length_take] at h
  rw [slice_eq, List.take_take, Nat.min_eq_left (by omega)]

@[simp] theorem reset_advance (w : Writer) (count : Nat) : (w.advance count).reset = w.reset := by
  simp only [advance]
  split <;> rfl

/-- What was taken is not unsent any more. -/
theorem unsent_advance (w : Writer) (count : Nat) :
    (w.advance count).unsent = w.unsent.drop count := by
  simp only [advance, unsent, List.drop_drop]
  split
  · next hall => rw [hall, List.drop_length]; rfl
  · rfl

/-- To write within what is unsent keeps a writer sound. -/
theorem sound_advance {w : Writer} {count : Nat} (hw : w.Sound) (h : count ≤ w.unsent.length) :
    (w.advance count).Sound := by
  simp only [advance]
  split
  · exact sound_reset hw
  · next hpart =>
    rw [length_unsent, remaining] at h
    refine ⟨hw.chunk_pos, fun hne => ?_, fun hnil => ?_⟩
    · have hlt := hw.sent_lt hne
      simp only at hpart ⊢; omega
    · -- Without a frame there is nothing to advance over.
      have hsent := hw.sent_eq hnil
      simp only [show w.staged = [] from hnil, List.length_nil] at h hpart
      omega

/-- Staging a packet makes its frame the one in progress. -/
theorem unsent_of_stage {w w' : Writer} {p : Packet} (h : w.stage p = .ok w') :
    p.encode = .ok w'.unsent ∧ w'.reset = w.reset := by
  unfold stage at h
  cases he : p.encode with
  | error fault => rw [he] at h; cases h
  | ok frame => rw [he] at h; cases h; exact ⟨rfl, rfl⟩

/-- A writer with a new frame is sound. -/
theorem sound_of_stage {w w' : Writer} {p : Packet} (hw : w.Sound) (h : w.stage p = .ok w') :
    w'.Sound := by
  unfold stage at h
  cases he : p.encode with
  | error fault => rw [he] at h; cases h
  | ok frame =>
    rw [he] at h
    cases h
    exact ⟨hw.chunk_pos, fun hne => List.length_pos_iff.mpr hne, fun _ => rfl⟩

theorem exists_stage {w : Writer} {p : Packet} {frame : List UInt8} (h : p.encode = .ok frame) :
    ∃ w', w.stage p = .ok w' := by
  rw [stage, h]
  exact ⟨_, rfl⟩

end Depot.Frame.Writer
