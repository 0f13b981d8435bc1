import Depot.Proofs.Switchboard.Roster
import Depot.Switchboard.Bisection

/-!
# Bisection finds what is there

In a roster that ascends the place of an id is the one of its entry if it has one, and otherwise the place
between the smaller and the larger ids. So the operations at that place are the ones that look at every
entry.

## Key results

- `split_of_taken`, `split_of_free`: what stands before the place of an id, and what stands behind it
- `seek?_eq`, `enlist?_eq`, `strike_eq`: looking up, adding and taking away by bisection
-/

namespace Depot.Switchboard.Roster

variable {α : Type} {entries : List (UInt8 × α)} {id : UInt8} {low high index : Nat}
  {hhigh : high ≤ entries.length}

/-! ### The window -/

/-- A place that is taken is taken by the id, whether the entries ascend or not. -/
theorem id_of_placeBetween (h : placeBetween entries id low high hhigh = .taken index) :
    ∃ hindex : index < entries.length, entries[index].1 = id := by
  fun_induction placeBetween entries id low high hhigh with
  | case1 low high hhigh hwindow middle hmiddle hless ih => exact ih h
  | case2 low high hhigh hwindow middle hmiddle hnot hmore ih => exact ih h
  | case3 low high hhigh hwindow middle hmiddle hnot hnot' =>
    rw [← Place.taken.inj h]
    exact ⟨hmiddle, UInt8.le_antisymm (UInt8.not_lt.mp hnot') (UInt8.not_lt.mp hnot)⟩
  | case4 => cases h

/-- If all ids before the window are smaller and all ids behind it are larger, the same holds of a place
that is free. -/
theorem bounds_of_placeBetween (hasc : entries.Pairwise fun e f => e.1 < f.1)
    (hbefore : ∀ i (hi : i < entries.length), i < low → entries[i].1 < id)
    (hbehind : ∀ i (hi : i < entries.length), high ≤ i → id < entries[i].1) (hle : low ≤ high)
    (h : placeBetween entries id low high hhigh = .free index) :
    index ≤ entries.length ∧ (∀ i (hi : i < entries.length), i < index → entries[i].1 < id) ∧
      ∀ i (hi : i < entries.length), index ≤ i → id < entries[i].1 := by
  -- As the window is halved: what it loses is on the right side of the id, since the entries ascend.
  fun_induction placeBetween entries id low high hhigh with
  | case1 low high hhigh hwindow middle hmiddle hless ih =>
    -- What is before the middle is smaller than the middle.
    refine ih (fun i hi hlt => ?_) hbehind (by omega) h
    rcases Nat.lt_or_eq_of_le (Nat.lt_succ_iff.mp hlt) with hlt | rfl
    · exact UInt8.lt_trans (List.pairwise_iff_getElem.mp hasc i middle hi hmiddle hlt) hless
    · exact hless
  | case2 low high hhigh hwindow middle hmiddle hnot hmore ih =>
    refine ih hbefore (fun i hi hge => ?_) (by omega) h
    rcases Nat.lt_or_eq_of_le hge with hlt | rfl
    · exact UInt8.lt_trans hmore (List.pairwise_iff_getElem.mp hasc middle i hmiddle hi hlt)
    · exact hmore
  | case3 => cases h
  | case4 low high hhigh hwindow =>
    have hend : high = low := by omega
    rw [← Place.free.inj h]
    exact ⟨by omega, hbefore, hend ▸ hbehind⟩

/-! ### The place of an id -/

variable {r : Roster α}

/-- A place that is taken has the entry of the id. -/
theorem split_of_taken (h : r.place id = .taken index) :
    ∃ before a after, r.entries = before ++ (id, a) :: after ∧ before.length = index := by
  obtain ⟨hindex, hid⟩ := id_of_placeBetween h
  refine ⟨r.entries.take index, r.entries[index].2, r.entries.drop (index + 1), ?_, ?_⟩
  · conv => lhs; rw [← List.take_append_drop index r.entries, List.drop_eq_getElem_cons hindex]
    rw [← hid]
  · rw [List.length_take]
    omega

/-- A place that is free is behind the smaller ids and before the larger ones. -/
theorem split_of_free (hasc : r.Ascending) (h : r.place id = .free index) :
    ∃ before after, r.entries = before ++ after ∧ before.length = index ∧
      (∀ e ∈ before, e.1 < id) ∧ ∀ e ∈ after, id < e.1 := by
  obtain ⟨hindex, hbefore, hafter⟩ := bounds_of_placeBetween hasc (fun i _ hi => absurd hi (Nat.not_lt_zero i))
    (fun i hi hge => absurd hi (Nat.not_lt.mpr hge)) (Nat.zero_le _) h
  refine ⟨r.entries.take index, r.entries.drop index, (List.take_append_drop index r.entries).symm, ?_,
    fun e he => ?_, fun e he => ?_⟩
  · rw [List.length_take]
    omega
  · obtain ⟨i, hi, rfl⟩ := List.mem_take_iff_getElem.mp he
    exact hbefore i (by omega) (by omega)
  · obtain ⟨i, hi, rfl⟩ := List.mem_drop_iff_getElem.mp he
    exact hafter (index + i) (by omega) (by omega)

/-! ### Operations at the place of an id -/

section

variable {before after : List (UInt8 × α)} {a : α}

/-- An id that has an entry stands between the smaller ones and the larger ones. -/
theorem bounds_of_ascending (hasc : r.Ascending) (h : r.entries = before ++ (id, a) :: after) :
    (∀ e ∈ before, e.1 < id) ∧ ∀ e ∈ after, id < e.1 := by
  rw [Ascending, h, List.pairwise_append, List.pairwise_cons] at hasc
  obtain ⟨-, ⟨hafter, -⟩, hbefore⟩ := hasc
  exact ⟨fun e he => hbefore e he (id, a) List.mem_cons_self, hafter⟩

/-- The entry is the one that looking at every entry finds. -/
theorem find?_of_split (hasc : r.Ascending) (h : r.entries = before ++ (id, a) :: after) :
    r.find? id = some a := by
  have hmem : (id, a) ∈ r.entries := h ▸ List.mem_append_right before List.mem_cons_self
  exact find?_of_mem hasc hmem

/-- Where all ids are smaller or larger, looking at every entry finds nothing. -/
theorem find?_of_bounds (h : r.entries = before ++ after) (hbefore : ∀ e ∈ before, e.1 < id)
    (hafter : ∀ e ∈ after, id < e.1) : r.find? id = none := by
  rw [find?, List.lookup_eq_none_iff]
  intro e he
  rw [bne_iff_ne]
  rintro rfl
  rcases List.mem_append.mp (h ▸ he) with he | he
  · exact UInt8.lt_irrefl _ (hbefore e he)
  · exact UInt8.lt_irrefl _ (hafter e he)

/-- An entry goes between the smaller ids and the larger ones. -/
theorem insert?_of_bounds (a : α) (hbefore : ∀ e ∈ before, e.1 < id) (hafter : ∀ e ∈ after, id < e.1) :
    insert? id a (before ++ after) = some (before ++ (id, a) :: after) := by
  -- Past the smaller ids one by one.
  induction before with
  | nil =>
    cases after with
    | nil => rfl
    | cons e after =>
      obtain ⟨other, b⟩ := e
      rw [List.nil_append, insert?, if_pos (hafter (other, b) List.mem_cons_self)]
      rfl
  | cons e before ih =>
    obtain ⟨other, b⟩ := e
    have hless : other < id := hbefore (other, b) List.mem_cons_self
    have hne : id ≠ other := fun heq => UInt8.lt_irrefl id (heq ▸ hless)
    rw [List.cons_append, insert?, if_neg (UInt8.lt_asymm hless), if_neg hne,
      ih fun e he => hbefore e (List.mem_cons_of_mem _ he)]
    rfl

/-- To insert at a place puts the entry between what is before it and what is behind it. -/
theorem insertIdx_at_split (before after : List (UInt8 × α)) (e : UInt8 × α) :
    (before ++ after).insertIdx before.length e = before ++ e :: after := by
  induction before with
  | nil => rfl
  | cons first before ih => simp [List.insertIdx_succ_cons, ih]

/-- To erase there brings the two together. -/
theorem eraseIdx_at_split (before after : List (UInt8 × α)) (e : UInt8 × α) :
    (before ++ e :: after).eraseIdx before.length = before ++ after := by
  rw [List.eraseIdx_append_of_length_le (Nat.le_refl _), Nat.sub_self]
  rfl

/-- Ids that are smaller or larger are others. -/
theorem dismiss_of_bounds (hbefore : ∀ e ∈ before, e.1 < id) (hafter : ∀ e ∈ after, id < e.1) :
    (before.filter fun (other, _) => other != id) = before ∧
      (after.filter fun (other, _) => other != id) = after :=
  ⟨dismiss_of_forall_ne fun e he => UInt8.ne_of_lt (hbefore e he),
    dismiss_of_forall_ne fun e he => (UInt8.ne_of_lt (hafter e he)).symm⟩

end

/-- Looking up by bisection finds what looking at every entry finds. -/
theorem seek?_eq (hasc : r.Ascending) (id : UInt8) : r.seek? id = r.find? id := by
  unfold seek?
  split
  · next index hplace =>
    obtain ⟨before, a, after, hentries, rfl⟩ := split_of_taken hplace
    rw [find?_of_split hasc hentries, hentries]
    simp
  · next index hplace =>
    obtain ⟨before, after, hentries, -, hbefore, hafter⟩ := split_of_free hasc hplace
    exact (find?_of_bounds hentries hbefore hafter).symm

/-- Adding by bisection adds at the same place, or not at all. -/
theorem enlist?_eq (hasc : r.Ascending) (id : UInt8) (a : α) : r.enlist? id a = r.enroll? id a := by
  unfold enlist?
  split
  · next index hplace =>
    obtain ⟨before, b, after, hentries, -⟩ := split_of_taken hplace
    have hfind := find?_of_split hasc hentries
    rw [eq_comm, Option.eq_none_iff_forall_ne_some]
    intro r' henroll
    rw [find?_of_enroll? hasc henroll] at hfind
    cases hfind
  · next index hplace =>
    obtain ⟨before, after, hentries, rfl, hbefore, hafter⟩ := split_of_free hasc hplace
    rw [enroll?, hentries, insert?_of_bounds a hbefore hafter, insertIdx_at_split]
    rfl

/-- Taking away by bisection takes the same entry away, if there is one. -/
theorem strike_eq (hasc : r.Ascending) (id : UInt8) : r.strike id = r.dismiss id := by
  unfold strike
  split
  · next index hplace =>
    obtain ⟨before, a, after, hentries, rfl⟩ := split_of_taken hplace
    obtain ⟨hbefore, hafter⟩ := bounds_of_ascending hasc hentries
    obtain ⟨hkept, hkept'⟩ := dismiss_of_bounds hbefore hafter
    rw [dismiss, hentries, eraseIdx_at_split, List.filter_append, hkept,
      List.filter_cons_of_neg (by simp), hkept']
  · next index hplace =>
    obtain ⟨before, after, hentries, -, hbefore, hafter⟩ := split_of_free hasc hplace
    obtain ⟨hkept, hkept'⟩ := dismiss_of_bounds hbefore hafter
    rw [dismiss, hentries, List.filter_append, hkept, hkept', ← hentries]

end Depot.Switchboard.Roster
