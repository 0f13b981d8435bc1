import Depot.Switchboard.Roster

/-!
# Rosters as a whole

A roster stays in the ascending order of its ids through every operation, so an id has one entry at
most. With that, a number that is summed over the values changes by what one value contributes when
the value of an id is changed or taken away.

## Key results

- `ascending_enroll?`, `ascending_dismiss`, `ascending_map`, `ascending_amend`
- `All.enroll?`, `All.dismiss`, `All.map`, `All.amend`: what holds of all values goes on to hold
- `exists_enroll?`, `find?_enroll?`: an id that is not there can be added, and is found there
- `find?_map`, `mem_ids_iff`: what is found, and whether anything is
- `total_amend`, `total_dismiss`: sums over the values
-/

namespace Depot.Switchboard.Roster

variable {α : Type}

/-! ### Order -/

/-- An insertion adds one entry. -/
private theorem mem_insert? {id : UInt8} {a : α} {entries entries' : List (UInt8 × α)}
    (h : insert? id a entries = some entries') : ∀ e ∈ entries', e = (id, a) ∨ e ∈ entries := by
  induction entries generalizing entries' with
  | nil =>
    cases h
    simp
  | cons head rest ih =>
    obtain ⟨other, b⟩ := head
    simp only [insert?] at h
    split at h
    · cases h
      intro e he
      exact List.mem_cons.mp he
    · split at h
      · cases h
      · obtain ⟨rest', hrest, rfl⟩ := Option.map_eq_some_iff.mp h
        intro e he
        rcases List.mem_cons.mp he with rfl | he
        · exact .inr List.mem_cons_self
        · exact (ih hrest e he).imp_right (List.mem_cons_of_mem _)

/-- An insertion keeps the order. -/
private theorem pairwise_insert? {id : UInt8} {a : α} {entries entries' : List (UInt8 × α)}
    (hasc : entries.Pairwise fun e f => e.1 < f.1) (h : insert? id a entries = some entries') :
    entries'.Pairwise fun e f => e.1 < f.1 := by
  induction entries generalizing entries' with
  | nil =>
    cases h
    exact List.pairwise_singleton _ _
  | cons head rest ih =>
    obtain ⟨other, b⟩ := head
    obtain ⟨hfirst, hrest⟩ := List.pairwise_cons.mp hasc
    simp only [insert?] at h
    split at h
    · next hlt =>
      -- The new entry comes first, and all others are behind the one that it is in front of.
      cases h
      refine List.pairwise_cons.mpr ⟨fun e he => ?_, hasc⟩
      rcases List.mem_cons.mp he with rfl | he
      · exact hlt
      · exact UInt8.lt_trans hlt (hfirst e he)
    · next hge =>
      split at h
      · cases h
      · next hne =>
        obtain ⟨rest', hmore, rfl⟩ := Option.map_eq_some_iff.mp h
        have hlt : other < id := UInt8.lt_of_le_of_ne (UInt8.not_lt.mp hge) (Ne.symm hne)
        refine List.pairwise_cons.mpr ⟨fun e he => ?_, ih hrest hmore⟩
        rcases mem_insert? hmore e he with rfl | he
        · exact hlt
        · exact hfirst e he

/-- But for the order, the new entry is put in front. -/
private theorem perm_insert? {id : UInt8} {a : α} {entries entries' : List (UInt8 × α)}
    (h : insert? id a entries = some entries') : entries'.Perm ((id, a) :: entries) := by
  induction entries generalizing entries' with
  | nil =>
    cases h
    exact .refl _
  | cons head rest ih =>
    obtain ⟨other, b⟩ := head
    simp only [insert?] at h
    split at h
    · cases h
      exact .refl _
    · split at h
      · cases h
      · obtain ⟨rest', hrest, rfl⟩ := Option.map_eq_some_iff.mp h
        exact ((ih hrest).cons _).trans (.swap _ _ _)

/-- An entry that is added is all that is new. -/
theorem perm_enroll? {r r' : Roster α} {id : UInt8} {a : α} (h : r.enroll? id a = some r') :
    r'.entries.Perm ((id, a) :: r.entries) := by
  obtain ⟨entries, hentries, rfl⟩ := Option.map_eq_some_iff.mp h
  exact perm_insert? hentries

theorem ascending_enroll? {r r' : Roster α} {id : UInt8} {a : α} (h : r.Ascending)
    (hr : r.enroll? id a = some r') : r'.Ascending := by
  obtain ⟨entries, hentries, rfl⟩ := Option.map_eq_some_iff.mp hr
  exact pairwise_insert? h hentries

theorem ascending_dismiss {r : Roster α} (id : UInt8) (h : r.Ascending) :
    (r.dismiss id).Ascending := List.Pairwise.sublist List.filter_sublist h

theorem ascending_map {β : Type} {r : Roster α} (f : α → β) (h : r.Ascending) :
    (r.map f).Ascending := List.pairwise_map.mpr h

theorem ascending_amend {r : Roster α} (id : UInt8) (f : α → α) (h : r.Ascending) :
    (r.amend id f).Ascending := List.pairwise_map.mpr h

/-! ### All values -/

/-- What holds of every value. -/
def All (holds : α → Prop) (r : Roster α) : Prop := ∀ e ∈ r.entries, holds e.2

/-- It holds of what is found. -/
theorem All.of_find? {holds : α → Prop} {r : Roster α} {id : UInt8} {a : α} (h : r.All holds)
    (hfind : r.find? id = some a) : holds a := by
  obtain ⟨before, after, hentries, -⟩ := List.lookup_eq_some_iff.mp hfind
  exact h (id, a) (by rw [hentries]; simp)

/-- It goes on to hold if it holds of the value that is added. -/
theorem All.enroll? {holds : α → Prop} {r r' : Roster α} {id : UInt8} {a : α} (h : r.All holds)
    (ha : holds a) (hr : r.enroll? id a = some r') : r'.All holds := by
  obtain ⟨entries, hentries, rfl⟩ := Option.map_eq_some_iff.mp hr
  intro e he
  rcases mem_insert? hentries e he with rfl | he
  · exact ha
  · exact h e he

/-- To take a value away breaks nothing. -/
theorem All.dismiss {holds : α → Prop} {r : Roster α} (h : r.All holds) (id : UInt8) :
    (r.dismiss id).All holds := fun e he => h e (List.mem_filter.mp he).1

/-- If all values are replaced, the new ones are as good as the old ones. -/
theorem All.map {β : Type} {holds : α → Prop} {r : Roster α} (h : r.All holds) {f : α → β}
    {holds' : β → Prop} (hf : ∀ a, holds a → holds' (f a)) : (r.map f).All holds' := by
  intro e he
  obtain ⟨⟨id, a⟩, hmem, rfl⟩ := List.mem_map.mp he
  exact hf a (h _ hmem)

/-- If a value is changed, the others stay. -/
theorem All.amend {holds : α → Prop} {r : Roster α} (h : r.All holds) {f : α → α} (id : UInt8)
    (hf : ∀ a, holds a → holds (f a)) : (r.amend id f).All holds := by
  intro e he
  -- Whether it was changed or not, the entry comes from one that was there.
  obtain ⟨⟨other, a⟩, hmem, rfl⟩ := List.mem_map.mp he
  have ha : holds a := h _ hmem
  show holds (if other = id then f a else a)
  split
  · exact hf a ha
  · exact ha

/-! ### Finding -/

/-- An id that is not there can be inserted. -/
private theorem exists_insert? {id : UInt8} {a : α} {entries : List (UInt8 × α)}
    (h : entries.lookup id = none) : ∃ entries', insert? id a entries = some entries' := by
  -- Only the id itself could be in the way, and no entry has it.
  induction entries with
  | nil => exact ⟨_, rfl⟩
  | cons head rest ih =>
    obtain ⟨other, b⟩ := head
    have hne : id ≠ other := by
      rintro rfl
      rw [List.lookup_cons_self] at h
      cases h
    rw [List.lookup_cons, beq_eq_false_iff_ne.mpr hne] at h
    obtain ⟨rest', hrest⟩ := ih h
    simp only [insert?, if_neg hne, hrest]
    split
    · exact ⟨_, rfl⟩
    · exact ⟨_, rfl⟩

/-- What is found after an insertion. -/
private theorem lookup_insert? {id : UInt8} {a : α} {entries entries' : List (UInt8 × α)}
    (h : insert? id a entries = some entries') (other : UInt8) :
    entries'.lookup other = if other = id then some a else entries.lookup other := by
  -- Whichever entry is in front, it is the new one that is found under its id.
  have hfront (rest : List (UInt8 × α)) : ((id, a) :: rest).lookup other =
      if other = id then some a else rest.lookup other := by
    rw [List.lookup_cons]
    split
    · next hid => rw [if_pos (beq_iff_eq.mp hid)]
    · next hid => rw [if_neg (beq_eq_false_iff_ne.mp hid)]
  induction entries generalizing entries' with
  | nil =>
    cases h
    exact hfront []
  | cons head rest ih =>
    obtain ⟨key, b⟩ := head
    simp only [insert?] at h
    split at h
    · cases h
      exact hfront _
    · split at h
      · cases h
      · next hne =>
        obtain ⟨rest', hrest, rfl⟩ := Option.map_eq_some_iff.mp h
        rw [List.lookup_cons, List.lookup_cons, ih hrest]
        split
        · next hkey =>
          rw [if_neg]
          rw [beq_iff_eq.mp hkey]
          exact Ne.symm hne
        · rfl

/-- An id that could be inserted was not there. -/
private theorem lookup_of_insert? {id : UInt8} {a : α} {entries entries' : List (UInt8 × α)}
    (hasc : entries.Pairwise fun e f => e.1 < f.1) (h : insert? id a entries = some entries') :
    entries.lookup id = none := by
  -- As far as the place where the new entry goes: before it the ids differ, and behind it they are larger.
  induction entries generalizing entries' with
  | nil => rfl
  | cons head rest ih =>
    obtain ⟨other, b⟩ := head
    obtain ⟨hfirst, hrest⟩ := List.pairwise_cons.mp hasc
    simp only [insert?] at h
    split at h
    · next hlt =>
      -- All ids are larger than the new one.
      rw [List.lookup_eq_none_iff]
      intro e he
      have hless : id < e.1 := by
        rcases List.mem_cons.mp he with rfl | he
        · exact hlt
        · exact UInt8.lt_trans hlt (hfirst e he)
      rw [bne_iff_ne]
      rintro rfl
      exact UInt8.lt_irrefl _ hless
    · split at h
      · cases h
      · next hne =>
        obtain ⟨rest', hmore, -⟩ := Option.map_eq_some_iff.mp h
        rw [List.lookup_cons, beq_eq_false_iff_ne.mpr hne]
        exact ih hrest hmore

/-- What can be added was not there. -/
theorem find?_of_enroll? {r r' : Roster α} {id : UInt8} {a : α} (hasc : r.Ascending)
    (h : r.enroll? id a = some r') : r.find? id = none := by
  obtain ⟨entries, hentries, -⟩ := Option.map_eq_some_iff.mp h
  exact lookup_of_insert? hasc hentries

/-- An id that is not there can be added. -/
theorem exists_enroll? {r : Roster α} {id : UInt8} (a : α) (h : r.find? id = none) :
    ∃ r', r.enroll? id a = some r' := by
  obtain ⟨entries, hentries⟩ := exists_insert? (a := a) h
  exact ⟨⟨entries⟩, by simp only [enroll?, hentries, Option.map_some]⟩

/-- What is added is found under its id, and all else is found as before. -/
theorem find?_enroll? {r r' : Roster α} {id : UInt8} {a : α} (h : r.enroll? id a = some r')
    (other : UInt8) : r'.find? other = if other = id then some a else r.find? other := by
  obtain ⟨entries, hentries, rfl⟩ := Option.map_eq_some_iff.mp h
  exact lookup_insert? hentries other

/-- An id can be added just if it is not there. -/
theorem enroll?_eq_none_iff {r : Roster α} {id : UInt8} {a : α} (hasc : r.Ascending) :
    r.enroll? id a = none ↔ ∃ b, r.find? id = some b := by
  rw [← Option.ne_none_iff_exists']
  constructor
  · intro htaken hfree
    obtain ⟨r', henroll⟩ := exists_enroll? a hfree
    rw [henroll] at htaken
    cases htaken
  · intro hfound
    rw [Option.eq_none_iff_forall_ne_some]
    exact fun r' henroll => hfound (find?_of_enroll? hasc henroll)

/-- An id has one entry at most, so every entry is found under its id. -/
theorem find?_of_mem {r : Roster α} {e : UInt8 × α} (hasc : r.Ascending) (h : e ∈ r.entries) :
    r.find? e.1 = some e.2 := by
  obtain ⟨entries⟩ := r
  simp only [find?, Ascending] at *
  induction entries with
  | nil => cases h
  | cons head rest ih =>
    obtain ⟨hfirst, hrest⟩ := List.pairwise_cons.mp hasc
    rcases List.mem_cons.mp h with rfl | h
    · exact List.lookup_cons_self
    · have hne : e.1 ≠ head.1 := fun heq => UInt8.lt_irrefl e.1 (heq ▸ hfirst e h)
      rw [List.lookup_cons, beq_eq_false_iff_ne.mpr hne]
      exact ih hrest h

/-- What is found is what was found, with its value replaced. -/
theorem find?_map {β : Type} (r : Roster α) (f : α → β) (id : UInt8) :
    (r.map f).find? id = (r.find? id).map f := by
  obtain ⟨entries⟩ := r
  simp only [find?, map]
  induction entries with
  | nil => rfl
  | cons e rest ih =>
    rw [List.map_cons, List.lookup_cons, List.lookup_cons, ih]
    split <;> rfl

/-- An id is there just if something is found under it. -/
theorem mem_ids_iff {r : Roster α} {id : UInt8} : id ∈ r.ids ↔ ∃ a, r.find? id = some a := by
  constructor
  · intro h
    obtain ⟨e, he, rfl⟩ := List.mem_map.mp h
    rw [← Option.ne_none_iff_exists']
    intro hnone
    exact absurd (List.lookup_eq_none_iff.mp hnone e he) (by simp)
  · rintro ⟨a, ha⟩
    obtain ⟨before, after, hentries, -⟩ := List.lookup_eq_some_iff.mp ha
    rw [ids, hentries]
    simp

theorem find?_of_isEmpty {r : Roster α} (h : r.isEmpty = true) (id : UInt8) : r.find? id = none := by
  rw [find?, List.isEmpty_iff.mp h]
  rfl

theorem mem_values_of_find? {r : Roster α} {id : UInt8} {a : α} (h : r.find? id = some a) :
    a ∈ r.values := by
  obtain ⟨before, after, hentries, -⟩ := List.lookup_eq_some_iff.mp h
  rw [values, hentries]
  simp

/-- No entry is changed by an id that none has. -/
private theorem amend_of_forall_ne {id : UInt8} {f : α → α} {entries : List (UInt8 × α)}
    (h : ∀ e ∈ entries, e.1 ≠ id) :
    entries.map (fun (other, a) => (other, if other = id then f a else a)) = entries := by
  conv => rhs; rw [← List.map_id entries]
  refine List.map_congr_left fun e he => ?_
  simp only [h e he, ↓reduceIte, id_eq]

/-- Where nothing is found there is nothing to change. -/
theorem amend_of_find?_none {r : Roster α} {id : UInt8} (h : r.find? id = none) (f : α → α) :
    r.amend id f = r := by
  have hne (e : UInt8 × α) (he : e ∈ r.entries) : e.1 ≠ id := by
    rintro rfl
    exact absurd (List.lookup_eq_none_iff.mp h e he) (by simp)
  rw [amend, amend_of_forall_ne hne]

/-! ### Sums -/

/-- The sum of a number over all values. -/
def total (weight : α → Nat) (r : Roster α) : Nat :=
  r.values.foldr (fun a sum => weight a + sum) 0

/-- No entry is taken away by an id that none has. -/
theorem dismiss_of_forall_ne {id : UInt8} {entries : List (UInt8 × α)} (h : ∀ e ∈ entries, e.1 ≠ id) :
    entries.filter (fun (other, _) => other != id) = entries :=
  List.filter_eq_self.mpr fun e he => bne_iff_ne.mpr (h e he)

/-- Changing the value of an id changes a sum by that value alone. -/
theorem total_amend {r : Roster α} {id : UInt8} {a : α} (weight : α → Nat) (f : α → α)
    (hasc : r.Ascending) (h : r.find? id = some a) :
    (r.amend id f).total weight + weight a = r.total weight + weight (f a) := by
  obtain ⟨entries⟩ := r
  simp only [total, values, Roster.amend, find?, Ascending] at *
  induction entries with
  | nil => cases h
  | cons head rest ih =>
    obtain ⟨other, b⟩ := head
    obtain ⟨hfirst, hrest⟩ := List.pairwise_cons.mp hasc
    by_cases hid : other = id
    · -- The ids behind it are larger, so no other entry is changed.
      subst hid
      rw [List.lookup_cons_self] at h
      cases h
      have hne (e : UInt8 × α) (he : e ∈ rest) : e.1 ≠ other := (UInt8.ne_of_lt (hfirst e he)).symm
      rw [List.map_cons, amend_of_forall_ne hne]
      simp only [↓reduceIte, List.map_cons, List.foldr_cons]
      omega
    · rw [List.lookup_cons, beq_eq_false_iff_ne.mpr (Ne.symm hid)] at h
      have := ih hrest h
      simp only [List.map_cons, List.foldr_cons, hid, ↓reduceIte]
      omega

/-- Taking away the value of an id takes away what it contributed. -/
theorem total_dismiss {r : Roster α} {id : UInt8} {a : α} (weight : α → Nat) (hasc : r.Ascending)
    (h : r.find? id = some a) : (r.dismiss id).total weight + weight a = r.total weight := by
  obtain ⟨entries⟩ := r
  simp only [total, values, Roster.dismiss, find?, Ascending] at *
  induction entries with
  | nil => cases h
  | cons head rest ih =>
    obtain ⟨other, b⟩ := head
    obtain ⟨hfirst, hrest⟩ := List.pairwise_cons.mp hasc
    by_cases hid : other = id
    · -- The ids behind it are larger, so no other entry goes.
      subst hid
      rw [List.lookup_cons_self] at h
      cases h
      have hne (e : UInt8 × α) (he : e ∈ rest) : e.1 ≠ other := (UInt8.ne_of_lt (hfirst e he)).symm
      rw [List.filter_cons_of_neg (by simp), dismiss_of_forall_ne hne]
      simp only [List.map_cons, List.foldr_cons]
      omega
    · rw [List.lookup_cons, beq_eq_false_iff_ne.mpr (Ne.symm hid)] at h
      have := ih hrest h
      rw [List.filter_cons_of_pos (by simpa using hid)]
      simp only [List.map_cons, List.foldr_cons]
      omega

end Depot.Switchboard.Roster
