import Depot.Proofs.Storage.Ways

/-!
# Proper trees

A tree is *proper* if no place has two entries and every entry is in a directory. Every operation on a
tree keeps it so. No operation that makes an entry takes a directory away: a tree `Extends` the one it
was made from, and a path that led to a directory still leads there.

## Key results

- `Proper.mem_children_iff`: the children of a place are the entries directly below it
- `Proper.directory_of_get?_append`: whatever has something below it is a directory
- `site_of_createDirectory`, `site_of_writeFile`: where an operation makes an entry
-/

namespace Depot.Storage.Tree

variable {t t' : Tree} {p : Path} {base place : Place} {name : String} {node node' : Node}

/-- Whether no place has two entries and every entry is in a directory. -/
structure Proper (t : Tree) : Prop where
  distinct : (t.entries.map Prod.fst).Nodup
  parents : ∀ e ∈ t.entries, t.get? e.1.dropLast = some .directory

/-- Whether all directories of a tree are directories of another one. -/
def Extends (t t' : Tree) : Prop := ∀ q, t.get? q = some .directory → t'.get? q = some .directory

theorem Extends.refl (t : Tree) : t.Extends t := fun _ h => h

/-- A path that leads to a directory leads there as long as no directory is taken away. -/
theorem directory?_of_extends (h : t.Extends t') (hp : t.directory? p = some base) :
    t'.directory? p = some base := by
  have hlocate := directory?_eq_some_iff.mp hp
  have hway : AgreeOn p.way t t' := by
    intro q hq
    have hdir := get?_of_passed (locate_eq_ok_iff.mp hlocate).2 q hq
    rw [h q hdir, hdir]
  rw [directory?, locate_congr hway, hlocate]

/-! ### Entries -/

/-- Where no place has two entries, what is looked up is what is there. -/
theorem lookup_eq_some_iff {entries : List (Place × Node)} (h : (entries.map Prod.fst).Nodup) :
    entries.lookup place = some node ↔ (place, node) ∈ entries := by
  induction entries with
  | nil => simp
  | cons e rest ih =>
    obtain ⟨q, n⟩ := e
    rw [List.map_cons, List.nodup_cons] at h
    rw [List.lookup_cons, List.mem_cons]
    by_cases hq : place = q
    · subst hq
      -- Nothing behind the first entry is at its place.
      have hrest : (place, node) ∉ rest := fun hmem => h.1 (List.mem_map.mpr ⟨_, hmem, rfl⟩)
      simp [hrest, eq_comm]
    · simp [beq_eq_false_iff_ne.mpr hq, ih h.2, hq]

/-- The place of a new entry is added to the places, unless it has been there before. -/
theorem places_go (place : Place) (node : Node) (entries : List (Place × Node)) :
    (set.go place node entries).map Prod.fst =
      if place ∈ entries.map Prod.fst then entries.map Prod.fst
      else entries.map Prod.fst ++ [place] := by
  -- Along the entries, to the one with the place or past all of them.
  induction entries with
  | nil => simp [set.go]
  | cons e rest ih =>
    obtain ⟨q, n⟩ := e
    by_cases hq : q = place
    · simp [set.go, hq]
    · rw [set.go, if_neg hq, List.map_cons, ih]
      simp only [List.map_cons, List.mem_cons, Ne.symm hq, false_or, List.cons_append]
      split <;> rfl

/-- An entry that is set adds its place, at most. -/
theorem mem_places_set (h : place ∈ (t.set base node).entries.map Prod.fst) :
    place = base ∨ place ∈ t.entries.map Prod.fst := by
  rw [set, places_go] at h
  split at h
  · exact .inr h
  · simpa [or_comm] using h

/-- Below the top, what is at a place is what the entry says. -/
theorem Proper.get?_eq_some_iff (h : t.Proper) (hplace : place ≠ []) :
    t.get? place = some node ↔ (place, node) ∈ t.entries := by
  rw [get?, if_neg hplace, lookup_eq_some_iff h.distinct]

/-- Whatever is in a tree is in a directory. -/
theorem Proper.get?_dropLast (h : t.Proper) (hplace : t.get? place = some node) :
    t.get? place.dropLast = some .directory := by
  by_cases htop : place = []
  · rw [htop]
    rfl
  · exact h.parents _ ((h.get?_eq_some_iff htop).mp hplace)

/-- Whatever has something below it is a directory. -/
theorem Proper.directory_of_get?_append (h : t.Proper) {below : Place} (hbelow : below ≠ [])
    (hget : t.get? (place ++ below) = some node) : t.get? place = some .directory := by
  -- Name by name, from the place downwards: what has an entry below it has a child, and so is a directory.
  induction below generalizing place with
  | nil => exact absurd rfl hbelow
  | cons name rest ih =>
    have hchild : ∃ node, t.get? (place ++ [name]) = some node := by
      rw [List.append_cons] at hget
      by_cases hrest : rest = []
      · rw [hrest, List.append_nil] at hget
        exact ⟨node, hget⟩
      · exact ⟨.directory, ih hrest hget⟩
    obtain ⟨node, hnode⟩ := hchild
    have hparent := h.get?_dropLast hnode
    rwa [List.dropLast_concat] at hparent

/-- The children of a place are the entries directly below it. -/
theorem Proper.mem_children_iff (h : t.Proper) :
    (name, node) ∈ t.children place ↔ t.get? (place ++ [name]) = some node := by
  rw [h.get?_eq_some_iff (by simp), children, List.mem_filterMap]
  constructor
  · rintro ⟨⟨q, n⟩, hmem, heq⟩
    simp only at heq
    split at heq
    · next last hlast =>
      split at heq
      · next hq =>
        cases heq
        rwa [hq] at hmem
      · cases heq
    · cases heq
  · intro hmem
    exact ⟨(place ++ [name], node), hmem, by simp⟩

/-! ### Changes -/

/-- Whether an entry can be made at a place: the place is in a directory and none is there. -/
structure Site (t : Tree) (place : Place) : Prop where
  ne_nil : place ≠ []
  parent : t.get? place.dropLast = some .directory
  vacant : t.get? place ≠ some .directory

/-- To set an entry at a site takes no directory away. -/
theorem Site.extends_set (h : t.Site place) (node : Node) : t.Extends (t.set place node) := by
  intro q hq
  rw [get?_set t place q node h.ne_nil, if_neg]
  · exact hq
  · rintro rfl
    exact h.vacant hq

/-- To set an entry at a site keeps a tree proper. -/
theorem Site.proper_set (h : t.Site place) (ht : t.Proper) (node : Node) :
    (t.set place node).Proper where
  distinct := by
    rw [set, places_go]
    split
    · exact ht.distinct
    · next hnew =>
      refine List.nodup_append.mpr ⟨ht.distinct, by simp, fun q hq q' hq' => ?_⟩
      rintro rfl
      exact hnew (List.mem_singleton.mp hq' ▸ hq)
  parents := by
    intro e he
    refine h.extends_set node _ ?_
    rcases mem_places_set (List.mem_map_of_mem he) with hplace | hplace
    · rw [hplace]
      exact h.parent
    · obtain ⟨old, hold, heq⟩ := List.mem_map.mp hplace
      rw [← heq]
      exact ht.parents old hold

/-- A way from an entry leads to an entry. -/
theorem Proper.get?_of_walk (h : t.Proper) {steps : List Path.Step} (hbase : t.get? base = some node)
    (hwalk : t.walk base node steps = .ok (place, node')) : t.get? place = some node' := by
  -- Step by step. One goes up from an entry to its parent, and down to an entry that was found.
  induction steps generalizing base node with
  | nil =>
    cases hwalk
    exact hbase
  | cons step rest ih =>
    cases node with
    | file content => cases hwalk
    | directory =>
      cases step with
      | here => exact ih hbase hwalk
      | up => exact ih (h.get?_dropLast hbase) hwalk
      | down name =>
        simp only [walk] at hwalk
        split at hwalk
        · cases hwalk
        · cases hwalk
        · next next hfound => exact ih (get?_of_lookUp hfound) hwalk

/-- Where an entry is to be made is in a directory. -/
theorem Proper.site_of_madeAt (h : t.Proper) (hmade : t.MadeAt p place)
    (hvacant : t.get? place ≠ some .directory) : t.Site place := by
  obtain ⟨name, -, hplace, -⟩ := hmade.down
  refine ⟨?_, h.get?_of_walk rfl hmade.walk, hvacant⟩
  rw [hplace]
  exact List.append_ne_nil_of_right_ne_nil _ (List.cons_ne_nil name [])

/-- A directory is made at a site. -/
theorem site_of_createDirectory (h : t.Proper) (hmade : t.createDirectory p = .ok t') :
    ∃ place, t.Site place ∧ t' = t.set place .directory := by
  obtain ⟨place, hplace, hnone, rfl⟩ := madeAt_of_createDirectory hmade
  refine ⟨place, h.site_of_madeAt hplace ?_, rfl⟩
  rw [hnone]
  exact (Option.some_ne_none _).symm

/-- A file is written at a site. -/
theorem site_of_writeFile (h : t.Proper) {content : Content} (hmade : t.writeFile p content = .ok t') :
    ∃ place, t.Site place ∧ t' = t.set place (.file content) := by
  obtain ⟨place, hplace, hfile, rfl⟩ := madeAt_of_writeFile hmade
  exact ⟨place, h.site_of_madeAt hplace hfile, rfl⟩

/-! ### Trees as they are built -/

theorem proper_empty : ({} : Tree).Proper := ⟨List.nodup_nil, fun e he => by cases he⟩

/-- To make a directory keeps a tree proper. -/
theorem Proper.createDirectory (h : t.Proper) (hmade : t.createDirectory p = .ok t') : t'.Proper := by
  obtain ⟨place, hsite, rfl⟩ := site_of_createDirectory h hmade
  exact hsite.proper_set h _

/-- To write a file keeps a tree proper. -/
theorem Proper.writeFile (h : t.Proper) {content : Content} (hmade : t.writeFile p content = .ok t') :
    t'.Proper := by
  obtain ⟨place, hsite, rfl⟩ := site_of_writeFile h hmade
  exact hsite.proper_set h _

end Depot.Storage.Tree
