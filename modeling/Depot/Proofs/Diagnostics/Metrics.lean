import Depot.Diagnostics.Metrics

/-!
# Counting

A series that is counted grows by one, and the others stay as they are.

## Key results

- `Metrics.value_count`: the value of a series after another count
-/

namespace Depot.Metrics

private theorem lookup_cons (s t : Series) (n : Int) (counts : List (Series × Int)) :
    ((s, n) :: counts).lookup t = if t = s then some n else counts.lookup t := by
  by_cases hts : t = s
  · rw [if_pos hts, hts, List.lookup_cons_self]
  · rw [if_neg hts, List.lookup_cons, beq_eq_false_iff_ne.mpr hts]

private theorem lookup_go (s t : Series) (amount : Int) (counts : List (Series × Int)) :
    ((add.go s amount counts).lookup t).getD 0 =
      (counts.lookup t).getD 0 + if t = s then amount else 0 := by
  induction counts with
  | nil =>
    rw [add.go, lookup_cons]
    split <;> simp
  | cons entry rest ih =>
    obtain ⟨u, n⟩ := entry
    rw [add.go, lookup_cons]
    split
    · next hus =>
      rw [lookup_cons, hus]
      split <;> simp
    · next hus =>
      rw [lookup_cons]
      split
      · next htu =>
        rw [if_neg (htu ▸ hus), Int.add_zero]
      · exact ih

theorem value_count (m : Metrics) (s t : Series) :
    (m.count s).value t = m.value t + if t = s then 1 else 0 :=
  lookup_go s t 1 m.counts

end Depot.Metrics
