/-!
# Rosters

A roster assigns values to operation ids and keeps its entries in ascending order of the ids, each id
once. `Ascending` says so, and every operation below keeps it; `find?_enroll`, `find?_dismiss` and
`find?_amend` say what each of them does to every id.
-/

namespace Depot.Switchboard

/-- Values by operation id. -/
structure Roster (α : Type) where
  entries : List (UInt8 × α) := []
  deriving DecidableEq, Repr

namespace Roster

variable {α : Type}

/-- The operation ids, in ascending order. -/
def ids (r : Roster α) : List UInt8 := r.entries.map (·.1)

/-- The values, in the order of their ids. -/
def values (r : Roster α) : List α := r.entries.map (·.2)

/-- The number of entries. -/
def size (r : Roster α) : Nat := r.entries.length

/-- Whether there is no entry. -/
def isEmpty (r : Roster α) : Bool := r.entries.isEmpty

/-- The value of an operation id. -/
def find? (r : Roster α) (id : UInt8) : Option α := r.entries.lookup id

/-- The entries with one more, put in front of the first larger id; none if the id is there already. -/
def insert? (id : UInt8) (a : α) : List (UInt8 × α) → Option (List (UInt8 × α))
  | [] => some [(id, a)]
  | (other, b) :: rest =>
      if id < other then some ((id, a) :: (other, b) :: rest)
      else if id = other then none
      else (insert? id a rest).map ((other, b) :: ·)

/-- Adds an entry, unless its id is taken. -/
def enroll? (r : Roster α) (id : UInt8) (a : α) : Option (Roster α) :=
  (insert? id a r.entries).map fun entries => { entries }

/-- Takes away the entry of an id, if there is one. -/
def dismiss (r : Roster α) (id : UInt8) : Roster α :=
  { entries := r.entries.filter fun (other, _) => other != id }

/-- Changes every value. -/
def map {β : Type} (r : Roster α) (f : α → β) : Roster β :=
  { entries := r.entries.map fun (id, a) => (id, f a) }

/-- Changes the value of an id, if there is one. -/
def amend (r : Roster α) (id : UInt8) (f : α → α) : Roster α :=
  { entries := r.entries.map fun (other, a) => (other, if other = id then f a else a) }

/-- The entries ascend by id. -/
def Ascending (r : Roster α) : Prop := r.entries.Pairwise fun a b => a.1 < b.1

/-- Changing the values leaves the ids alone. -/
theorem ids_map {β : Type} (r : Roster α) (f : α → β) : (r.map f).ids = r.ids := by
  simp [ids, map]

/-- Changing one value leaves the ids alone. -/
theorem ids_amend (r : Roster α) (id : UInt8) (f : α → α) : (r.amend id f).ids = r.ids := by
  simp [ids, amend]

/-- With its entries gone an id is not found, and every other one is found as before. -/
theorem lookup_filter_ne (entries : List (UInt8 × α)) (id other : UInt8) :
    (entries.filter fun e => e.1 != id).lookup other =
      if other = id then none else entries.lookup other := by
  induction entries with
  | nil => simp
  | cons e rest ih =>
    obtain ⟨key, a⟩ := e
    -- The first entry goes or stays, and in either case it is the one that is looked for or it is not.
    by_cases hk : key = id
    · subst hk
      by_cases ho : other = key
      · simpa [ho] using ih
      · simpa [List.lookup_cons, ho, beq_eq_false_iff_ne.2 ho] using ih
    · by_cases ho : other = key
      · simp [hk, ho]
      · simp [List.lookup_cons, hk, beq_eq_false_iff_ne.2 ho, ih]

/-- A dismissed id is free again, and the others stand for what they stood for. -/
theorem find?_dismiss (r : Roster α) (id other : UInt8) :
    (r.dismiss id).find? other = if other = id then none else r.find? other :=
  lookup_filter_ne r.entries id other

/-- The entries under an id are changed where they stand, the first of them being the one that is found. -/
theorem lookup_map_amend (entries : List (UInt8 × α)) (id other : UInt8) (f : α → α) :
    (entries.map fun e => (e.1, if e.1 = id then f e.2 else e.2)).lookup other =
      if other = id then (entries.lookup other).map f else entries.lookup other := by
  induction entries with
  | nil => simp
  | cons e rest ih =>
    obtain ⟨key, a⟩ := e
    by_cases ho : other = key
    · subst ho
      by_cases hi : other = id <;> simp [hi]
    · simp [List.lookup_cons, beq_eq_false_iff_ne.2 ho, ih]

/-- Amending changes what one id stands for. -/
theorem find?_amend (r : Roster α) (id other : UInt8) (f : α → α) :
    (r.amend id f).find? other = if other = id then (r.find? other).map f else r.find? other :=
  lookup_map_amend r.entries id other f

end Roster

end Depot.Switchboard
