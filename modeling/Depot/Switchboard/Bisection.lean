import Depot.Switchboard.Roster

/-!
# Finding ids by bisection

The entries of a roster ascend, so the place of an id is found by halving the window that it may be in.
`seek?`, `enlist?` and `strike` look up, add and take away an entry at the place that was found; on a
roster that does not ascend they need not find what is there.
-/

namespace Depot.Switchboard.Roster

variable {α : Type}

/-- Where an id is, or where it belongs if it is not there. -/
inductive Place
  | taken (index : Nat)
  | free (index : Nat)
  deriving DecidableEq, Repr

/-- The place of an id among the entries from `low` on and below `high`. -/
def placeBetween (entries : List (UInt8 × α)) (id : UInt8) (low high : Nat)
    (hhigh : high ≤ entries.length) : Place :=
  if _h : low < high then
    let middle := low + (high - low) / 2
    have _hmiddle : middle < entries.length := by omega
    if entries[middle].1 < id then placeBetween entries id (middle + 1) high hhigh
    else if id < entries[middle].1 then placeBetween entries id low middle (by omega)
    else .taken middle
  else .free low
termination_by high - low

/-- The place of an id. -/
def place (r : Roster α) (id : UInt8) : Place :=
  placeBetween r.entries id 0 r.entries.length (Nat.le_refl _)

/-- The value at the place of an id. -/
def seek? (r : Roster α) (id : UInt8) : Option α :=
  match r.place id with
  | .taken index => (r.entries[index]?).map (·.2)
  | .free _ => none

/-- Adds an entry at the place of its id, unless the id is there. -/
def enlist? (r : Roster α) (id : UInt8) (a : α) : Option (Roster α) :=
  match r.place id with
  | .taken _ => none
  | .free index => some { entries := r.entries.insertIdx index (id, a) }

/-- Takes away the entry at the place of an id, if the id is there. -/
def strike (r : Roster α) (id : UInt8) : Roster α :=
  match r.place id with
  | .taken index => { entries := r.entries.eraseIdx index }
  | .free _ => r

end Depot.Switchboard.Roster
