import Depot.Proofs.Storage.Allocation
import Depot.Proofs.Storage.Making

/-!
# Where a store changes its tree

A store puts files at places of two forms: a plain name under the shared root, or a plain name under the
directory of a user. `filePlace?` gives the place without a tree, and nobody can choose a name that leads
out of it. Besides that, a call of a store can only make the directory of a new user id.

`Changes` says what a call that goes well puts where, and that it takes nothing away for it: a file comes
where there was none or where a file was, and a directory comes where there was nothing.

## Key results

- `Path.isPlainName_iff`, `filePlace?_eq_some_iff`: where a file may lie
- `filePlace?_of_resolve`: the path of a file leads to its place
- `perform_changes`: a call changes what `Changes` says and nothing else
- `perform_of_fails`: a call that fails changes nothing
-/

namespace Depot.Storage

namespace Path

/-- A text without slashes is not split. -/
theorem splitSlash_of_noSlash {text : List Char} (h : ∀ c ∈ text, c ≠ '/') : splitSlash text = [text] := by
  induction text with
  | nil => rfl
  | cons c rest ih =>
    rw [splitSlash, if_neg (h c List.mem_cons_self), ih fun c hc => h c (List.mem_cons_of_mem _ hc)]

/-- A name is plain just if it is not empty, is not one of the dots that lead elsewhere, and has no
separator. -/
theorem isPlainName_iff {name : String} : isPlainName name = true ↔
    (name ≠ "" ∧ name ≠ "." ∧ name ≠ "..") ∧ ∀ c ∈ name.toList, c ≠ '/' ∧ c ≠ '\\' := by
  have hseparators : (!name.toList.any isSeparator) = true ↔ ∀ c ∈ name.toList, c ≠ '/' ∧ c ≠ '\\' := by
    simp [isSeparator]
  -- A name that goes down to itself as its own only step, written out.
  constructor
  · intro h
    have hpiece := ofPiece_of_plain h
    rw [isPlainName, Bool.and_eq_true] at h
    refine ⟨⟨?_, ?_, ?_⟩, hseparators.mp h.2⟩
    all_goals
      rintro rfl
      cases hpiece
  · rintro ⟨⟨hempty, hdot, hdots⟩, hnone⟩
    have hpieces : (ofText name).pieces = [name] := by
      rw [ofText, splitSlash_of_noSlash fun c hc => (hnone c hc).1]
      exact congrArg (fun s => [s]) String.ofList_toList
    have hstep : Step.ofPiece name = .down name := by
      unfold Step.ofPiece
      split
      · exact absurd rfl hempty
      · exact absurd rfl hdot
      · exact absurd rfl hdots
      · rfl
    rw [isPlainName, Bool.and_eq_true, beq_iff_eq]
    refine ⟨?_, hseparators.mpr hnone⟩
    rw [steps, hpieces, List.map_singleton, hstep]

/-- The path to an entry of a directory leads on from where the path to the directory leads. -/
theorem destination_child (p : Path) {name : String} (hname : Step.ofPiece name = .down name) :
    (p.child name).destination = p.destination ++ [name] := by
  have hstem : p.destination = reached [] (p.stem.map Step.ofPiece) := by
    rcases p.steps_eq_stem with h | h
    · rw [destination, h]
    · rw [destination, h, reached_append]
      rfl
  rw [hstem, destination, steps_child, hname, reached_append]
  rfl

end Path

namespace Store

variable {s : Store} {t t' : Tree} {kind : FileKind} {user id : UInt32} {name : String}
  {data : List UInt8} {path : Path} {place : Place} {call : Call}

/-- Where a file of a kind with a name lies, if files of the kind are stored and the name is plain. -/
def filePlace? (s : Store) (kind : FileKind) (user : UInt32) (name : String) : Option Place :=
  if isPlainName name then
    match kind with
    | .dlc => some (s.dlcRoot.destination ++ [name])
    | .user => some (s.userRoot.destination ++ [toString user.toNat, name])
    | _ => none
  else none

/-- Where the directory of a user lies. -/
def userPlace (s : Store) (user : UInt32) : Place := s.userRoot.destination ++ [toString user.toNat]

theorem destination_userDirectory (s : Store) (user : UInt32) :
    (s.userDirectory user).destination = s.userPlace user :=
  Path.destination_child _ (ofPiece_toString _)

/-- A file has a place if its name is plain and files of its kind are stored at all. -/
theorem filePlace?_eq_some_iff : s.filePlace? kind user name = some place ↔ isPlainName name = true ∧
    (kind = .dlc ∧ place = s.dlcRoot.destination ++ [name] ∨
      kind = .user ∧ place = s.userPlace user ++ [name]) := by
  cases hplain : isPlainName name with
  | false => simp [filePlace?, hplain]
  | true =>
    cases kind <;> simp [filePlace?, hplain, userPlace, eq_comm]

/-- The path of a file leads to its place, wherever the roots are. -/
theorem filePlace?_of_resolve (h : s.resolve kind user name = .ok path) :
    s.filePlace? kind user name = some path.destination := by
  obtain ⟨hplain, dir, hdir, rfl⟩ := resolve_eq_ok h
  have hchild := Path.destination_child dir (Path.ofPiece_of_plain hplain)
  rw [filePlace?_eq_some_iff]
  refine ⟨hplain, ?_⟩
  -- Only two kinds have files, each under a root of its own.
  cases kind with
  | dlc =>
    cases hdir
    exact .inl ⟨rfl, hchild⟩
  | user =>
    cases hdir
    rw [destination_userDirectory] at hchild
    exact .inr ⟨rfl, hchild⟩
  | _ => cases hdir

/-- The place of a file is the end of the way to it. -/
theorem mem_way_of_resolve (h : s.resolve kind user name = .ok path) : path.destination ∈ path.way := by
  obtain ⟨hplain, dir, -, rfl⟩ := resolve_eq_ok h
  rw [Path.way_child dir (Path.ofPiece_of_plain hplain)]
  exact List.mem_append_right _ (List.mem_singleton_self _)

/-- A file is not put in the place of a directory. -/
theorem get?_of_save (h : s.save t kind user name data = .ok t')
    (hpath : s.resolve kind user name = .ok path) : t.get? path.destination ≠ some .directory := by
  obtain ⟨place, hmade, hfile, -⟩ := Tree.madeAt_of_writeFile (writeFile_of_save h hpath)
  rw [hmade.destination_eq.1]
  exact hfile

/-- What a call that goes well puts at a place, in a tree that has room for it there. -/
inductive Call.Changes (s : Store) (t : Tree) : Call → Place → Node → Prop
  | stored {kind : FileKind} {user : UInt32} {name : String} {data : List UInt8} {t' : Tree} {place : Place}
      (hplace : s.filePlace? kind user name = some place)
      (hsave : s.save t kind user name data = .ok t') (hfile : t.get? place ≠ some .directory) :
      Changes s t (.save kind user name data) place (.file { bytes := data })
  | allotted {id : UInt32} {t' : Tree} (hallocate : s.allocate t = .ok (id, t'))
      (hfree : t.get? (s.userPlace id) = none) :
      Changes s t .allocate (s.userPlace id) .directory

/-- Whether it says that a call failed. -/
def Answer.fails : Answer → Bool
  | .allocated answer => answer.toOption.isNone
  | .saved answer => answer.toOption.isNone
  | .opened answer => answer.toOption.isNone

/-- A call changes what it says and nothing else. -/
theorem perform_changes (s : Store) (t : Tree) (call : Call) (q : Place) :
    (s.perform t call).2.get? q = t.get? q ∨
      ∃ node, call.Changes s t q node ∧ (s.perform t call).2.get? q = some node := by
  cases call with
  | allocate =>
    show (s.request t).2.get? q = t.get? q ∨
      ∃ node, Call.allocate.Changes s t q node ∧ (s.request t).2.get? q = some node
    cases hallocate : s.allocate t with
    | error e => exact .inl (by rw [request_of_error hallocate])
    | ok made =>
      obtain ⟨id, t'⟩ := made
      -- The new directory is that of the id, and nothing was in its place.
      obtain ⟨hfree, hne, -, rfl, -⟩ := Tree.createDirectory_eq_ok (createDirectory_of_allocate hallocate)
      rw [destination_userDirectory] at hfree hne hallocate
      rw [request_of_ok hallocate]
      simp only [Tree.get?_set _ _ _ _ hne]
      split
      · next hq =>
        subst hq
        exact .inr ⟨.directory, .allotted hallocate hfree, rfl⟩
      · exact .inl rfl
  | save kind user name data =>
    simp only [perform]
    split
    · next t' hsave =>
      obtain ⟨path, hpath, hstored⟩ := stored_of_save hsave
      by_cases hq : q = path.destination
      · subst hq
        refine .inr ⟨_, .stored (filePlace?_of_resolve hpath) hsave (get?_of_save hsave hpath), ?_⟩
        exact (Tree.get?_of_locate_file hstored.found).1
      · exact .inl (hstored.elsewhere q hq)
    · exact .inl rfl
  | openFile kind user name => exact .inl rfl

/-- A call that fails leaves the tree as it was. -/
theorem perform_of_fails (h : (s.perform t call).1.fails = true) : (s.perform t call).2 = t := by
  -- A call leaves another tree behind only with an answer that is no failure.
  cases call with
  | allocate =>
    change (Answer.allocated (s.request t).1).fails = true at h
    show (s.request t).2 = t
    cases hallocate : s.allocate t with
    | error e => rw [request_of_error hallocate]
    | ok made =>
      obtain ⟨id, t'⟩ := made
      rw [request_of_ok hallocate] at h
      cases h
  | save kind user name data =>
    simp only [perform] at h ⊢
    split at h
    · cases h
    · rfl
  | openFile kind user name => rfl

end Store

end Depot.Storage
