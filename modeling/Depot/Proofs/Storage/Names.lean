import Depot.Proofs.Storage.Confinement
import Depot.Proofs.Text.Decimal

/-!
# Names and the paths they become

Two texts can be the same path, since repeated slashes, slashes at the end and dots in the middle do not
count. What does count are the `components` of a path, and two paths are the same, or one a part of the other,
if their components are. A name is accepted if it is its own only component, and the path of a file is the path
of its directory with one component more. So where neither root leads to the other, no two files share a path.

## Key results

- `Path.isPlainName_iff_components`: a plain name is its own only component
- `Path.components_child`: an entry of a directory is one component further
- `Store.components_of_resolve`: what the path of a file is made of
- `Store.names_resolve_apart`: the names that are accepted, and that they keep files apart
-/

namespace Depot.Storage

namespace Path

/-- A part of a path that counts. -/
inductive Component
  /-- The slash that an absolute path begins with. -/
  | root
  /-- The dot that a relative path may begin with. -/
  | here
  | up
  | down (name : String)
  deriving DecidableEq, Repr

/-- What a step is as a component, if it counts. -/
def Step.component? : Step → Option Component
  | .here => none
  | .up => some .up
  | .down name => some (.down name)

/-- The components of a path. A dot counts only where a relative path begins with it. -/
def components (p : Path) : List Component :=
  (if p.isAbsolute then [.root] else if p.pieces.head? = some "." then [.here] else []) ++
    p.steps.filterMap Step.component?

/-- A text without slashes is one piece. -/
theorem pieces_of_noSlash {name : String} (h : ∀ c ∈ name.toList, c ≠ '/') : ofText name = ⟨[name]⟩ := by
  rw [ofText, splitSlash_of_noSlash h, List.map_singleton, String.ofList_toList]

/-- A plain name is the path that one goes down to an entry by. -/
theorem child_eq_join (p : Path) {name : String} (h : isPlainName name = true) :
    p.child name = p.join (.ofText name) := by
  have hnone := (isPlainName_iff.mp h).2
  rw [child, pieces_of_noSlash fun c hc => (hnone c hc).1]

/-- A plain name is its own only component, and has no separator. -/
theorem isPlainName_iff_components {name : String} : isPlainName name = true ↔
    (ofText name).components = [.down name] ∧ ∀ c ∈ name.toList, c ≠ '/' ∧ c ≠ '\\' := by
  constructor
  · intro h
    obtain ⟨⟨-, hdot, -⟩, hnone⟩ := isPlainName_iff.mp h
    refine ⟨?_, hnone⟩
    rw [pieces_of_noSlash fun c hc => (hnone c hc).1]
    simp [components, isAbsolute, steps, hdot, ofPiece_of_plain h, Step.component?]
  · rintro ⟨hcomponents, hnone⟩
    refine isPlainName_iff.mpr ⟨⟨?_, ?_, ?_⟩, hnone⟩
    -- The three names that are not plain are no component, or another one.
    all_goals
      rintro rfl
      revert hcomponents
      decide

/-- The path to an entry of a directory begins as the path to the directory does. -/
theorem isAbsolute_child (p : Path) (name : String) : (p.child name).isAbsolute = p.isAbsolute := by
  rw [child_eq, stem]
  cases hp : p.pieces with
  | nil => simp [isAbsolute, hp]
  | cons first rest =>
    cases rest with
    | nil => by_cases hfirst : first = "" <;> simp [isAbsolute, hp, hfirst]
    | cons second rest => split <;> simp [isAbsolute, hp]

/-- The first piece of a path is the first piece of what it is extended to, unless that is a single dot. -/
theorem head?_child (p : Path) {name : String} (hname : name ≠ ".") :
    (p.child name).pieces.head? = some "." ↔ p.pieces.head? = some "." := by
  rw [child_eq, stem]
  cases hp : p.pieces with
  | nil => simp [hname]
  | cons first rest =>
    cases rest with
    | nil => by_cases hfirst : first = "" <;> simp [hfirst, hname]
    | cons second rest => split <;> simp

/-- An entry of a directory is one component further. -/
theorem components_child (p : Path) {name : String} (h : isPlainName name = true) :
    (p.child name).components = p.components ++ [.down name] := by
  have hdot : name ≠ "." := (isPlainName_iff.mp h).1.2.1
  have hsteps : (p.child name).steps.filterMap Step.component? =
      p.steps.filterMap Step.component? ++ [.down name] := by
    -- A slash at the end of the directory only adds a stay.
    rcases p.steps_eq_stem with hstem | hstem <;>
      simp [steps_child, ofPiece_of_plain h, hstem, Step.component?]
  simp only [components, hsteps, isAbsolute_child, head?_child p hdot, List.append_assoc]

end Path

/-- A number is written as a plain name. -/
theorem isPlainName_toString (n : Nat) : isPlainName (toString n) = true := by
  have hdigit : ∀ c ∈ (toString n).toList, c.isDigit = true :=
    fun c => Text.Decimal.isDigit_of_mem_toString
  have hdown := Store.ofPiece_toString n
  refine Path.isPlainName_iff.mpr ⟨⟨?_, ?_, ?_⟩, fun c hc => ⟨?_, ?_⟩⟩
  -- The three names that are not plain do not go down, and no digit is a separator.
  iterate 3
    · intro h
      rw [h] at hdown
      cases hdown
  · rintro rfl
    simpa using hdigit _ hc
  · rintro rfl
    simpa using hdigit _ hc

namespace Store

variable {s : Store} {kind kind' : FileKind} {user user' : UInt32} {name name' : String}
  {path path' : Path}

/-- What the path of a file is made of, and the only kinds that files have. -/
theorem components_of_resolve (h : s.resolve kind user name = .ok path) :
    isPlainName name = true ∧
      (kind = .dlc ∧ path.components = s.dlcRoot.components ++ [.down name] ∨
        kind = .user ∧ path.components =
          s.userRoot.components ++ [.down (toString user.toNat)] ++ [.down name]) := by
  obtain ⟨hplain, dir, hdir, rfl⟩ := resolve_eq_ok h
  have hchild := dir.components_child hplain
  refine ⟨hplain, ?_⟩
  cases kind with
  | dlc =>
    cases hdir
    exact .inl ⟨rfl, hchild⟩
  | user =>
    cases hdir
    rw [userDirectory, Path.components_child _ (isPlainName_toString _)] at hchild
    exact .inr ⟨rfl, hchild⟩
  | _ => cases hdir

/-- A file is found under the same path only with the same kind, name and owner. -/
theorem same_of_components_eq (hroots : ¬ s.userRoot.components <+: s.dlcRoot.components)
    (h : s.resolve kind user name = .ok path) (h' : s.resolve kind' user' name' = .ok path')
    (heq : path.components = path'.components) :
    kind = kind' ∧ name = name' ∧ (kind = .user → user = user') := by
  -- Whatever the two kinds are, the last components are the names, and the others those of the directories.
  obtain ⟨-, ⟨rfl, hpath⟩ | ⟨rfl, hpath⟩⟩ := components_of_resolve h <;>
    obtain ⟨-, ⟨rfl, hpath'⟩ | ⟨rfl, hpath'⟩⟩ := components_of_resolve h' <;>
      rw [hpath, hpath'] at heq <;>
        obtain ⟨hdir, hname⟩ := List.append_inj' heq rfl <;>
          injection hname with hname <;> injection hname with hname
  · exact ⟨rfl, hname, fun hkind => by cases hkind⟩
  · -- A shared file and one of a user: the root of the users would lead to the shared one.
    exact absurd ⟨_, hdir.symm⟩ hroots
  · exact absurd ⟨_, hdir⟩ hroots
  · obtain ⟨-, huser⟩ := List.append_inj' hdir rfl
    injection huser with huser
    injection huser with huser
    exact ⟨rfl, hname, fun _ => UInt32.toNat_inj.mp (Text.Decimal.toString_inj huser)⟩

/-- The user counts for files of users only. -/
theorem resolve_congr (hkind : kind = kind') (hname : name = name')
    (huser : kind = .user → user = user') : s.resolve kind user name = s.resolve kind' user' name' := by
  subst hkind hname
  by_cases h : kind = .user
  · rw [huser h]
  · have hdir : s.directory kind user = s.directory kind user' := by
      cases kind <;> first | rfl | exact absurd rfl h
    simp only [resolve, hdir]

theorem resolve_of_not_plain (h : isPlainName name = false) :
    s.resolve kind user name = .error (.invalidName name) := by
  simp only [resolve, h]
  rfl

/-- A name that is accepted is the path that leads on from the directory. -/
theorem resolve_eq_join (h : isPlainName name = true) :
    s.resolve kind user name = (s.directory kind user).map (·.join (.ofText name)) := by
  simp only [resolve, h]
  cases s.directory kind user with
  | error e => rfl
  | ok dir => exact congrArg Except.ok (dir.child_eq_join h)

/-- A name is accepted if it is not empty, is no dots and has no separator, which is to say that it is its own
only component; other names are refused. An accepted name goes one component further than the directory of the
kind, which for a user is one component further than the root, with the number of the user. If the root of the
users does not lead to the shared one, two files have the same path only if they are of one kind and name, and
have one owner if the kind has owners. -/
theorem names_resolve_apart (s : Store) :
    (∀ name : String,
      (isPlainName name = true ↔ (name ≠ "" ∧ name ≠ "." ∧ name ≠ "..") ∧
        ∀ c ∈ name.toList, c ≠ '/' ∧ c ≠ '\\') ∧
      (isPlainName name = true ↔ (Path.ofText name).components = [.down name] ∧
        ∀ c ∈ name.toList, c ≠ '/' ∧ c ≠ '\\')) ∧
      (∀ kind user name,
        (isPlainName name = false → s.resolve kind user name = .error (.invalidName name)) ∧
        (isPlainName name = true →
          s.resolve kind user name = (s.directory kind user).map (·.join (.ofText name)) ∧
          ∀ dir, s.directory kind user = .ok dir →
            (dir.join (.ofText name)).components = dir.components ++ [.down name])) ∧
      (∀ user, s.directory .dlc user = .ok s.dlcRoot ∧
        ∃ dir, s.directory .user user = .ok dir ∧
          dir = s.userRoot.join (.ofText (toString user.toNat)) ∧
          dir.components = s.userRoot.components ++ [.down (toString user.toNat)]) ∧
      (¬ s.userRoot.components <+: s.dlcRoot.components →
        ∀ {kind kind' user user' name name' path path'}, s.resolve kind user name = .ok path →
          s.resolve kind' user' name' = .ok path' →
          (path.components = path'.components ↔
            kind = kind' ∧ name = name' ∧ (kind = .user → user = user')) ∧
          (path.components = path'.components ↔ path = path')) := by
  refine ⟨fun name => ⟨Path.isPlainName_iff, Path.isPlainName_iff_components⟩,
    fun kind user name => ⟨resolve_of_not_plain, fun h => ⟨resolve_eq_join h, fun dir _ => ?_⟩⟩,
    fun user => ⟨rfl, _, rfl, ?_, ?_⟩, ?_⟩
  · rw [← dir.child_eq_join h, dir.components_child h]
  · exact Path.child_eq_join _ (isPlainName_toString _)
  · exact Path.components_child _ (isPlainName_toString _)
  · intro hroots kind kind' user user' name name' path path' h h'
    have hsame : kind = kind' ∧ name = name' ∧ (kind = .user → user = user') → path = path' := by
      rintro ⟨hkind, hname, huser⟩
      rw [resolve_congr hkind hname huser, h'] at h
      exact (Except.ok.inj h).symm
    have hapart := same_of_components_eq hroots h h'
    exact ⟨⟨hapart, fun hall => congrArg Path.components (hsame hall)⟩,
      ⟨fun heq => hsame (hapart heq), congrArg Path.components⟩⟩

/-- Under roots beside each other, a file of user 7 is not the shared one of the same name. -/
theorem names_resolve_apart_beside_each_other :
    ¬ (Path.ofText "/u").components <+: (Path.ofText "/d").components ∧
      (Store.mk (.ofText "/d") (.ofText "/u")).resolve .dlc 0 "x" = .ok (.ofText "/d/x") ∧
      (Store.mk (.ofText "/d") (.ofText "/u")).resolve .user 7 "x" = .ok (.ofText "/u/7/x") ∧
      (Path.ofText "/d/x").components ≠ (Path.ofText "/u/7/x").components := by
  have hroots : ¬ (Path.ofText "/u").components <+: (Path.ofText "/d").components := by decide
  have hshared : (Store.mk (.ofText "/d") (.ofText "/u")).resolve .dlc 0 "x" = .ok (.ofText "/d/x") := rfl
  have howned : (Store.mk (.ofText "/d") (.ofText "/u")).resolve .user 7 "x" = .ok (.ofText "/u/7/x") :=
    rfl
  refine ⟨hroots, hshared, howned, fun heq => ?_⟩
  have hkind := (((names_resolve_apart _).2.2.2 hroots hshared howned).1.mp heq).1
  cases hkind

/-- A slash at the end makes no difference to a path, but it is not a part of a name. -/
example : (Path.ofText "a/").components = (Path.ofText "a").components ∧ isPlainName "a/" = false := by
  decide

end Store

end Depot.Storage
