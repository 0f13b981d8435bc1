import Depot.Storage.Store

/-!
# Ways through the tree

A path is followed step by step, so what it leads to depends on the entries at the places that it
passes, its `way`, and on no others. A change elsewhere is not seen from it. The files of a store are
one step down from a directory, and for such a path everything can be said in terms of the directory
and the entry with the name.

## Key results

- `Tree.locate_congr`: trees that agree on the way of a path lead to the same
- `Tree.locate_child`, `Tree.site_child`: what is found one step down from a directory
- `Tree.locate_set_child`: a file that was put there is found there
- `Tree.madeAt_of_createDirectory`, `Tree.madeAt_of_writeFile`: where an entry is made
-/

namespace Depot.Storage

namespace Path

/-- The places that steps from a place pass. -/
def passed (base : Place) : List Step → List Place
  | [] => []
  | .here :: rest => passed base rest
  | .up :: rest => passed base.dropLast rest
  | .down name :: rest => (base ++ [name]) :: passed (base ++ [name]) rest

/-- The place that steps from a place lead to. -/
def reached (base : Place) : List Step → Place
  | [] => base
  | .here :: rest => reached base rest
  | .up :: rest => reached base.dropLast rest
  | .down name :: rest => reached (base ++ [name]) rest

/-- The places that a path passes on the way from the top to its end. -/
def way (p : Path) : List Place := passed [] p.steps

/-- The place that a path leads to. -/
def destination (p : Path) : Place := reached [] p.steps

/-- The pieces of a path, but for what is behind a slash at its end. -/
def stem (p : Path) : List String :=
  if p.pieces.getLast? = some "" then p.pieces.dropLast else p.pieces

/-- The places passed on two ways, one after the other. -/
theorem passed_append (base : Place) (before after : List Step) :
    passed base (before ++ after) = passed base before ++ passed (reached base before) after := by
  induction before generalizing base with
  | nil => rfl
  | cons step rest ih => cases step <;> simp [passed, reached, ih]

/-- Where two ways lead, one after the other. -/
theorem reached_append (base : Place) (before after : List Step) :
    reached base (before ++ after) = reached (reached base before) after := by
  induction before generalizing base with
  | nil => rfl
  | cons step rest ih => cases step <;> simp [reached, ih]

/-- A piece that says to go down is the name to go down to. -/
theorem eq_of_ofPiece {piece name : String} (h : Step.ofPiece piece = .down name) : piece = name := by
  unfold Step.ofPiece at h
  split at h <;> cases h
  rfl

/-- A plain name says to go down to it. -/
theorem ofPiece_of_plain {name : String} (h : isPlainName name = true) :
    Step.ofPiece name = .down name := by
  simp only [isPlainName, Bool.and_eq_true, beq_iff_eq, steps] at h
  -- The name as a path is one step down, and what one goes down to is the piece itself.
  obtain ⟨piece, -, hstep⟩ := List.map_eq_singleton_iff.mp h.1
  have heq := eq_of_ofPiece hstep
  rwa [heq] at hstep

/-- An entry of a directory is one piece more, after a slash at the end is left out. -/
theorem child_eq (p : Path) (name : String) : p.child name = ⟨p.stem ++ [name]⟩ := by
  have hrelative : isAbsolute ⟨[name]⟩ = false := by simp [isAbsolute]
  simp only [child, join, hrelative, stem, Bool.false_eq_true, ↓reduceIte]
  split <;> rfl

/-- A path to an entry is not empty, whatever the path to its directory is. -/
theorem isEmpty_child (p : Path) {name : String} (h : name ≠ "") : (p.child name).isEmpty = false := by
  rw [child_eq, isEmpty]
  cases p.stem <;> simp [h]

/-- The way to an entry is that to its directory and one step more. -/
theorem steps_child (p : Path) (name : String) :
    (p.child name).steps = p.stem.map Step.ofPiece ++ [Step.ofPiece name] := by
  simp [child_eq, steps]

/-- The last step to an entry is its name. -/
theorem split_child (p : Path) {name : String} (hname : name ≠ "") :
    (p.child name).split = (p.stem.map Step.ofPiece, Step.ofPiece name) := by
  simp [child_eq, split, hname]

/-- The path to an entry does not end in a slash. -/
theorem endsInSlash_child (p : Path) {name : String} (hname : name ≠ "") :
    (p.child name).endsInSlash = false := by
  simp [child_eq, endsInSlash, hname]

/-- The steps of a path are those of its stem, and then perhaps one that stays. -/
theorem steps_eq_stem (p : Path) :
    p.steps = p.stem.map Step.ofPiece ∨ p.steps = p.stem.map Step.ofPiece ++ [.here] := by
  unfold stem
  split
  · next hlast =>
    right
    obtain ⟨before, hpieces⟩ := List.getLast?_eq_some_iff.mp hlast
    simp [steps, hpieces, Step.ofPiece]
  · exact .inl rfl

/-- A slash at the end passes no further place. -/
theorem way_eq_stem (p : Path) : p.way = passed [] (p.stem.map Step.ofPiece) := by
  rcases p.steps_eq_stem with h | h
  · rw [way, h]
  · rw [way, h, passed_append]
    simp [passed]

/-- The way to an entry of a directory is the way to the directory and then the entry. -/
theorem way_child (p : Path) {name : String} (hname : Step.ofPiece name = .down name) :
    (p.child name).way = p.way ++ [(p.child name).destination] := by
  rw [way_eq_stem p, way, destination, steps_child, hname, passed_append, reached_append]
  rfl

end Path

namespace Tree

/-- Whether two trees have the same entries at some places. -/
def AgreeOn (places : List Place) (t t' : Tree) : Prop := ∀ q ∈ places, t'.get? q = t.get? q

variable {t t' : Tree} {p : Path} {base place : Place} {name : String} {node node' : Node}

/-- A name is looked up at one place. -/
theorem lookUp_congr (h : t'.get? (base ++ [name]) = t.get? (base ++ [name])) :
    t'.lookUp base name = t.lookUp base name := by
  simp only [lookUp, h]

/-- Only the places that are passed decide where steps lead. -/
theorem walk_congr {steps : List Path.Step} (h : AgreeOn (Path.passed base steps) t t') :
    t'.walk base node steps = t.walk base node steps := by
  induction steps generalizing base node with
  | nil => rfl
  | cons step rest ih =>
    cases node with
    | file content => rfl
    | directory =>
      cases step with
      | here => exact ih h
      | up => exact ih h
      | down name =>
        -- The entry with the name is on the way, and so is what is behind it.
        have hfound := lookUp_congr (h (base ++ [name]) List.mem_cons_self)
        have hrest (next : Node) :
            t'.walk (base ++ [name]) next rest = t.walk (base ++ [name]) next rest :=
          ih fun q hq => h q (List.mem_cons_of_mem _ hq)
        simp only [walk, hfound, hrest]

/-- Putting in a node changes nothing elsewhere. -/
theorem get?_set_of_ne {q : Place} (t : Tree) (node : Node) (h : q ≠ place) :
    (t.set place node).get? q = t.get? q := by
  simp only [get?, set, lookup_go, if_neg h]

/-- Trees that agree on an entry do so after the same change. -/
theorem get?_set_congr {q : Place} (place : Place) (node : Node) (h : t'.get? q = t.get? q) :
    (t'.set place node).get? q = (t.set place node).get? q := by
  unfold get? at h ⊢
  split
  · rfl
  · next hq =>
    simp only [if_neg hq] at h
    simp only [set, lookup_go, h]

/-- Trees that agree on the way of a path lead to the same. -/
theorem locate_congr (h : AgreeOn p.way t t') : t'.locate p = t.locate p := by
  simp only [locate, walk_congr h]

/-- So whether a path leads to a directory is decided on its way. -/
theorem isDirectory_congr (h : AgreeOn p.way t t') : t'.isDirectory p = t.isDirectory p := by
  simp only [isDirectory, directory?, locate_congr h]

/-- Steps are followed one after another. -/
theorem walk_append (t : Tree) (base : Place) (node : Node) (before after : List Path.Step) :
    t.walk base node (before ++ after) =
      (t.walk base node before).bind fun (base, node) => t.walk base node after := by
  -- By induction on the steps, as they are followed. A fault ends the whole walk.
  induction before generalizing base node with
  | nil => rfl
  | cons step rest ih =>
    cases node with
    | file content => rfl
    | directory =>
      cases step with
      | here => exact ih _ _
      | up => exact ih _ _
      | down name =>
        simp only [List.cons_append, walk]
        cases t.lookUp base name with
        | error fault => rfl
        | ok found =>
          cases found with
          | none => rfl
          | some next => exact ih _ _

/-- Steps that can be followed lead where they say. -/
theorem eq_reached_of_walk {steps : List Path.Step} (h : t.walk base node steps = .ok (place, node')) :
    place = Path.reached base steps := by
  -- By induction on the steps. Those that could not be followed give no place.
  induction steps generalizing base node with
  | nil => cases h; rfl
  | cons step rest ih =>
    cases node with
    | file content => cases h
    | directory =>
      cases step with
      | here => exact ih h
      | up => exact ih h
      | down name =>
        simp only [walk] at h
        split at h
        · cases h
        · cases h
        · exact ih h

/-- What is found under a name is what is at its place. -/
theorem get?_of_lookUp {found : Option Node} (h : t.lookUp base name = .ok found) :
    t.get? (base ++ [name]) = found := by
  unfold lookUp at h
  split at h
  · cases h
  · exact Except.ok.inj h

/-- What is passed on the way to a directory is a directory itself. -/
theorem get?_of_passed {steps : List Path.Step}
    (h : t.walk base .directory steps = .ok (place, .directory)) :
    ∀ q ∈ Path.passed base steps, t.get? q = some .directory := by
  induction steps generalizing base with
  | nil => intro q hq; cases hq
  | cons step rest ih =>
    cases step with
    | here => exact ih h
    | up => exact ih h
    | down name =>
      simp only [walk] at h
      split at h
      · cases h
      · cases h
      · next next hfound =>
        cases next with
        | file content =>
          -- A file is the end of every way.
          cases rest <;> cases h
        | directory =>
          intro q hq
          rcases List.mem_cons.mp hq with rfl | hq
          · exact get?_of_lookUp hfound
          · exact ih h q hq

/-- A path leads to a directory if what it leads to is one. -/
theorem directory?_eq_some_iff : t.directory? p = some place ↔ t.locate p = .ok (place, .directory) := by
  unfold directory?
  split
  · next found hlocate => simp [hlocate]
  · next hnot => exact iff_of_false (by simp) (hnot place)

/-- A path is followed once it is well-formed. -/
theorem locate_eq_ok_iff :
    t.locate p = .ok (place, node) ↔
      checkPath p = .ok () ∧ t.walk [] .directory p.steps = .ok (place, node) := by
  simp only [locate, bind, Except.bind]
  cases checkPath p with
  | error fault => simp
  | ok _ => simp

/-- A path that leads to a directory does so without the slash at its end. -/
theorem walk_stem (h : t.directory? p = some base) :
    t.walk [] .directory (p.stem.map Path.Step.ofPiece) = .ok (base, .directory) := by
  obtain ⟨-, hlocate⟩ := locate_eq_ok_iff.mp (directory?_eq_some_iff.mp h)
  rcases p.steps_eq_stem with hsteps | hsteps
  · rwa [hsteps] at hlocate
  · rw [hsteps, walk_append] at hlocate
    cases hwalk : t.walk [] .directory (p.stem.map Path.Step.ofPiece) with
    | error fault => rw [hwalk] at hlocate; cases hlocate
    | ok found =>
      obtain ⟨place, node⟩ := found
      rw [hwalk] at hlocate
      -- One cannot stay in a file.
      cases node with
      | file content => cases hlocate
      | directory => exact hlocate

/-- The place of a directory is where its path leads. -/
theorem reached_stem (h : t.directory? p = some base) :
    base = Path.reached [] (p.stem.map Path.Step.ofPiece) := eq_reached_of_walk (walk_stem h)

/-- An entry of a directory is at the place of its name. -/
theorem destination_child (h : t.directory? p = some base)
    (hname : Path.Step.ofPiece name = .down name) :
    (p.child name).destination = base ++ [name] := by
  rw [Path.destination, Path.steps_child, hname, Path.reached_append, ← reached_stem h]
  rfl

/-- A plain name is not empty. -/
theorem name_ne_empty (hname : Path.Step.ofPiece name = .down name) : name ≠ "" := by
  rintro rfl
  cases hname

/-- The way to an entry that is made in a directory. -/
theorem site_child (h : t.directory? p = some base) (hname : Path.Step.ofPiece name = .down name) :
    t.site (p.child name) = (checkPath (p.child name)).bind fun () =>
      (t.lookUp base name).bind fun found => .ok (some (base ++ [name], found)) := by
  simp only [site, bind, Path.split_child p (name_ne_empty hname), hname]
  cases checkPath (p.child name) with
  | error fault => rfl
  | ok _ =>
    rw [walk_stem h]
    rfl

/-- What the path to an entry of a directory leads to. -/
theorem locate_child (h : t.directory? p = some base) (hname : Path.Step.ofPiece name = .down name) :
    t.locate (p.child name) = (checkPath (p.child name)).bind fun () =>
      (t.lookUp base name).bind fun found =>
        match found with
        | none => .error .notFound
        | some node => .ok (base ++ [name], node) := by
  simp only [locate, bind, Path.steps_child, hname]
  -- After the directory there is one more look.
  cases checkPath (p.child name) with
  | error fault => rfl
  | ok _ =>
    simp only [Except.bind]
    rw [walk_append, walk_stem h]
    simp only [Except.bind, walk]
    cases t.lookUp base name with
    | error fault => rfl
    | ok found => cases found <;> rfl

/-- A file that is put where no directory was is found there. -/
theorem locate_set_child {content : Content} {found : Option Node} (h : t.directory? p = some base)
    (hname : Path.Step.ofPiece name = .down name) (hcheck : checkPath (p.child name) = .ok ())
    (hfound : t.lookUp base name = .ok found) (hfile : found ≠ some .directory) :
    (t.set (base ++ [name]) (.file content)).locate (p.child name) =
      .ok (base ++ [name], .file content) := by
  have hne : base ++ [name] ≠ [] := by simp
  -- On the way there are directories only, so nothing changes before its end.
  have hway : AgreeOn (Path.passed [] (p.stem.map Path.Step.ofPiece)) t
      (t.set (base ++ [name]) (.file content)) := by
    intro q hq
    have hq' := get?_of_passed (walk_stem h) q hq
    rw [get?_set _ _ _ _ hne, if_neg]
    rintro rfl
    rw [get?_of_lookUp hfound] at hq'
    exact hfile hq'
  -- At its end there is the new file, whatever was there before.
  have hset : (t.set (base ++ [name]) (.file content)).lookUp base name =
      .ok (some (.file content)) := by
    unfold lookUp at hfound ⊢
    split at hfound
    · cases hfound
    · rw [get?_set _ _ _ _ hne, if_pos rfl]
      split
      · contradiction
      · rfl
  simp only [locate, bind, hcheck, Except.bind, Path.steps_child, hname]
  rw [walk_append, walk_congr hway, walk_stem h]
  simp only [Except.bind, walk, hset]

/-- A path that leads to a file leads to where it is, and that is the last place on the way. -/
theorem get?_of_walk_file {steps : List Path.Step} {content : Content}
    (h : t.walk base .directory steps = .ok (place, .file content)) :
    t.get? place = some (.file content) ∧ place ∈ Path.passed base steps := by
  induction steps generalizing base with
  | nil => cases h
  | cons step rest ih =>
    cases step with
    | here => exact ih h
    | up => exact ih h
    | down name =>
      simp only [walk] at h
      split at h
      · cases h
      · cases h
      · next next hfound =>
        cases next with
        | directory =>
          obtain ⟨hget, hmem⟩ := ih h
          exact ⟨hget, List.mem_cons_of_mem _ hmem⟩
        | file content' =>
          -- There is no way past a file.
          cases rest with
          | nil =>
            cases h
            exact ⟨get?_of_lookUp hfound, List.mem_cons_self⟩
          | cons _ _ => cases h

/-- A file that a path leads to is in the tree, on the way of the path. -/
theorem get?_of_locate_file {content : Content} (h : t.locate p = .ok (place, .file content)) :
    t.get? place = some (.file content) ∧ place ∈ p.way := get?_of_walk_file (locate_eq_ok_iff.mp h).2

/-- Where an entry is to be made: under the last name of a path, in the directory that the rest of it
leads to. -/
structure MadeAt (t : Tree) (p : Path) (place : Place) : Prop where
  check : checkPath p = .ok ()
  down : ∃ name, p.split.2 = .down name ∧ place = place.dropLast ++ [name] ∧ name.utf8ByteSize ≤ maxName
  walk : t.walk [] .directory p.split.1 = .ok (place.dropLast, .directory)

/-- A site is at the end of its path, in a directory, under a name that is not too long. -/
theorem madeAt_of_site {found : Option Node} (h : t.site p = .ok (some (place, found))) :
    t.MadeAt p place ∧ t.get? place = found := by
  simp only [site, bind, Except.bind] at h
  -- The path is well-formed, the steps before the last can be followed, and the last one is a name.
  split at h
  · cases h
  · next hcheck =>
    split at h
    · cases h
    · next walked hwalk =>
      obtain ⟨base, reached⟩ := walked
      cases reached with
      | file content => cases h
      | directory =>
        simp only at h
        split at h
        · next name hlast =>
          cases hlook : t.lookUp base name with
          | error fault =>
            rw [hlook] at h
            cases h
          | ok entry =>
            rw [hlook] at h
            cases h
            have hshort : name.utf8ByteSize ≤ maxName := by
              unfold lookUp at hlook
              split at hlook
              · cases hlook
              · next hshort => exact Nat.not_lt.mp hshort
            refine ⟨⟨hcheck, ⟨name, hlast, ?_, hshort⟩, ?_⟩, get?_of_lookUp hlook⟩
            · rw [List.dropLast_concat]
            · rw [List.dropLast_concat]
              exact hwalk
        · cases h

/-- A directory is made where nothing is. -/
theorem madeAt_of_createDirectory (h : t.createDirectory p = .ok t') :
    ∃ place, t.MadeAt p place ∧ t.get? place = none ∧ t' = t.set place .directory := by
  simp only [createDirectory, bind, Except.bind] at h
  -- The site has a place with nothing at it, or the directory cannot be made.
  split at h
  · cases h
  · next hsite =>
    split at h
    · cases h
      obtain ⟨hmade, hnone⟩ := madeAt_of_site hsite
      exact ⟨_, hmade, hnone, rfl⟩
    · cases h

/-- A file is written where no directory is. -/
theorem madeAt_of_writeFile {content : Content} (h : t.writeFile p content = .ok t') :
    ∃ place, t.MadeAt p place ∧ t.get? place ≠ some .directory ∧ t' = t.set place (.file content) := by
  simp only [writeFile, bind, Except.bind] at h
  -- Without a site, or with a directory at it, no file is written.
  split at h
  · cases h
  · next hsite =>
    split at h
    · cases h
    · cases h
    · next place found hfile =>
      split at h
      · cases h
      · cases h
        obtain ⟨hmade, hget⟩ := madeAt_of_site hsite
        refine ⟨_, hmade, ?_, rfl⟩
        rw [hget]
        exact hfile

end Tree

end Depot.Storage
