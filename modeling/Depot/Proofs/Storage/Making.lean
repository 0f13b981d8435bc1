import Depot.Proofs.Storage.Proper

/-!
# Making directories

A directory that is made is new, and it is at the end of its path. Making one with those above it adds
directories on the way to it, where nothing was, and changes nothing else. It goes well just if the path
leads to a directory afterwards; so to do it again changes nothing, however long afterwards, as long as
no directory is taken away.

## Key results

- `createDirectory_eq_ok`: what it is to make a directory
- `Founds`: what making directories comes to
- `founds_createDirectories`, `founds_bootstrap`: it adds directories on the way, and nothing else
- `bootstrap_again`: to bootstrap a tree a second time changes nothing
-/

namespace Depot.Storage

open Storage.Path (Step)

namespace Path

/-- A path takes the steps of its split, and then perhaps some that stay. -/
theorem steps_split (p : Path) :
    ∃ stays : List Step, (∀ step ∈ stays, step = .here) ∧
      (p.steps = p.split.1 ++ p.split.2 :: stays ∨ p.split = ([], .here) ∧ p.steps = stays) := by
  -- The pieces are those up to the last one that says something, and empty ones behind it.
  obtain ⟨empties, hpieces, hempty⟩ : ∃ empties,
      p.pieces = (p.pieces.reverse.dropWhile (· = "")).reverse ++ empties ∧ ∀ e ∈ empties, e = "" := by
    refine ⟨(p.pieces.reverse.takeWhile (· = "")).reverse, ?_, fun e he => ?_⟩
    · rw [← List.reverse_append, List.takeWhile_append_dropWhile, List.reverse_reverse]
    · exact of_decide_eq_true (List.all_eq_true.mp List.all_takeWhile e (List.mem_reverse.mp he))
  refine ⟨empties.map Step.ofPiece, fun step hstep => ?_, ?_⟩
  · obtain ⟨e, he, rfl⟩ := List.mem_map.mp hstep
    rw [hempty e he]
    rfl
  · cases hsaid : p.pieces.reverse.dropWhile (· = "") with
    | nil =>
      rw [hsaid] at hpieces
      refine .inr ⟨by simp only [split, hsaid], ?_⟩
      rw [steps, hpieces]
      rfl
    | cons last before =>
      rw [hsaid] at hpieces
      refine .inl ?_
      simp only [split, hsaid]
      rw [steps, hpieces, List.reverse_cons, List.map_append, List.map_append, List.append_assoc]
      rfl

/-- Steps that stay pass nothing. -/
theorem passed_stays {stays : List Step} (h : ∀ step ∈ stays, step = .here) (base : Place) :
    passed base stays = [] ∧ reached base stays = base := by
  induction stays with
  | nil => exact ⟨rfl, rfl⟩
  | cons step rest ih =>
    cases h step List.mem_cons_self
    exact ih fun step hstep => h step (List.mem_cons_of_mem _ hstep)

/-- A path whose last step goes down to a name ends there. -/
theorem way_of_split {p : Path} {name : String} (h : p.split.2 = .down name) :
    p.destination = reached [] p.split.1 ++ [name] ∧ p.way = passed [] p.split.1 ++ [p.destination] := by
  obtain ⟨stays, hstays, hsteps | ⟨hsplit, -⟩⟩ := p.steps_split
  · have hdestination : p.destination = reached [] p.split.1 ++ [name] := by
      rw [destination, hsteps, reached_append, h, reached, (passed_stays hstays _).2]
    refine ⟨hdestination, ?_⟩
    rw [way, hdestination, hsteps, passed_append, h, passed, (passed_stays hstays _).1]
  · rw [hsplit] at h
    cases h

/-- A cut of a path is a beginning of it. -/
theorem mem_cuts {p : Path} {pieces : List String} (h : p ∈ cuts pieces) :
    ∃ before, pieces = before ++ p.pieces.reverse := by
  -- The cuts of a path are the path and the cuts of what is left without its last piece, but for empty
  -- pieces.
  induction pieces with
  | nil => cases h
  | cons piece rest ih =>
    have hrest (h : p ∈ cuts rest) : ∃ before, piece :: rest = before ++ p.pieces.reverse := by
      obtain ⟨before, hbefore⟩ := ih h
      exact ⟨piece :: before, congrArg _ hbefore⟩
    rw [cuts] at h
    split at h
    · exact hrest h
    · rcases List.mem_cons.mp h with rfl | h
      · exact ⟨[], (List.reverse_reverse _).symm⟩
      · exact hrest h

/-- What the paths above a path pass is on the way to its end. -/
theorem way_of_above {p q : Path} (h : q ∈ p.above) : ∀ place ∈ q.way, place ∈ p.way := by
  obtain ⟨before, hbefore⟩ := mem_cuts (List.mem_of_mem_tail h)
  have hpieces : p.pieces = q.pieces ++ before.reverse := by
    rw [← List.reverse_reverse p.pieces, hbefore, List.reverse_append, List.reverse_reverse]
  intro place hplace
  rw [way, steps, hpieces, List.map_append, passed_append]
  exact List.mem_append_left _ hplace

end Path

namespace Tree

variable {t t' t'' : Tree} {p : Path} {base place : Place} {name : String} {node : Node}

/-- One can stay in a directory. -/
theorem walk_stays {stays : List Step} (h : ∀ step ∈ stays, step = .here) (t : Tree) (base : Place) :
    t.walk base .directory stays = .ok (base, .directory) := by
  induction stays with
  | nil => rfl
  | cons step rest ih =>
    cases h step List.mem_cons_self
    exact ih fun step hstep => h step (List.mem_cons_of_mem _ hstep)

/-- It is the end of the path. -/
theorem MadeAt.destination_eq (h : t.MadeAt p place) :
    p.destination = place ∧ place ≠ [] ∧ place ∈ p.way := by
  obtain ⟨name, hname, hplace, -⟩ := h.down
  obtain ⟨hdestination, hway⟩ := Path.way_of_split hname
  have hsame : p.destination = place := by
    rw [hdestination, ← eq_reached_of_walk h.walk]
    exact hplace.symm
  refine ⟨hsame, ?_, ?_⟩
  · rw [hplace]
    exact List.append_ne_nil_of_right_ne_nil _ (List.cons_ne_nil _ _)
  · rw [hway, hsame]
    exact List.mem_append_right _ (List.mem_singleton_self _)

/-- A directory that is made where there was nothing is what the path leads to. -/
theorem MadeAt.isDirectory_set (h : t.MadeAt p place) (hnone : t.get? place = none) :
    (t.set place .directory).isDirectory p = true := by
  obtain ⟨name, hname, hplace, hshort⟩ := h.down
  obtain ⟨-, hne, -⟩ := h.destination_eq
  obtain ⟨stays, hstays, hsteps | ⟨hsplit, -⟩⟩ := p.steps_split
  · -- On the way there are directories only, so nothing changes before its end.
    have hway : AgreeOn (Path.passed [] p.split.1) t (t.set place .directory) := by
      intro q hq
      have hdir := get?_of_passed h.walk q hq
      rw [get?_set _ _ _ _ hne, if_neg]
      rintro rfl
      rw [hnone] at hdir
      cases hdir
    have hlook : (t.set place .directory).lookUp place.dropLast name = .ok (some .directory) := by
      rw [lookUp, if_neg (Nat.not_lt.mpr hshort), ← hplace, get?_set _ _ _ _ hne, if_pos rfl]
    have hlocate : (t.set place .directory).locate p = .ok (place, .directory) := by
      rw [locate_eq_ok_iff]
      refine ⟨h.check, ?_⟩
      rw [hsteps, walk_append, walk_congr hway, h.walk, hname]
      simp only [Except.bind, Tree.walk, hlook, ← hplace]
      exact walk_stays hstays _ _
    rw [isDirectory, directory?_eq_some_iff.mpr hlocate]
    rfl
  · rw [hsplit] at hname
    cases hname

/-- A directory that is made is new, and it is what the path leads to. -/
theorem createDirectory_eq_ok (h : t.createDirectory p = .ok t') :
    t.get? p.destination = none ∧ p.destination ≠ [] ∧ p.destination ∈ p.way ∧
      t' = t.set p.destination .directory ∧ t'.isDirectory p = true := by
  obtain ⟨place, hmade, hnone, rfl⟩ := madeAt_of_createDirectory h
  obtain ⟨hsame, hne, hway⟩ := hmade.destination_eq
  rw [hsame]
  exact ⟨hnone, hne, hway, rfl, hmade.isDirectory_set hnone⟩

/-- Where a path leads to a directory none can be made. -/
theorem createDirectory_of_isDirectory (h : t.isDirectory p = true) :
    t.createDirectory p = .error .alreadyExists := by
  obtain ⟨place, hplace⟩ := Option.isSome_iff_exists.mp h
  obtain ⟨hcheck, hwalk⟩ := locate_eq_ok_iff.mp (directory?_eq_some_iff.mp hplace)
  -- The last step that is not a stay is the one that would make the directory.
  obtain ⟨stays, hstays, hsteps | ⟨hsplit, -⟩⟩ := p.steps_split
  · rw [hsteps, walk_append] at hwalk
    cases hbefore : t.walk [] .directory p.split.1 with
    | error fault =>
      rw [hbefore] at hwalk
      cases hwalk
    | ok found =>
      obtain ⟨base, reached⟩ := found
      rw [hbefore] at hwalk
      cases reached with
      | file content => cases hwalk
      | directory =>
        simp only [createDirectory, site, bind, Except.bind, hcheck, hbefore]
        cases hlast : p.split.2 with
        | here => rfl
        | up => rfl
        | down name =>
          -- What the name leads to is there already.
          rw [hlast] at hwalk
          simp only [Except.bind, walk] at hwalk
          split at hwalk
          · cases hwalk
          · cases hwalk
          · next next hfound => simp only [hfound]; rfl
  · simp only [createDirectory, site, bind, Except.bind, hcheck, hsplit, walk]
    rfl

/-! ### Chains -/

/-- Whether the only difference between two trees is that the second has new directories at some of the
places given. -/
def Founds (places : List Place) (t t' : Tree) : Prop :=
  ∀ q, t'.get? q = t.get? q ∨ t.get? q = none ∧ t'.get? q = some .directory ∧ q ∈ places

section

variable {places places' : List Place}

theorem Founds.refl (places : List Place) (t : Tree) : Founds places t t := fun _ => .inl rfl

/-- What is new after two changes is new after one of them. -/
theorem Founds.trans (h : Founds places t t') (h' : Founds places t' t'') : Founds places t t'' := by
  intro q
  rcases h' q with hsame | ⟨hnone, hnew, hplace⟩
  · rcases h q with hsame' | ⟨hnone, hnew, hplace⟩
    · exact .inl (hsame.trans hsame')
    · exact .inr ⟨hnone, hsame.trans hnew, hplace⟩
  · rcases h q with hsame' | ⟨-, hdir, -⟩
    · exact .inr ⟨hsame' ▸ hnone, hnew, hplace⟩
    · -- What was made before is not missing.
      rw [hdir] at hnone
      cases hnone

/-- More places may be allowed. -/
theorem Founds.mono (h : Founds places t t') (hsub : ∀ q ∈ places, q ∈ places') : Founds places' t t' :=
  fun q => (h q).imp_right fun ⟨hnone, hnew, hplace⟩ => ⟨hnone, hnew, hsub q hplace⟩

/-- What is new on the way of the first path is new on the ways of all. -/
theorem Founds.first (h : Founds p.way t t') (rest : List Path) :
    Founds ((p :: rest).flatMap Path.way) t t' := by
  refine h.mono fun q hq => ?_
  rw [List.flatMap_cons]
  exact List.mem_append_left _ hq

/-- What is new on the ways of the others is new on the ways of all. -/
theorem Founds.others {rest : List Path} (h : Founds (rest.flatMap Path.way) t t') (p : Path) :
    Founds ((p :: rest).flatMap Path.way) t t' := by
  refine h.mono fun q hq => ?_
  rw [List.flatMap_cons]
  exact List.mem_append_right _ hq

/-- No directory is lost. -/
theorem Founds.extends (h : Founds places t t') : t.Extends t' := by
  intro q hq
  rcases h q with hsame | ⟨hnone, -, -⟩
  · rw [hsame, hq]
  · rw [hnone] at hq
    cases hq

end

/-- A directory that is made is on the way of its path. -/
theorem founds_createDirectory (h : t.createDirectory p = .ok t') : Founds p.way t t' := by
  obtain ⟨hnone, hne, hway, rfl, -⟩ := createDirectory_eq_ok h
  intro q
  rw [get?_set _ _ _ _ hne]
  split
  · next hq =>
    subst hq
    exact .inr ⟨hnone, rfl, hway⟩
  · exact .inl rfl

/-- A path to a directory goes on to lead to one. -/
theorem isDirectory_of_extends (h : t.Extends t') (hp : t.isDirectory p = true) :
    t'.isDirectory p = true := by
  obtain ⟨base, hbase⟩ := Option.isSome_iff_exists.mp hp
  rw [isDirectory, directory?_of_extends h hbase]
  rfl

/-- Whether a directory is there is found out by looking, and nothing is changed. -/
private theorem settled_spec (t : Tree) (p : Path) (fault : Fault) :
    let result : Except Fault Unit × Tree :=
      if fault = .alreadyExists && t.isDirectory p then (.ok (), t) else (.error fault, t)
    result.2 = t ∧ (result.1 = .ok () → t.isDirectory p = true) := by
  intro result
  simp only [result]
  split
  · next hthere =>
    rw [Bool.and_eq_true] at hthere
    exact ⟨rfl, fun _ => hthere.2⟩
  · exact ⟨rfl, fun h => by cases h⟩

/-- A chain adds directories on the ways of its paths, and if it is made to the end the nearest path
leads to one. -/
theorem createChain_spec (paths : List Path) (t : Tree) :
    Founds (paths.flatMap Path.way) t (t.createChain paths).2 ∧
      ((t.createChain paths).1 = .ok () → ∀ p, paths.head? = some p →
        (t.createChain paths).2.isDirectory p = true) := by
  -- Along the paths, from the nearest to the farthest: what is above is made by the rest of the chain.
  induction paths generalizing t with
  | nil => exact ⟨.refl _ t, fun _ p hp => by cases hp⟩
  | cons p above ih =>
    have hmade {t t' : Tree} (h : t.createDirectory p = .ok t') :
        Founds ((p :: above).flatMap Path.way) t t' ∧ t'.isDirectory p = true :=
      ⟨(founds_createDirectory h).first above, (createDirectory_eq_ok h).2.2.2.2⟩
    simp only [List.head?_cons, Option.some.injEq, forall_eq']
    rw [createChain]
    split
    · next t' hcreate => exact ⟨(hmade hcreate).1, fun _ => (hmade hcreate).2⟩
    · -- Something above is missing. It is made first, and then there is a second try.
      have habove := (ih t).1.others p
      split
      · next fault t' hchain =>
        rw [hchain] at habove
        exact ⟨habove, fun h => by cases h⟩
      · next t₁ hchain =>
        rw [hchain] at habove
        split
        · next t' hcreate =>
          exact ⟨habove.trans (hmade hcreate).1, fun _ => (hmade hcreate).2⟩
        · next fault hcreate =>
          obtain ⟨hsame, hthere⟩ := settled_spec t₁ p fault
          simp only at hsame hthere ⊢
          rw [hsame]
          exact ⟨habove, hthere⟩
    · next fault _ hcreate =>
      obtain ⟨hsame, hthere⟩ := settled_spec t p fault
      simp only at hsame hthere ⊢
      rw [hsame]
      exact ⟨.refl _ t, hthere⟩

/-- Directories that are made are on the way of the path, also those above it. -/
theorem founds_createDirectories (t : Tree) (p : Path) : Founds p.way t (t.createDirectories p).2 := by
  refine (createChain_spec (p :: p.above) t).1.mono fun q hq => ?_
  rw [List.flatMap_cons, List.mem_append] at hq
  rcases hq with hq | hq
  · exact hq
  · obtain ⟨above, habove, hq⟩ := List.mem_flatMap.mp hq
    exact Path.way_of_above habove q hq

/-- If directories are made to the end, the path leads to the last of them. -/
theorem isDirectory_of_createDirectories (h : (t.createDirectories p).1 = .ok ()) :
    (t.createDirectories p).2.isDirectory p = true :=
  (createChain_spec (p :: p.above) t).2 h p rfl

/-- To make a directory that is there is to do nothing. -/
theorem createDirectories_of_isDirectory (h : t.isDirectory p = true) :
    t.createDirectories p = (.ok (), t) := by
  simp only [createDirectories, createChain, createDirectory_of_isDirectory h, h, decide_true,
    Bool.and_self, ↓reduceIte]

end Tree

/-! ### Bootstrapping -/

namespace Store

open Storage.Tree

variable {t t' t'' : Tree} {base : Path} {s : Store}

/-- The directories that are made for a new store. -/
def foundation (base : Path) : List Path :=
  sharedDirectories.map (under base).dlcRoot.child ++ [(under base).userRoot.child "0"]

/-- A bootstrap makes the directories of the store one after another. -/
theorem bootstrap_eq (t : Tree) (base : Path) :
    bootstrap t base =
      ((makeAll t (foundation base)).1.map fun _ => under base, (makeAll t (foundation base)).2) := rfl

/-- Making directories one after another adds directories on the ways to them. If all of them are made,
all of them are there. -/
theorem makeAll_spec (paths : List Path) (t : Tree) :
    Founds (paths.flatMap Path.way) t (makeAll t paths).2 ∧
      ((makeAll t paths).1 = .ok () → ∀ p ∈ paths, (makeAll t paths).2.isDirectory p = true) := by
  -- One directory after the other. What is made later keeps what was made before.
  induction paths generalizing t with
  | nil => exact ⟨.refl _ t, fun _ => List.forall_mem_nil _⟩
  | cons p rest ih =>
    have hfirst := founds_createDirectories t p
    have hthere := isDirectory_of_createDirectories (t := t) (p := p)
    rw [makeAll]
    split
    · next fault t₁ hmade =>
      rw [hmade] at hfirst
      exact ⟨hfirst.first rest, fun h => by cases h⟩
    · next t₁ hmade =>
      rw [hmade] at hfirst hthere
      obtain ⟨hrest, hall⟩ := ih t₁
      refine ⟨(hfirst.first rest).trans (hrest.others p), fun h q hq => ?_⟩
      rcases List.mem_cons.mp hq with rfl | hq
      · exact isDirectory_of_extends hrest.extends (hthere rfl)
      · exact hall h q hq

/-- Where all of the directories are there, nothing is made. -/
theorem makeAll_of_isDirectory {paths : List Path} (h : ∀ p ∈ paths, t.isDirectory p = true) :
    makeAll t paths = (.ok (), t) := by
  induction paths with
  | nil => rfl
  | cons p rest ih =>
    have hfirst := createDirectories_of_isDirectory (h p List.mem_cons_self)
    simp only [makeAll, hfirst]
    exact ih fun q hq => h q (List.mem_cons_of_mem p hq)

/-- A bootstrap adds directories on the ways to those of the store, and nothing else. -/
theorem founds_bootstrap (t : Tree) (base : Path) :
    Founds ((foundation base).flatMap Path.way) t (bootstrap t base).2 := (makeAll_spec _ t).1

/-- To bootstrap a tree that was bootstrapped changes nothing, as long as no directory was taken away
since. -/
theorem bootstrap_again (h : bootstrap t base = (.ok s, t')) (hextends : t'.Extends t'') :
    bootstrap t'' base = (.ok s, t'') := by
  rw [bootstrap_eq] at h
  obtain ⟨hmade, rfl⟩ := Prod.mk.inj h
  have hdone : (makeAll t (foundation base)).1 = .ok () := by
    cases hresult : (makeAll t (foundation base)).1 with
    | error fault =>
      rw [hresult] at hmade
      cases hmade
    | ok _ => rfl
  -- All were made, and all are there still, so the second time makes none.
  have hall := (makeAll_spec (foundation base) t).2 hdone
  rw [bootstrap_eq, makeAll_of_isDirectory fun p hp => isDirectory_of_extends hextends (hall p hp), ← hmade,
    hdone]

end Store

end Depot.Storage
