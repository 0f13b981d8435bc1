import Depot.Proofs.Storage.Ways

/-!
# Storing and reading files

A store looks at the way to a file and at nothing else of the tree. Where it accepts a file it puts it
at the end of the way, whole, and every other entry stays as it is; whether it accepts a file does not
depend on the content. A file is read in blocks, and each is cut out of the content as a whole.

## Key results

- `Content.block_eq`: what a block is
- `stored_of_save`: what a tree is like after a file was stored
- `save_congr`: trees that agree on the way to a file are changed in the same way
- `exists_save`: a file is accepted where there is a directory for it and none in its place
- `openFile_eq_ok`: a file that is there is found
-/

namespace Depot.Storage

/-- What has become of a tree in which a file was stored: the path leads to the file, and no other
entry has changed. -/
structure Tree.Stored (t : Tree) (path : Path) (content : Content) (t' : Tree) : Prop where
  eq_set : t' = t.set path.destination (.file content)
  found : t'.locate path = .ok (path.destination, .file content)
  elsewhere : ∀ q, q ≠ path.destination → t'.get? q = t.get? q

theorem Content.length_toList (c : Content) : c.toList.length = c.length := by
  simp only [toList, length, List.length_append, List.length_replicate]

/-- A block is cut out of the content, holes and all. -/
theorem Content.block_eq (c : Content) (start count : Nat) :
    c.block start count = (c.toList.drop start).take count := by
  simp only [block, toList, length, List.drop_append, List.take_append, List.drop_replicate,
    List.take_replicate]
  split
  · next hfull =>
    -- The bytes that were written are enough.
    have hnone : min (count - (c.bytes.drop start).length) (c.hole - (start - c.bytes.length)) = 0 := by
      rw [List.length_take] at hfull
      omega
    rw [hnone, List.replicate_zero, List.append_nil]
  · next hshort =>
    -- The hole makes up for what is missing, as far as it goes.
    congr 2
    rw [List.length_take, List.length_drop] at hshort ⊢
    omega

namespace Tree

variable {t : Tree} {p : Path} {base : Place} {name : String}

/-- The bytes of the file at a place, at most `count` of them from `start` on. Where there is no file
there are none. -/
def bytesAt (t : Tree) (place : Place) (start count : Nat) : List UInt8 :=
  match t.get? place with
  | some (.file content) => content.block start count
  | _ => []

/-- The bytes of a file are read from its content. -/
theorem bytesAt_of_file {place : Place} {content : Content}
    (h : t.get? place = some (.file content)) (start count : Nat) :
    t.bytesAt place start count = (content.toList.drop start).take count := by
  rw [bytesAt, h]
  exact content.block_eq start count

/-- No more bytes are read than were asked for. -/
theorem length_bytesAt_le (t : Tree) (place : Place) (start count : Nat) :
    (t.bytesAt place start count).length ≤ count := by
  unfold bytesAt
  split
  · rw [Content.block_eq, List.length_take]
    exact Nat.min_le_left _ _
  · exact Nat.zero_le count

/-- What writing a file in a directory comes to. -/
theorem writeFile_child (h : t.directory? p = some base)
    (hname : Path.Step.ofPiece name = .down name) (content : Content) :
    t.writeFile (p.child name) content = (checkPath (p.child name)).bind fun () =>
      (t.lookUp base name).bind fun found =>
        if found = some .directory then .error .isDirectory
        else .ok (t.set (base ++ [name]) (.file content)) := by
  simp only [writeFile, bind, site_child h hname, p.endsInSlash_child (name_ne_empty hname)]
  cases checkPath (p.child name) with
  | error fault => rfl
  | ok _ =>
    simp only [Except.bind]
    cases t.lookUp base name with
    | error fault => rfl
    | ok found =>
      cases found with
      | none => rfl
      | some node => cases node <;> rfl

/-- The path to an entry of a directory that was reached has nothing that no path may have, unless the
name has a NUL character or the path as a whole is too long. -/
theorem checkPath_child (h : t.directory? p = some base) (hname : name ≠ "")
    (hnul : ∀ c ∈ name.toList, c.toNat ≠ 0) (hfits : (p.child name).text.utf8ByteSize ≤ maxPath) :
    checkPath (p.child name) = .ok () := by
  have hdir : ¬p.pieces.any (fun name => name.toList.any fun c => c.toNat == 0) = true := by
    intro hbad
    simp only [directory?, locate, bind, Except.bind, checkPath, if_pos hbad] at h
    cases h
  have hempty : ¬(p.child name).isEmpty = true := by
    rw [Path.isEmpty_child p hname]
    exact Bool.false_ne_true
  rw [checkPath, if_neg, if_neg hempty, if_neg (Nat.not_lt.mpr hfits)]
  simp only [Path.child_eq, List.any_append, List.any_cons, List.any_nil, Bool.or_false,
    Bool.or_eq_true, not_or]
  constructor
  · -- The pieces before the name are pieces of the path to the directory.
    intro hbad
    obtain ⟨piece, hpiece, hnul'⟩ := List.any_eq_true.mp hbad
    refine hdir (List.any_eq_true.mpr ⟨piece, ?_, hnul'⟩)
    unfold Path.stem at hpiece
    split at hpiece
    · exact List.dropLast_subset _ hpiece
    · exact hpiece
  · intro hbad
    obtain ⟨c, hc, hzero⟩ := List.any_eq_true.mp hbad
    exact hnul c hc (by simpa using hzero)

end Tree

namespace Store

variable {s : Store} {t t' : Tree} {kind : FileKind} {user : UInt32} {name : String}
  {data : List UInt8} {path dir : Path}

/-- A length that a description can give is the one that it gives. -/
theorem toNat_ofNat_length {length : Nat} (h : length ≤ maxLength) :
    (UInt32.ofNat length).toNat = length := by
  refine UInt32.toNat_ofNat_of_lt' ?_
  simp only [maxLength] at h
  simp only [UInt32.size]
  omega

/-- A file that has a path is an entry of the directory for its kind. -/
theorem resolve_eq_ok (h : s.resolve kind user name = .ok path) :
    isPlainName name = true ∧ ∃ dir, s.directory kind user = .ok dir ∧ path = dir.child name := by
  simp only [resolve, bind, Except.bind, throw, throwThe, MonadExceptOf.throw] at h
  split at h
  · cases h
  · next hplain =>
    split at h
    · cases h
    · next dir hdir =>
      cases h
      exact ⟨by simpa using hplain, dir, hdir, rfl⟩

/-- A plain name has a path wherever its kind has a directory. -/
theorem resolve_of_plain (hplain : isPlainName name = true) (hdir : s.directory kind user = .ok dir) :
    s.resolve kind user name = .ok (dir.child name) := by
  simp only [resolve, hplain, hdir]
  rfl

/-- Storing a file that has a path, with what is asked of the tree. -/
theorem save_eq (hplain : isPlainName name = true) (hdir : s.directory kind user = .ok dir)
    (t : Tree) (data : List UInt8) :
    s.save t kind user name data =
      if t.isDirectory dir then
        (t.writeFile (dir.child name) { bytes := data }).mapError fun fault => .io fault.message
      else .error (.notFound dir) := by
  simp only [save, bind, Except.bind, throw, throwThe, MonadExceptOf.throw,
    resolve_of_plain hplain hdir, hdir]
  cases t.isDirectory dir with
  | false => rfl
  | true =>
    simp only [Bool.not_true, Bool.false_eq_true, ↓reduceIte]
    cases t.writeFile (dir.child name) { bytes := data } <;> rfl

/-- After a file was stored its path leads to it, and nothing else has changed. -/
theorem stored_of_save (h : s.save t kind user name data = .ok t') :
    ∃ path, s.resolve kind user name = .ok path ∧ t.Stored path { bytes := data } t' := by
  cases hpath : s.resolve kind user name with
  | error e =>
    simp only [save, bind, Except.bind, hpath] at h
    cases h
  | ok path =>
    obtain ⟨hplain, dir, hdir, rfl⟩ := resolve_eq_ok hpath
    have hname := Path.ofPiece_of_plain hplain
    rw [save_eq hplain hdir] at h
    split at h
    · next hisdir =>
      obtain ⟨base, hbase⟩ := Option.isSome_iff_exists.mp hisdir
      have hdest := Tree.destination_child hbase hname
      rw [Tree.writeFile_child hbase hname] at h
      -- The path could be checked and its end was looked up, and no directory was there.
      cases hcheck : Tree.checkPath (dir.child name) with
      | error fault => rw [hcheck] at h; cases h
      | ok _ =>
        cases hfound : t.lookUp base name with
        | error fault => rw [hcheck, hfound] at h; cases h
        | ok found =>
          simp only [hcheck, hfound, Except.bind] at h
          split at h
          · cases h
          · next hfile =>
            cases h
            refine ⟨_, rfl, by rw [hdest], ?_, fun q hq => ?_⟩
            · rw [hdest]
              exact Tree.locate_set_child hbase hname hcheck hfound hfile
            · rw [hdest] at hq
              rw [Tree.get?_set _ _ _ _ (by simp), if_neg hq]
    · cases h

/-- What storing a file comes to depends on the way to it only. -/
theorem save_congr (hpath : s.resolve kind user name = .ok path) (h : Tree.AgreeOn path.way t t')
    (data : List UInt8) :
    s.save t' kind user name data =
      (s.save t kind user name data).map fun _ =>
        t'.set path.destination (.file { bytes := data }) := by
  obtain ⟨hplain, dir, hdir, rfl⟩ := resolve_eq_ok hpath
  have hname := Path.ofPiece_of_plain hplain
  -- The trees agree on the way to the directory, and on the entry with the name.
  rw [Path.way_child dir hname] at h
  have hbefore : Tree.AgreeOn dir.way t t' := fun q hq => h q (List.mem_append_left _ hq)
  have hend := h _ (List.mem_append_right _ (List.mem_singleton_self _))
  rw [save_eq hplain hdir, save_eq hplain hdir, Tree.isDirectory_congr hbefore]
  split
  · next hisdir =>
    obtain ⟨base, hbase⟩ := Option.isSome_iff_exists.mp hisdir
    have hbase' : t'.directory? dir = some base := by
      rwa [Tree.directory?, Tree.locate_congr hbefore]
    have hdest := Tree.destination_child hbase hname
    rw [hdest] at hend
    rw [Tree.writeFile_child hbase hname, Tree.writeFile_child hbase' hname,
      Tree.lookUp_congr hend, hdest]
    cases Tree.checkPath (dir.child name) with
    | error fault => rfl
    | ok _ =>
      cases t.lookUp base name with
      | error fault => rfl
      | ok found =>
        simp only [Except.bind]
        split <;> rfl
  · rfl

/-- A file is accepted if its directory is there, the system takes its path and its name, and no
directory is in its place. -/
theorem exists_save (hplain : isPlainName name = true) (hdir : s.directory kind user = .ok dir)
    (hisdir : t.isDirectory dir = true) (hnul : ∀ c ∈ name.toList, c.toNat ≠ 0)
    (hfits : (dir.child name).text.utf8ByteSize ≤ Tree.maxPath)
    (hshort : name.utf8ByteSize ≤ Tree.maxName)
    (hfree : t.isDirectory (dir.child name) = false) (data : List UInt8) :
    ∃ t', s.save t kind user name data = .ok t' := by
  have hname := Path.ofPiece_of_plain hplain
  obtain ⟨base, hbase⟩ := Option.isSome_iff_exists.mp hisdir
  have hcheck := Tree.checkPath_child hbase (Tree.name_ne_empty hname) hnul hfits
  have hfound : t.lookUp base name = .ok (t.get? (base ++ [name])) := by
    rw [Tree.lookUp, if_neg (Nat.not_lt.mpr hshort)]
  have hfile : t.get? (base ++ [name]) ≠ some .directory := by
    -- A directory there could be reached by the path of the file.
    intro hget
    simp only [Tree.isDirectory, Tree.directory?, Tree.locate_child hbase hname, hcheck, hfound, hget,
      Except.bind, Option.isSome_some] at hfree
    cases hfree
  refine ⟨t.set (base ++ [name]) (.file { bytes := data }), ?_⟩
  rw [save_eq hplain hdir, if_pos hisdir, Tree.writeFile_child hbase hname, hcheck, hfound]
  simp only [Except.bind, if_neg hfile]
  rfl

/-- What is found depends on the way to it only. -/
theorem openFile_congr (h : ∀ path, s.resolve kind user name = .ok path → Tree.AgreeOn path.way t t') :
    s.openFile t' kind user name = s.openFile t kind user name := by
  cases hpath : s.resolve kind user name with
  | error e => simp only [openFile, bind, Except.bind, hpath]
  | ok path => simp only [openFile, bind, Except.bind, hpath, Tree.locate_congr (h path hpath)]

/-- What was opened is a file that the path leads to. -/
theorem locate_of_openFile {place : Place} {size : UInt32}
    (h : s.openFile t kind user name = .ok (place, size)) :
    ∃ path content, s.resolve kind user name = .ok path ∧ t.locate path = .ok (place, .file content) := by
  cases hpath : s.resolve kind user name with
  | error e => simp only [openFile, bind, Except.bind, hpath] at h; cases h
  | ok path =>
    simp only [openFile, bind, Except.bind, hpath, throw, throwThe, MonadExceptOf.throw] at h
    split at h
    · cases h
    · cases h
    · cases h
    · next found content hlocate =>
      split at h
      · cases h
      · cases h
        exact ⟨path, content, rfl, hlocate⟩

/-- A file that a path leads to is opened as long as its length can be described. -/
theorem openFile_eq_ok {place : Place} {content : Content}
    (hpath : s.resolve kind user name = .ok path) (h : t.locate path = .ok (place, .file content))
    (hlen : content.length ≤ maxLength) :
    s.openFile t kind user name = .ok (place, UInt32.ofNat content.length) := by
  simp only [openFile, bind, Except.bind, hpath, h, if_neg (Nat.not_lt.mpr hlen)]
  rfl

end Store

end Depot.Storage
