import Depot.Storage.Path

/-!
# The storage tree

Files and directories as a finite map from places. The top is always a directory; every other entry is
in the map. The operations are those of a file system: each follows a path step by step, and either
changes exactly the entry that the path leads to or fails with the reason that was found first on the
way.

`get?_set` says what a change does to every place.
-/

namespace Depot.Storage

/-- The content of a file: bytes, followed by so many zeros that nobody wrote. -/
structure Content where
  bytes : List UInt8 := []
  hole : Nat := 0
  deriving DecidableEq, Repr

namespace Content

/-- The length of a file. -/
def length (c : Content) : Nat := c.bytes.length + c.hole

/-- The whole content. -/
def toList (c : Content) : List UInt8 := c.bytes ++ List.replicate c.hole 0

/-- At most `count` bytes from `start` on: fewer where the file ends. -/
def block (c : Content) (start count : Nat) : List UInt8 :=
  let stored := (c.bytes.drop start).take count
  if stored.length = count then stored
  else
    -- Zeros are only spelled out as far as the block reaches, the hole may be much longer.
    let zeros := min (count - stored.length) (c.length - start - stored.length)
    stored ++ List.replicate zeros 0

end Content

/-- An entry of the tree. -/
inductive Node
  | directory
  | file (content : Content)
  deriving DecidableEq, Repr

/-- The reasons for which an operation on the tree fails. -/
inductive Fault
  | notFound
  /-- A name was looked up in a file. -/
  | notDirectory
  | isDirectory
  | alreadyExists
  | nameTooLong
  /-- A name has a NUL character. -/
  | badName
  deriving DecidableEq, Repr

/-- The text of a fault. -/
def Fault.message : Fault → String
  | notFound => "no such file or directory"
  | notDirectory => "not a directory"
  | isDirectory => "is a directory"
  | alreadyExists => "file exists"
  | nameTooLong => "file name too long"
  | badName => "file name contained an unexpected NUL byte"

/-- Files and directories by place. -/
structure Tree where
  entries : List (Place × Node) := []
  deriving DecidableEq, Repr

namespace Tree

/-- The longest name of an entry, in bytes. -/
def maxName : Nat := 255

/-- The longest path, in bytes. -/
def maxPath : Nat := 4095

/-- The entry at a place. -/
def get? (t : Tree) (p : Place) : Option Node :=
  if p = [] then some .directory else t.entries.lookup p

/-- Puts an entry at a place, instead of the one that was there. -/
def set (t : Tree) (p : Place) (node : Node) : Tree :=
  let rec go : List (Place × Node) → List (Place × Node)
    | [] => [(p, node)]
    | (q, n) :: rest => if q = p then (p, node) :: rest else (q, n) :: go rest
  { entries := go t.entries }

/-- Takes away all entries below a place. -/
def clear (t : Tree) (p : Place) : Tree :=
  { entries := t.entries.filter fun (q, _) => !p.isPrefixOf q || q == p }

/-- Takes away the entry at a place and all entries below it. -/
def remove (t : Tree) (p : Place) : Tree :=
  { entries := t.entries.filter fun (q, _) => !p.isPrefixOf q }

/-- The entries directly below a place, by name. -/
def children (t : Tree) (p : Place) : List (String × Node) :=
  t.entries.filterMap fun (q, node) =>
    match q.getLast? with
    -- Deeper entries are those of the directories below.
    | some name => if q = p ++ [name] then some (name, node) else none
    | none => none

/-- The entry of a directory with a name, which must not be too long to be looked up. -/
def lookUp (t : Tree) (base : Place) (name : String) : Except Fault (Option Node) :=
  if name.utf8ByteSize > maxName then .error .nameTooLong else .ok (t.get? (base ++ [name]))

/-- Follows steps from an entry that is known to exist. Every step is one out of a directory, and two
dots at the top stay there. -/
def walk (t : Tree) (base : Place) (node : Node) : List Path.Step → Except Fault (Place × Node)
  | [] => .ok (base, node)
  | step :: rest =>
      match node with
      -- Not even a dot leads on from a file.
      | .file _ => .error .notDirectory
      | .directory =>
          match step with
          | .here => t.walk base .directory rest
          | .up => t.walk base.dropLast .directory rest
          | .down name =>
              match t.lookUp base name with
              | .error fault => .error fault
              | .ok none => .error .notFound
              -- Whether the entry is a directory matters only to the step after this one.
              | .ok (some next) => t.walk (base ++ [name]) next rest

/-- What no path may be, before anything is looked up. -/
def checkPath (p : Path) : Except Fault Unit :=
  -- What the system refuses before it is asked comes first, then what it refuses by itself.
  if p.pieces.any fun name => name.toList.any fun c => c.toNat == 0 then .error .badName
  else if p.isEmpty then .error .notFound
  else if p.text.utf8ByteSize > maxPath then .error .nameTooLong
  else .ok ()

/-- The entry that a path leads to and its place, or what was missing on the way. -/
def locate (t : Tree) (p : Path) : Except Fault (Place × Node) := do
  checkPath p
  t.walk [] .directory p.steps

/-- The place of the directory that a path leads to, if it leads to one. -/
def directory? (t : Tree) (p : Path) : Option Place :=
  match t.locate p with
  | .ok (place, .directory) => some place
  | _ => none

/-- Whether a path leads to a directory. -/
def isDirectory (t : Tree) (p : Path) : Bool := (t.directory? p).isSome

/-- Where an entry at the end of a path is to be made: in a directory that exists, under a name, with
what is there now. A path whose last step is not a name leads to a directory, and has no name. -/
def site (t : Tree) (p : Path) : Except Fault (Option (Place × Option Node)) := do
  checkPath p
  let (before, last) := p.split
  match ← t.walk [] .directory before with
  | (_, .file _) => .error .notDirectory
  | (base, .directory) =>
      -- The name is looked up here, so one that is too long is found before anything is made.
      match last with
      | .down name => return some (base ++ [name], ← t.lookUp base name)
      | _ => return none

/-- Makes a directory in one that exists. -/
def createDirectory (t : Tree) (p : Path) : Except Fault Tree := do
  match ← t.site p with
  | some (place, none) => .ok (t.set place .directory)
  | _ => .error .alreadyExists

/-- Makes a directory, the nearest of the paths given, after those above it that are missing. A
directory is there already as well as made. Only where something above is missing is anything above
made, and what was made stays when a later one fails. -/
def createChain (t : Tree) : List Path → Except Fault Unit × Tree
  | [] => (.ok (), t)
  | p :: above =>
      -- Somebody else may have made the directory. That is as good, unless it is a file.
      let settled (t : Tree) (fault : Fault) : Except Fault Unit × Tree :=
        if fault = .alreadyExists && t.isDirectory p then (.ok (), t) else (.error fault, t)
      match t.createDirectory p with
      | .ok t => (.ok (), t)
      | .error .notFound =>
          match t.createChain above with
          | (.error fault, t) => (.error fault, t)
          | (.ok (), t) =>
              match t.createDirectory p with
              -- With those above it in place it is tried once more, and not a third time.
              | .ok t => (.ok (), t)
              | .error fault => settled t fault
      | .error fault => settled t fault

/-- Makes a directory, and those above it that are missing. The path leads to an entry of some directory, so
it is never empty. -/
def createDirectories (t : Tree) (p : Path) : Except Fault Unit × Tree :=
  t.createChain (p :: p.above)

/-- Makes a file, or gives one that exists a new content. A path that ends in a slash means no file. -/
def writeFile (t : Tree) (p : Path) (content : Content) : Except Fault Tree := do
  match ← t.site p with
  | none => .error .isDirectory
  | some (_, some .directory) => .error .isDirectory
  | some (place, _) => if p.endsInSlash then .error .isDirectory else .ok (t.set place (.file content))

/-- Makes a file with the directories above it, as far as that can be done. -/
def put (t : Tree) (p : Path) (content : Content) : Tree :=
  let t := (t.createChain p.above).2
  match t.writeFile p content with
  | .ok t => t
  | .error _ => t

/-- Takes away the entry that a path leads to, with all entries below it. A directory that is not
named by the last step is emptied and stays. -/
def discard (t : Tree) (p : Path) : Tree :=
  match t.locate p, p.split.2 with
  | .error _, _ => t
  | .ok (place, _), .down _ => t.remove place
  | .ok (place, _), _ => t.clear place

/-- All entries below a place, each with its path from there and the content of a file. A directory's
path ends in a slash, and the entries are sorted by path. -/
def listing (t : Tree) (base : Place) : List (String × Option Content) :=
  let below := t.entries.filterMap fun (q, node) =>
    if base.isPrefixOf q && q ≠ base then
      let text := Path.text ⟨q.drop base.length⟩
      match node with
      | .directory => some (text ++ "/", none)
      | .file content => some (text, some content)
    else none
  below.mergeSort fun a b => a.1 ≤ b.1

/-- After an entry was put in, in the place of an older one or at the end, it is found there and only there.
-/
theorem lookup_go (p q : Place) (node : Node) (entries : List (Place × Node)) :
    (set.go p node entries).lookup q = if q = p then some node else entries.lookup q := by
  induction entries with
  | nil =>
    by_cases hq : q = p
    · simp [set.go, hq]
    · simp [set.go, List.lookup_cons, hq, beq_eq_false_iff_ne.2 hq]
  | cons e rest ih =>
    obtain ⟨r, n⟩ := e
    -- The older entry is replaced where it stands; an entry of another place is passed by.
    by_cases hr : r = p
    · subst hr
      by_cases hq : q = r
      · simp [set.go, hq]
      · simp [set.go, List.lookup_cons, hq, beq_eq_false_iff_ne.2 hq]
    · by_cases hq : q = r
      · simp [set.go, hr, hq]
      · simp [set.go, List.lookup_cons, hr, beq_eq_false_iff_ne.2 hq, ih]

/-- Putting in a node changes what is at its own place. The top directory is not among the entries, so it is
not a place to put one. -/
theorem get?_set (t : Tree) (p q : Place) (node : Node) (hp : p ≠ []) :
    (t.set p node).get? q = if q = p then some node else t.get? q := by
  unfold get?
  by_cases hq : q = []
  · simp [hq, hp.symm]
  · simp [hq, set, lookup_go]

end Tree

end Depot.Storage
