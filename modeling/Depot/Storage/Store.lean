import Depot.Packet.Kind
import Depot.Storage.Tree
import Depot.Text.Numerals
import Depot.Text.Quoted

/-!
# The store

A store keeps files in two places: content that all users share lies directly under one root, and each
user's files lie in a directory of the other root that is named by the user id. The numeric directory
names under the user root are the register of the ids that were given out.

Every operation takes the storage tree and, where it changes it, gives back the new one.
-/

namespace Depot.Storage

/-- The ways in which a store refuses. -/
inductive StoreError
  /-- A file name is not plain. -/
  | invalidName (name : String)
  /-- Nothing is stored under a file kind. -/
  | unsupportedKind (kind : FileKind)
  | notFound (path : Path)
  /-- A file's length does not fit its description. -/
  | tooLarge (length : Nat)
  | noMoreIds
  /-- Anything else that the file system says. -/
  | io (detail : String)
  deriving DecidableEq, Repr

/-- The name of a kind of store error. -/
def StoreError.label : StoreError → String
  | invalidName _ => "InvalidName"
  | unsupportedKind _ => "UnsupportedKind"
  | notFound _ => "NotFound"
  | tooLarge _ => "TooLarge"
  | noMoreIds => "NoMoreIds"
  | io _ => "Io"

/-- The text of a store error. -/
def StoreError.message : StoreError → String
  | invalidName name => "invalid file name: " ++ Text.Quoted.encode name
  | unsupportedKind kind => "file kind " ++ kind.label ++ " has no storage area"
  | notFound path => "not found: " ++ path.text
  | tooLarge length => s!"file is too large to describe: {length} bytes"
  | noMoreIds => "no more user ids available"
  | io detail => detail

/-- The two roots of a store. -/
structure Store where
  dlcRoot : Path
  userRoot : Path
  deriving DecidableEq, Repr

namespace Store

/-- The directories that every bootstrapped store has under its shared root. -/
def sharedDirectories : List String := ["bg", "ecg", "scg", "scripts"]

/-- The largest user id. -/
def maxUser : Nat := 4294967295

/-- The largest file that a description can give the length of. -/
def maxLength : Nat := 4294967295

/-- A store with roots that exist; the first that does not is reported. -/
def open? (t : Tree) (dlcRoot userRoot : Path) : Except StoreError Store :=
  if !t.isDirectory dlcRoot then .error (.notFound dlcRoot)
  else if !t.isDirectory userRoot then .error (.notFound userRoot)
  else .ok { dlcRoot, userRoot }

/-- Makes the directories, one after another, up to the first that cannot be made. -/
def makeAll (t : Tree) : List Path → Except Fault Unit × Tree
  | [] => (.ok (), t)
  | p :: rest =>
      match t.createDirectories p with
      | (.error fault, t) => (.error fault, t)
      | (.ok (), t) => makeAll t rest

/-- The store under a directory. -/
def under (base : Path) : Store := { dlcRoot := base.child "dlc", userRoot := base.child "user" }

/-- Makes the directories of a new store under a directory; those that are there stay as they are. -/
def bootstrap (t : Tree) (base : Path) : Except Fault Store × Tree :=
  let store := under base
  -- With a directory for user 0 there is a user root, and ids begin with 1.
  let paths := sharedDirectories.map store.dlcRoot.child ++ [store.userRoot.child "0"]
  let (made, t) := makeAll t paths
  (made.map fun _ => store, t)

/-- The directory of a user. -/
def userDirectory (s : Store) (user : UInt32) : Path := s.userRoot.child (toString user.toNat)

/-- The directory for files of a kind. -/
def directory (s : Store) (kind : FileKind) (user : UInt32) : Except StoreError Path :=
  match kind with
  | .dlc => .ok s.dlcRoot
  | .user => .ok (s.userDirectory user)
  | other => .error (.unsupportedKind other)

/-- The path of a file. A name that is not plain is reported before a kind without files. -/
def resolve (s : Store) (kind : FileKind) (user : UInt32) (name : String) :
    Except StoreError Path := do
  if !isPlainName name then throw (.invalidName name)
  return (← s.directory kind user).child name

/-- Finds a file that is to be read: its place and its length. Whatever is not a regular file is as
good as missing. -/
def openFile (s : Store) (t : Tree) (kind : FileKind) (user : UInt32) (name : String) :
    Except StoreError (Place × UInt32) := do
  let path ← s.resolve kind user name
  match t.locate path with
  -- Only what is missing is reported as missing; a file in the place of a directory is not.
  | .error .notFound => throw (.notFound path)
  | .error fault => throw (.io fault.message)
  | .ok (_, .directory) => throw (.notFound path)
  | .ok (place, .file content) =>
      if content.length > maxLength then throw (.tooLarge content.length)
      return (place, UInt32.ofNat content.length)

/-- Stores a file as a whole. Its directory has to be there. -/
def save (s : Store) (t : Tree) (kind : FileKind) (user : UInt32) (name : String)
    (data : List UInt8) : Except StoreError Tree := do
  let path ← s.resolve kind user name
  let directory ← s.directory kind user
  -- The directory of a user is made when its id is given out, and never here.
  if !t.isDirectory directory then throw (.notFound directory)
  match t.writeFile path { bytes := data } with
  | .error fault => throw (.io fault.message)
  | .ok t => return t

/-- The user id that an entry of the user root denotes: only directories count, and their names are
read as decimal numbers. -/
def userId? : String × Node → Option Nat
  | (name, .directory) => Text.Decimal.natural? maxUser name
  | (_, .file _) => none

/-- The highest id that was given out; 0 if none was. -/
def highestUser (s : Store) (t : Tree) : Except StoreError Nat :=
  match t.directory? s.userRoot with
  | some place => .ok (((t.children place).filterMap userId?).foldl max 0)
  | none => .error .noMoreIds

/-- Makes the directory of the first of `count` ids from `candidate` on that has no entry yet. -/
def claim (s : Store) (t : Tree) (candidate : Nat) :
    Nat → Except StoreError (UInt32 × Tree)
  | 0 => .error .noMoreIds
  | count + 1 =>
      match t.createDirectory (s.userRoot.child (toString candidate)) with
      | .ok t => .ok (UInt32.ofNat candidate, t)
      -- Somebody else was faster, or something that is no directory has the name.
      | .error .alreadyExists => s.claim t (candidate + 1) count
      | .error fault => .error (.io fault.message)

/-- Gives out a new user id: the first one above the highest that is not in use. -/
def allocate (s : Store) (t : Tree) : Except StoreError (UInt32 × Tree) := do
  let highest ← s.highestUser t
  s.claim t (highest + 1) (maxUser - highest)

/-- Gives out so many ids one after another, as far as there are any. -/
def allocateAll (s : Store) (t : Tree) : Nat → List (Except StoreError UInt32) × Tree
  | 0 => ([], t)
  | count + 1 =>
      let (id, t) := match s.allocate t with
        | .ok (id, t) => (.ok id, t)
        | .error e => (.error e, t)
      let (ids, t) := s.allocateAll t count
      (id :: ids, t)

/-- The numbers that name entries of the user root, whatever these are, in ascending order. -/
def numbers? (s : Store) (t : Tree) : Option (List Nat) :=
  (t.directory? s.userRoot).map fun place =>
    -- A file is in the way of an id as much as a directory is.
    let named (e : String × Node) : Option Nat := Text.Decimal.natural? maxUser e.1
    ((t.children place).filterMap named).mergeSort

end Store

end Depot.Storage
