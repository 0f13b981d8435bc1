/-!
# Paths and file names

A path is text cut at its slashes, and it is kept as it was given, since messages show it. Read from
the left, each piece is a step: an empty piece or a single dot stays in the directory, two dots go up,
and any other piece is a name to go down to. Where that leads is a matter of the storage tree: an
entry's *place* is the list of names on the straight way down to it.

A file name is *plain* when, read as a path, it is one step down and nothing else, and when it has no
separator of any kind. Only plain names are stored, so a name can never lead out of the directory
that it is meant for.
-/

namespace Depot.Storage

/-- The names from the top down to an entry; the top itself is the empty list. -/
abbrev Place := List String

/-- Cuts text at every slash. -/
def splitSlash : List Char → List (List Char)
  | [] => [[]]
  | c :: rest =>
      if c = '/' then [] :: splitSlash rest
      else match splitSlash rest with
        | [] => [[c]]
        | first :: more => (c :: first) :: more

/-- What a piece of a path says. -/
inductive Path.Step
  /-- Stay in the directory. -/
  | here
  /-- Go up to the directory that this one is in. -/
  | up
  /-- Go down to an entry of the directory. -/
  | down (name : String)
  deriving DecidableEq, Repr

/-- The meaning of a piece. -/
def Path.Step.ofPiece : String → Path.Step
  | "" => .here
  | "." => .here
  | ".." => .up
  | name => .down name

/-- The pieces between the slashes of a text. -/
structure Path where
  pieces : List String
  deriving DecidableEq, Repr

namespace Path

/-- The path with a text. -/
def ofText (s : String) : Path := ⟨(splitSlash s.toList).map String.ofList⟩

/-- The text of a path. -/
def text (p : Path) : String := "/".intercalate p.pieces

/-- The steps that a path takes. -/
def steps (p : Path) : List Step := p.pieces.map Step.ofPiece

/-- Whether a path starts with a slash. -/
def isAbsolute (p : Path) : Bool := p.pieces.length > 1 && p.pieces.head? == some ""

/-- The path that goes on with another one. A slash stands between the two, and only one if the first
ends in a slash already. An absolute path stands for itself. -/
def join (p q : Path) : Path :=
  if q.isAbsolute then q
  else if p.pieces.getLast? = some "" then ⟨p.pieces.dropLast ++ q.pieces⟩
  else ⟨p.pieces ++ q.pieces⟩

/-- The path to an entry of a directory. -/
def child (p : Path) (name : String) : Path := p.join ⟨[name]⟩

/-- The paths that end in each piece that is more than a stay, the longest first. The pieces are given
from the last to the first. -/
def cuts : List String → List Path
  | [] => []
  | piece :: rest =>
      if Step.ofPiece piece = .here then cuts rest else ⟨(piece :: rest).reverse⟩ :: cuts rest

/-- The paths above a path, from the nearest to the farthest: each ends before the last name or the
last two dots of the one below. -/
def above (p : Path) : List Path := (cuts p.pieces.reverse).tail

/-- The last step of a path, where slashes at the end count for nothing, with the steps before it. -/
def split (p : Path) : List Step × Step :=
  match p.pieces.reverse.dropWhile (· = "") with
  | [] => ([], .here)
  | last :: before => (before.reverse.map Step.ofPiece, .ofPiece last)

/-- Whether a path is no text at all. It leads nowhere, not even to where it begins. -/
def isEmpty (p : Path) : Bool := p.pieces == [] || p.pieces == [""]

/-- Whether a path ends in a slash. -/
def endsInSlash (p : Path) : Bool := p.pieces.getLast? == some ""

end Path

/-- Whether a character separates names, here or on another system. -/
def isSeparator (c : Char) : Bool := c == '/' || c == '\\'

/-- Whether a text is a plain file name. -/
def isPlainName (s : String) : Bool :=
  (Path.ofText s).steps == [.down s] && !s.toList.any isSeparator

end Depot.Storage
