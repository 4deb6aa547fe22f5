import ContainerUsage.FileSystem.Error
import ContainerUsage.Text.Pieces
import ContainerUsage.Text.Utf8
/-!
# Paths

A path is kept as it is written, as the list of what stands between its slashes.  An empty piece and
the single dot lead nowhere, and still they matter: they count for the length of a path, which is
limited, and a path that ends in a slash insists on a directory.  Whether there is a slash at the
start does not matter, as every path starts at the root.

`check` says which paths no operation takes, and `join` is the path of an entry in a directory,
which adds a slash only if there is none.
-/

namespace ContainerUsage

/-- The name of a directory entry. -/
abbrev Name := Bytes

/-- The length of the longest name that an entry can have. -/
def Name.maxLength : Nat := 255

/-- A path. -/
structure Path where
  /-- What stands between the slashes. -/
  pieces : List Name
  deriving DecidableEq, Repr

namespace Path

/-- The name by which every directory has itself as an entry. -/
def here : Name := Utf8.encode "."

/-- The name by which every directory has the one above as an entry. -/
def up : Name := Utf8.encode ".."

/-- The path that is written in a text. -/
def ofText (text : String) : Path :=
  ⟨(Text.pieces (· = '/') text.toList).map fun piece => Utf8.encode (String.ofList piece)⟩

/-- The path of an entry in the directory at a path. -/
def join (path : Path) (name : Name) : Path :=
  if path.pieces.getLast? = some [] then ⟨path.pieces.dropLast ++ [name]⟩
  else ⟨path.pieces ++ [name]⟩

/-! ## Which paths are taken -/

/-- The length of a path as it is written: its pieces and a slash between each two of them. -/
def size (path : Path) : Nat := path.pieces.foldl (fun size piece => size + piece.length + 1) 0 - 1

/-- The length of the longest path that is taken. -/
def maxSize : Nat := 4095

/-- Whether a path is short enough. -/
def fits (path : Path) : Bool := path.size ≤ maxSize

/-- Whether there is a zero byte in a path. -/
def hasZero (path : Path) : Bool := path.pieces.any (·.contains 0)

/-- Refuses a path that no operation takes: one with a zero byte, one that is too long, and one in
which nothing is written. -/
def check (path : Path) : Except IoError Unit :=
  if path.hasZero then .error .zeroByte
  else if !path.fits then .error .nameTooLong
  else if path.pieces = [[]] then .error .notFound
  else .ok ()

/-! ## Parts of a path -/

/-- Whether a path ends in a slash. -/
def endsInSlash (path : Path) : Bool := path.pieces.getLast? = some []

/-- A list of pieces without the empty ones at its end. -/
def trimEnd (pieces : List Name) : List Name := (pieces.reverse.dropWhile (·.isEmpty)).reverse

/-- The pieces that stand before the last name. -/
def parent (path : Path) : List Name := (trimEnd path.pieces).dropLast

/-- The last name, unless there is none. -/
def last? (path : Path) : Option Name := (trimEnd path.pieces).getLast?

/-- The names on a path. -/
def names (path : Path) : List Name := path.pieces.filter fun piece => piece ≠ [] ∧ piece ≠ here

/-- The paths of the directories above the end of a path, below the root, with the nearest first. -/
def above (path : Path) : List Path :=
  let names := path.names
  ((List.range names.length).drop 1).reverse.map fun n => ⟨[] :: names.take n⟩

end Path

end ContainerUsage
