import ContainerUsage.FileSystem.Path
/-!
# A tree of files

A file system is a tree of directories, files and symbolic links, together with the contents of its
files.  The tree says where a file is, and the contents belong to the file and not to its place: a
file that is open can still be read after it was renamed or removed, and sees what is written to it
in the meantime.  The entries of a directory have an order, which is the order in which they are
listed; nothing else depends on it.

`walk` follows a path, through links if need be, to a directory, to a file, or to a place where
nothing is.  On the way it keeps a `Trail` of the directories it went down through, so that going up
is a step back on the trail.  Following links ends with an error after forty of them, as it does in
an operating system.
-/

namespace ContainerUsage

/-- Which file an open file or a directory entry stands for. -/
structure FileId where
  index : Nat
  deriving DecidableEq, Repr

/-- What a directory entry stands for. -/
inductive Node where
  | file (id : FileId)
  | directory (entries : List (Name × Node))
  /-- A symbolic link, with the path to which it leads. -/
  | link (target : Path)

/-- The entries of a directory, in the order in which they are listed. -/
abbrev Entries := List (Name × Node)

/-- Whether a node is a directory itself, and not a link to one. -/
def Node.isDirectory : Node → Bool
  | .directory _ => true
  | _ => false

/-- The names that lead from the root down through directories. -/
abbrev Location := List Name

/-- The directories between the root and a directory, which is the first of them, each with the name
by which the one above has it. -/
abbrev Trail := List (Name × Entries)

/-- The names on a trail. -/
def Trail.location (trail : Trail) : Location := (trail.map Prod.fst).reverse

/-- A place in the tree, whether something is there or not: a directory and a name in it. -/
structure Place where
  directory : Trail
  name : Name

/-- The names that lead to a place. -/
def Place.location (place : Place) : Location := place.directory.location ++ [place.name]

/-- A file system. -/
structure FileSystem where
  /-- The entries of the root. -/
  entries : Entries := []
  /-- The contents of all files that there ever were, by the index of the file. -/
  contents : List Bytes := []

namespace FileSystem

/-- The contents of a file. -/
def content (fs : FileSystem) (id : FileId) : Bytes := fs.contents[id.index]?.getD []

/-- The entries of the directory at the end of a trail. -/
def entriesOf (fs : FileSystem) : Trail → Entries
  | [] => fs.entries
  | (_, entries) :: _ => entries

/-- What is at a place.  A name that no entry can have is not looked up. -/
def look (fs : FileSystem) (place : Place) : Except IoError (Option Node) :=
  if place.name.length > Name.maxLength then .error .nameTooLong
  else .ok ((fs.entriesOf place.directory).lookup place.name)

/-! ## Following a path -/

/-- Where a path leads. -/
inductive Destination where
  | directory (trail : Trail)
  | file (id : FileId)
  /-- To a place in a directory where nothing is. -/
  | absent (place : Place)

/-- The number of links that are followed at most. -/
def maxLinks : Nat := 40

/-- Follows the pieces `todo` of a path from the directory at the end of a trail, through at most
`links` links.  If `creating` is set, a file is about to be created at the end, so the path must not
end in a slash. -/
def walkFrom (fs : FileSystem) (creating : Bool) (links : Nat) (trail : Trail) (todo : List Name) :
    Except IoError Destination :=
  match todo with
  | [] => .ok (.directory trail)
  | name :: rest =>
    if name = [] ∨ name = Path.here then walkFrom fs creating links trail rest
    else if name = Path.up then walkFrom fs creating links trail.tail rest
    else if creating && !rest.isEmpty && rest.all (·.isEmpty) then .error .isADirectory
    else
      match fs.look ⟨trail, name⟩ with
      | .error e => .error e
      | .ok none => if rest.isEmpty then .ok (.absent ⟨trail, name⟩) else .error .notFound
      | .ok (some (.directory entries)) =>
        walkFrom fs creating links ((name, entries) :: trail) rest
      | .ok (some (.file id)) => if rest.isEmpty then .ok (.file id) else .error .notADirectory
      | .ok (some (.link target)) =>
        match links with
        | 0 => .error .filesystemLoop
        | links + 1 => walkFrom fs creating links [] (target.pieces ++ rest)
termination_by (links, todo.length)

/-- Follows a path. -/
def walk (fs : FileSystem) (creating : Bool) (path : Path) : Except IoError Destination := do
  path.check
  fs.walkFrom creating maxLinks [] path.pieces

/-- The trail to the directory at the end of a path. -/
def trailTo (fs : FileSystem) (path : Path) : Except IoError Trail :=
  match fs.walk false path with
  | .ok (.directory trail) => .ok trail
  | .ok (.file _) => .error .notADirectory
  | .ok (.absent _) => .error .notFound
  | .error e => .error e

/-- The entries of the directory at the end of a path. -/
def list (fs : FileSystem) (path : Path) : Except IoError Entries := do
  return fs.entriesOf (← fs.trailTo path)

/-! ## Open files -/

/-- An open file, and where the next read starts.  A directory can be opened, but not read. -/
structure Handle where
  /-- The file, or none for a directory. -/
  file? : Option FileId
  position : Nat
  deriving DecidableEq, Repr

/-- Opens what is at the end of a path for reading. -/
def openFile (fs : FileSystem) (path : Path) : Except IoError Handle :=
  match fs.walk false path with
  | .ok (.file id) => .ok ⟨some id, 0⟩
  | .ok (.directory _) => .ok ⟨none, 0⟩
  | .ok (.absent _) => .error .notFound
  | .error e => .error e

/-- What is in front of an open file. -/
def unread (fs : FileSystem) (handle : Handle) : Except IoError Bytes :=
  match handle.file? with
  | some id => .ok ((fs.content id).drop handle.position)
  | none => .error .isADirectory

/-- An open file at its start again. -/
def Handle.rewind (handle : Handle) : Handle := { handle with position := 0 }

end FileSystem

end ContainerUsage
