import ContainerUsage.FileSystem.Tree
/-!
# Changing a tree of files

The operations by which a file system changes between two reads: making directories, writing files
in place, removing, renaming and linking.  Those that make one step change nothing if they fail.
Making directories together with the ones above, and removing a directory with all that is in it,
take several steps, and if one of them fails the earlier ones are not taken back.

An operation on an entry finds its place by the path up to the last name, which is not followed if
it is a link.  A path whose last name is one of the two dot names has a directory at its end, but no
place.

Every change goes through `updateDirectory`, which replaces the entries of one directory and leaves
everything else alone.  A new entry is listed after the ones that are there.
-/

namespace ContainerUsage

/-- Changes the entries of the directory at a location. -/
def Node.updateEntries (change : Entries → Entries) : Location → Entries → Entries
  | [], entries => change entries
  | name :: rest, entries =>
    entries.map fun entry =>
      if entry.1 = name then
        match entry.2 with
        | .directory inner => (entry.1, .directory (updateEntries change rest inner))
        | _ => entry
      else entry

namespace FileSystem

/-- Changes the entries of one directory. -/
def updateDirectory (fs : FileSystem) (location : Location) (change : Entries → Entries) :
    FileSystem :=
  { fs with entries := Node.updateEntries change location fs.entries }

/-- Adds an entry at a place. -/
def addEntry (fs : FileSystem) (place : Place) (node : Node) : FileSystem :=
  fs.updateDirectory place.directory.location (· ++ [(place.name, node)])

/-- Removes the entry at a place. -/
def removeEntry (fs : FileSystem) (place : Place) : FileSystem :=
  fs.updateDirectory place.directory.location (·.filter (·.1 ≠ place.name))

/-- The outcome of a change that changes nothing if it fails, and what is there after it. -/
def after (fs : FileSystem) : Except IoError FileSystem → Except IoError Unit × FileSystem
  | .ok changed => (.ok (), changed)
  | .error e => (.error e, fs)

/-! ## The place of an entry -/

/-- The place of the last name of a path, unless the path ends in one of the two dot names or has no
name at all. -/
def placeOf (fs : FileSystem) (path : Path) : Except IoError (Option Place) := do
  path.check
  match ← fs.walkFrom false maxLinks [] path.parent with
  | .file _ => throw .notADirectory
  | .absent _ => throw .notFound
  | .directory trail =>
    return (path.last?.filter fun name => name ≠ Path.here ∧ name ≠ Path.up).map fun name =>
      ⟨trail, name⟩

/-- The place for a new entry.  Only a directory can be made at a path that ends in a slash. -/
def vacantPlace (fs : FileSystem) (path : Path) (forDirectory : Bool) : Except IoError Place := do
  let some place ← fs.placeOf path | throw .alreadyExists
  if (← fs.look place).isSome then throw .alreadyExists
  if path.endsInSlash && !forDirectory then throw .notFound
  return place

/-! ## Directories -/

/-- Makes one directory, where nothing is yet. -/
def makeDirectory (fs : FileSystem) (path : Path) : Except IoError FileSystem := do
  return fs.addEntry (← fs.vacantPlace path true) (.directory [])

/-- Makes one directory, unless there is one already, or a link to one. -/
def ensureDirectory (fs : FileSystem) (path : Path) : Except IoError FileSystem :=
  match fs.makeDirectory path, fs.list path with
  | .error _, .ok _ => .ok fs
  | made, _ => made

/-- Makes the directory at the first of some paths.  If its parent is missing, the directories at
the other paths are made before it. -/
def makeDirectoryAfter (fs : FileSystem) : List Path → Except IoError Unit × FileSystem
  | [] => (.error .notFound, fs)
  | path :: above =>
    match fs.ensureDirectory path with
    | .error e =>
      if e ≠ .notFound ∨ above.isEmpty then (.error e, fs)
      else
        match fs.makeDirectoryAfter above with
        | (.error e, changed) => (.error e, changed)
        | (.ok (), changed) => changed.after (changed.ensureDirectory path)
    | made => fs.after made

/-- Makes a directory, and the ones above it if it is only these that are missing. -/
def makeDirectories (fs : FileSystem) (path : Path) : Except IoError Unit × FileSystem :=
  fs.makeDirectoryAfter (path :: path.above)

/-! ## Files -/

/-- Replaces the contents of a file. -/
def setContent (fs : FileSystem) (id : FileId) (content : Bytes) : FileSystem :=
  { fs with contents := fs.contents.set id.index content }

/-- Writes a file: the file that is there gets new contents, and a missing one is created. -/
def write (fs : FileSystem) (path : Path) (content : Bytes) : Except IoError FileSystem :=
  match fs.walk true path with
  | .error e => .error e
  | .ok (.file id) => .ok (fs.setContent id content)
  | .ok (.directory _) => .error .isADirectory
  | .ok (.absent place) =>
    let created := fs.addEntry place (.file ⟨fs.contents.length⟩)
    .ok { created with contents := fs.contents ++ [content] }

/-! ## Removing -/

/-- Removes a file or a link. -/
def remove (fs : FileSystem) (path : Path) : Except IoError FileSystem := do
  let some place ← fs.placeOf path | throw .isADirectory
  match ← fs.look place with
  | none => throw .notFound
  | some (.directory _) => throw .isADirectory
  | some _ => if path.endsInSlash then throw .notADirectory else return fs.removeEntry place

/-- Removes a directory in which nothing is. -/
def removeDirectory (fs : FileSystem) (path : Path) : Except IoError FileSystem := do
  match ← fs.placeOf path with
  | none =>
    match path.last? with
    | none => throw .resourceBusy
    | some name => throw (if name = Path.here then .invalidInput else .directoryNotEmpty)
  | some place =>
    match ← fs.look place with
    | none => throw .notFound
    | some (.directory entries) =>
      if entries.isEmpty then return fs.removeEntry place else throw .directoryNotEmpty
    | some _ => throw .notADirectory

/-- What is at the end of a path, where a link at the very end is not followed unless there is a
slash behind it. -/
def lookAt (fs : FileSystem) (path : Path) : Except IoError Node := do
  match ← fs.placeOf path, path.endsInSlash with
  | some place, false =>
    match ← fs.look place with
    | none => throw .notFound
    | some node => return node
  | _, _ => return .directory (← fs.list path)

/-- Removes what is in a directory, and then the directory.  That it is gone with what was in it,
because the path leads through itself, is no failure. -/
def removeDirectoryTree (fs : FileSystem) (path : Path) : Except IoError Unit × FileSystem :=
  match fs.trailTo path with
  | .error e => (.error e, fs)
  | .ok trail =>
    let emptied := fs.updateDirectory trail.location fun _ => []
    match emptied.removeDirectory path with
    | .error e => (if e = .notFound then .ok () else .error e, emptied)
    | .ok removed => (.ok (), removed)

/-- Removes a directory with all that is in it.  A link is removed itself. -/
def removeTree (fs : FileSystem) (path : Path) : Except IoError Unit × FileSystem :=
  match fs.lookAt path with
  | .error e => (.error e, fs)
  | .ok (.directory _) => fs.removeDirectoryTree path
  | .ok (.link _) => fs.after (fs.remove path)
  | .ok (.file _) => (.error .notADirectory, fs)

/-! ## Renaming and linking -/

/-- Whether a node can take the place of what is at another: a file or a link cannot replace a
directory, and a directory can replace only an empty one. -/
def checkReplaced : Node → Option Node → Except IoError Unit
  | _, none => .ok ()
  | .directory _, some (.directory entries) =>
    if entries.isEmpty then .ok () else .error .directoryNotEmpty
  | .directory _, some _ => .error .notADirectory
  | _, some (.directory _) => .error .isADirectory
  | _, some _ => .ok ()

/-- Moves a node to another place, over what is there.  A directory cannot be moved into itself, nor
over one that it is in. -/
def move (fs : FileSystem) (node : Node) (source target : Place) (replaced : Option Node) :
    Except IoError FileSystem := do
  if source.location.isPrefixOf target.directory.location then throw .invalidInput
  if target.location.isPrefixOf source.directory.location then throw .directoryNotEmpty
  if source.location = target.location then return fs
  checkReplaced node replaced
  return ((fs.removeEntry target).removeEntry source).addEntry target node

/-- Renames what is at the end of a path.  Only a directory can be renamed by paths that end in a
slash. -/
def rename (fs : FileSystem) (source target : Path) : Except IoError FileSystem := do
  if source.hasZero || target.hasZero then throw .zeroByte
  match ← fs.placeOf source, ← fs.placeOf target with
  | some origin, some goal =>
    let some node ← fs.look origin | throw .notFound
    let replaced ← fs.look goal
    if !node.isDirectory && (source.endsInSlash || target.endsInSlash) then throw .notADirectory
    fs.move node origin goal replaced
  | _, _ => throw .resourceBusy

/-- Makes a symbolic link. -/
def makeLink (fs : FileSystem) (path target : Path) : Except IoError FileSystem := do
  if path.hasZero then throw .zeroByte
  target.check
  return fs.addEntry (← fs.vacantPlace path false) (.link target)

end FileSystem

end ContainerUsage
