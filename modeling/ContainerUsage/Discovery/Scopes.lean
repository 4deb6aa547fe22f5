import ContainerUsage.Container.Scope
import ContainerUsage.FileSystem.Tree
/-!
# The container scopes in a tree of cgroups

A container's scope is a directory whose name says so.  Scopes are looked for in the whole tree
below a directory, but not inside scopes, not through links, and not in directories whose path is
too long to list them.

The order of `scopes` is that of a walk with a stack: first the scopes in the directory itself, in
the order of its entries, and then those below its other directories, the last directory first.
-/

namespace ContainerUsage

/-- The scope that a directory entry is, if it is one. -/
def scope? (entry : Name × Node) : Option ScopeName :=
  if entry.2.isDirectory then ScopeName.parse? entry.1 else none

/-- The scopes among the entries of the directory at a path. -/
def directScopes (path : Path) (entries : Entries) : List (Path × ScopeName) :=
  entries.filterMap fun entry => (scope? entry).map fun scope => (path.join entry.1, scope)

mutual

/-- The scopes in and below the directory at a path. -/
def Node.scopes (path : Path) : Node → List (Path × ScopeName)
  | .directory entries => directScopes path entries ++ scopesBelow path entries
  | .file _ => []
  | .link _ => []

/-- The scopes below the directories among the entries of the directory at a path.  Scopes are not
entered, and neither are directories whose path is too long to list them. -/
def scopesBelow (path : Path) : List (Name × Node) → List (Path × ScopeName)
  | [] => []
  | (name, node) :: rest =>
    scopesBelow path rest ++
      if (ScopeName.parse? name).isNone && (path.join name).fits then node.scopes (path.join name)
      else []

end

/-- The scopes in and below a directory with given entries, each with its path. -/
def scopes (path : Path) (entries : Entries) : List (Path × ScopeName) :=
  (Node.directory entries).scopes path

/-- The scopes of a directory: first those in it, then those below its other directories. -/
theorem scopes_directory (path : Path) (entries : Entries) :
    (Node.directory entries).scopes path = directScopes path entries ++
      scopesBelow path entries := by
  rw [Node.scopes]

/-- What the first entry adds comes last. -/
theorem scopesBelow_cons (path : Path) (name : Name) (node : Node) (rest : Entries) :
    scopesBelow path ((name, node) :: rest) = scopesBelow path rest ++
      if (ScopeName.parse? name).isNone && (path.join name).fits then node.scopes (path.join name)
      else [] := by
  rw [scopesBelow]

end ContainerUsage
