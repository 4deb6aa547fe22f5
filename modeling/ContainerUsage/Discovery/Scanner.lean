import ContainerUsage.Collector.Basic
import ContainerUsage.Collector.Notice
import ContainerUsage.Discovery.Scopes
/-!
# Scanning for containers

A `Scanner` keeps a collector in step with the container scopes below a root directory.  It
remembers the scopes whose tasks it has added, by their paths.

A scan first looks at the tree.  Then it removes the tasks of the scopes that are gone, and after
that it goes through the scopes that are new: a container that the collector has already is passed
over, so a container with two scopes is tracked once, and the other scope can take over when the
first is gone.  A scope that cannot be opened, or whose task the collector refuses, is left out with
a notice.

A scan fails only if the root itself cannot be listed, and then nothing has changed.
-/

namespace ContainerUsage

/-- Keeps a collector in step with the scopes below a root. -/
structure Scanner where
  /-- The root as it is written. -/
  root : String
  /-- The labels of all tasks that are added. -/
  labels : LabelSet
  /-- The scopes whose tasks were added, by their paths. -/
  tracked : List (Path × Task)

/-- Why a scan fails. -/
structure ScanError where
  root : String
  cause : IoError
  deriving DecidableEq, Repr

/-- The text of the error. -/
def ScanError.message (e : ScanError) : String :=
  "failed to read cgroup directory `" ++ e.root ++ "`: " ++ e.cause.text

/-- What a scan leaves behind, and how many tasks it added and removed. -/
structure Scan where
  scanner : Scanner
  collector : Collector
  host : Host
  added : Nat
  removed : Nat
  notices : List Notice

namespace Scanner

/-- A scanner that has not scanned yet. -/
def ofRoot (root : String) (labels : LabelSet) : Scanner := ⟨root, labels, []⟩

/-- Whether a scope is tracked. -/
def tracks (scanner : Scanner) (path : Path) : Bool := scanner.tracked.any (·.1 = path)

/-- Removes the tasks of the scopes that are not among the ones that were found. -/
def dropVanished (scan : Scan) (found : List (Path × ScopeName)) : Scan :=
  let present (entry : Path × Task) : Bool := found.any (·.1 = entry.1)
  let vanished := scan.scanner.tracked.filter (!present ·)
  { scan with
    scanner := { scan.scanner with tracked := scan.scanner.tracked.filter present }
    collector := vanished.foldl (fun c entry => c.remove entry.2.id entry.2.ns) scan.collector
    removed := scan.removed + vanished.length }

/-- Tracks a scope, unless its container is registered already. -/
def track (scan : Scan) (path : Path) (scope : ScopeName) : Scan :=
  let id := scope.id
  let ns := scope.runtime.ns
  if scan.collector.contains id.text ns then scan
  else
    match scan.host.openTask id ns path with
    | .error cause => { scan with notices := scan.notices ++ [.openFailed cause] }
    | .ok (task, host) =>
      match scan.collector.add task scan.scanner.labels with
      | .error cause => { scan with notices := scan.notices ++ [.addFailed cause] }
      | .ok collector =>
        { scan with
          scanner := { scan.scanner with tracked := scan.scanner.tracked ++ [(path, task)] }
          collector
          host
          added := scan.added + 1 }

/-- Brings a collector in step with the scopes that were found. -/
def update (scanner : Scanner) (collector : Collector) (host : Host)
    (found : List (Path × ScopeName)) : Scan :=
  let start : Scan := ⟨scanner, collector, host, 0, 0, []⟩
  (found.filter fun entry => !scanner.tracks entry.1).foldl
    (fun scan entry => track scan entry.1 entry.2) (dropVanished start found)

/-- Scans the tree below the root once. -/
def scan (scanner : Scanner) (collector : Collector) (host : Host) : Except ScanError Scan :=
  let root := Path.ofText scanner.root
  match host.files.list root with
  | .error cause => .error ⟨scanner.root, cause⟩
  | .ok entries => .ok (scanner.update collector host (scopes root entries))

end Scanner

end ContainerUsage
