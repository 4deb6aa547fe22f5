import ContainerUsage.FileSystem.Tree
/-!
# The files of a cgroup

A cgroup directory holds one file, or a few, for each controller.  The files of which there is one
are listed in `ControllerFile`; the hugetlb controller has a pair of files for every page size,
whose names hold the page size.
-/

namespace ContainerUsage.Cgroup

/-- The controller files of which a cgroup has one. -/
inductive ControllerFile where
  | pidsCurrent
  | pidsMax
  | cpuStat
  | memoryStat
  | memoryCurrent
  | memoryMax
  | memorySwapCurrent
  | memorySwapMax
  | memoryEvents
  | ioStat
  deriving DecidableEq, Repr

/-- The name of a controller file. -/
def ControllerFile.fileName : ControllerFile → String
  | .pidsCurrent => "pids.current"
  | .pidsMax => "pids.max"
  | .cpuStat => "cpu.stat"
  | .memoryStat => "memory.stat"
  | .memoryCurrent => "memory.current"
  | .memoryMax => "memory.max"
  | .memorySwapCurrent => "memory.swap.current"
  | .memorySwapMax => "memory.swap.max"
  | .memoryEvents => "memory.events"
  | .ioStat => "io.stat"

/-- The name of a controller file as a directory entry. -/
def ControllerFile.name (file : ControllerFile) : Name := Utf8.encode file.fileName

/-! ## Huge pages -/

/-- What the names of all hugetlb files start with. -/
def hugePagesStart : String := "hugetlb."

/-- What the name of a file with the current use ends with. -/
def hugePagesCurrentEnd : String := ".current"

/-- What the name of a file with the limit ends with. -/
def hugePagesMaxEnd : String := ".max"

/-- The name of the file with the current use of huge pages of one size. -/
def hugePagesCurrentName (pageSize : String) : Name :=
  Utf8.encode (hugePagesStart ++ pageSize ++ hugePagesCurrentEnd)

/-- The name of the file with the limit on huge pages of one size. -/
def hugePagesMaxName (pageSize : String) : Name :=
  Utf8.encode (hugePagesStart ++ pageSize ++ hugePagesMaxEnd)

/-- The page size in the name of a file with the current use. -/
def pageSize? (name : Name) : Option String :=
  match Utf8.decode? name with
  | none => none
  | some text =>
    match hugePagesStart.toList.isPrefixOf? text.toList with
    | none => none
    | some rest => (hugePagesCurrentEnd.toList.isSuffixOf? rest).map String.ofList

end ContainerUsage.Cgroup
