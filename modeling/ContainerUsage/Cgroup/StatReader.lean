import ContainerUsage.Cgroup.ControllerFile
import ContainerUsage.Stat.Controllers
/-!
# Reading the stats of a cgroup

A `StatReader` holds the controller files of one cgroup open.  A file that could not be opened when
the reader was made is left out, and with it whatever it would have told: a controller is absent
from the stats if the file that it needs is.

The files stay open between two reads.  Every file that was read is taken back to its start, whether
its contents were refused or not, so that the next read starts where this one did.  A read goes
through the files in a fixed order and ends at the first that is refused.
-/

namespace ContainerUsage.Cgroup

open Payload Stat
open FileSystem (Handle)

/-! ## One open file -/

/-- Reads from where an open file stands, up to where the reader of its contents stops. -/
def readOn {α : Type} (fs : FileSystem) (read : Stat.Reader α) (handle : Handle) :
    Except ReadError α × Handle :=
  match fs.unread handle with
  | .error cause => (.error (.io cause), handle)
  | .ok bytes =>
    let run := read bytes
    (run.1, { handle with position := handle.position + (bytes.length - run.2.length) })

/-- Reads from where an open file stands and takes it back to its start. -/
def readAndRewind {α : Type} (fs : FileSystem) (read : Stat.Reader α) (handle : Handle) :
    Except ReadError α × Handle :=
  let run := readOn fs read handle
  (run.1, run.2.rewind)

/-- A file that stands at its start is left as it was. -/
theorem snd_readAndRewind {α : Type} (fs : FileSystem) (read : Stat.Reader α) {handle : Handle}
    (h : handle.position = 0) : (readAndRewind fs read handle).2 = handle := by
  obtain ⟨file?, position⟩ := handle
  simp only at h
  subst h
  unfold readAndRewind readOn
  cases fs.unread ⟨file?, 0⟩ <;> rfl

/-! ## All files of a cgroup -/

/-- The open files of one page size. -/
structure HugePageFiles where
  pageSize : String
  current : Handle
  max : Option Handle
  deriving DecidableEq, Repr

/-- The open controller files of a cgroup. -/
structure StatReader where
  files : ControllerFile → Option Handle
  hugetlb : List HugePageFiles

namespace StatReader

/-- A reader without any file. -/
def empty : StatReader := ⟨fun _ => none, []⟩

/-- The reader with another handle for one of its files. -/
def setFile (reader : StatReader) (file : ControllerFile) (handle : Option Handle) : StatReader :=
  { reader with files := fun other => if other = file then handle else reader.files other }

/-- Opens a controller file.  A file that cannot be opened is left out. -/
def openFile (reader : StatReader) (fs : FileSystem) (file : ControllerFile) (path : Path) :
    StatReader :=
  reader.setFile file (fs.openFile path).toOption

/-- Opens the files of one page size, unless the one with the current use cannot be opened. -/
def openHugePages? (fs : FileSystem) (pageSize : String) (current max : Path) :
    Option HugePageFiles :=
  match fs.openFile current with
  | .error _ => none
  | .ok handle => some ⟨pageSize, handle, (fs.openFile max).toOption⟩

/-- Adds the files of one page size after the others. -/
def openHugePages (reader : StatReader) (fs : FileSystem) (pageSize : String)
    (current max : Path) : StatReader :=
  { reader with hugetlb := reader.hugetlb ++ (openHugePages? fs pageSize current max).toList }

/-- The hugetlb files in a cgroup directory with given entries, by page size. -/
def hugePagesOf (fs : FileSystem) (path : Path) (entries : Entries) : List HugePageFiles :=
  let found := entries.filterMap fun entry =>
    match pageSize? entry.1 with
    | none => none
    | some pageSize =>
      openHugePages? fs pageSize (path.join entry.1) (path.join (hugePagesMaxName pageSize))
  found.mergeSort fun a b => a.pageSize ≤ b.pageSize

/-- Opens the files of the cgroup at a path. -/
def ofCgroup (fs : FileSystem) (path : Path) : Except IoError StatReader :=
  match fs.list path with
  | .error e => .error e
  | .ok entries =>
    .ok ⟨fun file => (fs.openFile (path.join file.name)).toOption, hugePagesOf fs path entries⟩

/-! ## Reading -/

/-- A step of a read: it may be refused, and leaves the reader behind in either case. -/
abbrev Step (α : Type) := ExceptT ReadError (StateM StatReader) α

/-- Reads one of the controller files, if it is open. -/
def readFile {α : Type} (fs : FileSystem) (file : ControllerFile) (read : Stat.Reader α) :
    Step (Option α) := fun reader =>
  match reader.files file with
  | none => (.ok none, reader)
  | some handle =>
    let run := readAndRewind fs read handle
    (run.1.map some, reader.setFile file (some run.2))

/-- Reads the files of one page size.  Without a limit file the limit is zero. -/
def readHugePageFiles (fs : FileSystem) (files : HugePageFiles) :
    Except ReadError Unified.HugePages × HugePageFiles :=
  let current := readAndRewind fs readCurrent files.current
  let files := { files with current := current.2 }
  match current.1 with
  | .error e => (.error e, files)
  | .ok value =>
    match files.max with
    | none => (.ok ⟨value, 0, files.pageSize⟩, files)
    | some handle =>
      let max := readAndRewind fs readLimit handle
      (max.1.map fun limit => ⟨value, Limit.orMax limit, files.pageSize⟩,
        { files with max := some max.2 })

/-- Reads the files of all page sizes, up to the first that is refused. -/
def readAllHugePageFiles (fs : FileSystem) :
    List HugePageFiles → Except ReadError (List Unified.HugePages) × List HugePageFiles
  | [] => (.ok [], [])
  | files :: rest =>
    let first := readHugePageFiles fs files
    match first.1 with
    | .error e => (.error e, first.2 :: rest)
    | .ok entry =>
      let others := readAllHugePageFiles fs rest
      (others.1.map (entry :: ·), first.2 :: others.2)

/-- Reads the hugetlb controller. -/
def readHugePages (fs : FileSystem) : Step (List Unified.HugePages) := fun reader =>
  let run := readAllHugePageFiles fs reader.hugetlb
  (run.1, { reader with hugetlb := run.2 })

/-- A limit that may not have been read: without its file it is zero. -/
def limitOrZero (limit : Option Limit) : UInt64 := (limit.map Limit.orMax).getD 0

/-- Reads the pids controller, which needs the file with the number of processes. -/
def readPids (fs : FileSystem) : Step (Option Unified.Pids) := do
  let current ← readFile fs .pidsCurrent readCurrent
  let limit ← readFile fs .pidsMax readLimit
  return current.map fun current => ⟨current, limitOrZero limit⟩

/-- Reads the memory controller.  It is there if its counters or the current use are; the limits and
the use of swap are looked at only then. -/
def readMemoryController (fs : FileSystem) : Step (Option Unified.Memory) := do
  let counters ← readFile fs .memoryStat readMemory
  let usage ← readFile fs .memoryCurrent readCurrent
  if counters.isNone && usage.isNone then return none
  let usageLimit ← readFile fs .memoryMax readLimit
  let swapUsage ← readFile fs .memorySwapCurrent readCurrent
  let swapLimit ← readFile fs .memorySwapMax readLimit
  return some ((counters.getD {}).toStats
    ⟨usage.getD 0, limitOrZero usageLimit, swapUsage.getD 0, limitOrZero swapLimit⟩)

/-- The steps of a read, in their order. -/
def readSteps (fs : FileSystem) : Step Unified.Stats := do
  let pids ← readPids fs
  let cpu ← readFile fs .cpuStat readCpu
  let memory ← readMemoryController fs
  let memoryEvents ← readFile fs .memoryEvents readMemoryEvents
  let io ← readFile fs .ioStat readIo
  let hugetlb ← readHugePages fs
  return { pids, cpu, memory, io, hugetlb, memoryEvents }

/-- Reads the stats of a cgroup. -/
def read (fs : FileSystem) (reader : StatReader) : Except ReadError Unified.Stats × StatReader :=
  (readSteps fs).run reader

end StatReader

end ContainerUsage.Cgroup
