import Mathlib
import ContainerUsage.Cgroup.StatReader
import ContainerUsage.Proofs.FileSystem.Directory

/-!
# A read tells what the files hold

A reader goes through its files in a fixed order, up to the first that is refused, and takes every
file back to its start. So what a read tells depends on what the files hold at that time, and on
nothing that was read before.

* `StatReader.faults` are the reasons to refuse a file among those that a read looks at, in the
  order of the read, and `StatReader.expected` are the stats if there is none. Both are functions of
  the contents of the files that are open.
* `StatReader.read_of_atStart` is one read: it gives the first of the faults, or else the stats, and
  leaves the reader as it was. A read consists of steps for which the same holds (`Tells`), one step
  after another (`Tells.bind`).
* `StatReader.read_after_reads` is a read after any others, for a reader whose files were opened in
  any way (`StatReader.Built`).
-/

namespace ContainerUsage.Cgroup

open Payload Stat
open FileSystem (Handle)

variable {α β : Type} {fs : FileSystem}

/-! ## One file -/

/-- What an open file is read as from its start. What is open may also be a directory. -/
def outcome (fs : FileSystem) (read : Stat.Reader α) (handle : Handle) : Except ReadError α :=
  match handle.file? with
  | none => .error (.io .isADirectory)
  | some id => (read (fs.content id)).1

/-- A file at its start is read from there, and is at its start again. -/
theorem readAndRewind_of_start (read : Stat.Reader α) {handle : Handle} (h : handle.position = 0) :
    readAndRewind fs read handle = (outcome fs read handle, handle) := by
  refine Prod.ext ?_ (snd_readAndRewind fs read h)
  unfold readAndRewind readOn FileSystem.unread outcome
  cases handle.file? with
  | none => rfl
  | some id => simp [h]

/-- The reasons to refuse a file: none if it is not open, and at most one else. -/
def faultsOf (fs : FileSystem) (read : Stat.Reader α) (file? : Option Handle) : List ReadError :=
  match file?.map (outcome fs read) with
  | some (.error cause) => [cause]
  | _ => []

/-- What a file holds, if it is open and not refused. -/
def valueOf (fs : FileSystem) (read : Stat.Reader α) (file? : Option Handle) : Option α :=
  match file?.map (outcome fs read) with
  | some (.ok value) => some value
  | _ => none

/-- Without faults there is a value exactly if the file is open. -/
theorem isSome_valueOf {read : Stat.Reader α} {file? : Option Handle}
    (h : faultsOf fs read file? = []) : (valueOf fs read file?).isSome = file?.isSome := by
  cases file? with
  | none => rfl
  | some handle =>
    unfold faultsOf at h
    unfold valueOf
    rw [Option.map_some] at h ⊢
    cases hread : outcome fs read handle with
    | error cause =>
      rw [hread] at h
      simp at h
    | ok value => rfl

/-- The number in a file, which is zero if the file is not open. -/
def numberOf (fs : FileSystem) (file? : Option Handle) : UInt64 :=
  (valueOf fs readCurrent file?).getD 0

/-- A file with a number that is not refused holds that number. -/
theorem valueOf_readCurrent {file? : Option Handle} (h : faultsOf fs readCurrent file? = []) :
    valueOf fs readCurrent file? = if file?.isSome then some (numberOf fs file?) else none := by
  have hsome := isSome_valueOf h
  unfold numberOf
  cases hvalue : valueOf fs readCurrent file? with
  | none =>
    rw [hvalue, Option.isSome_none] at hsome
    rw [← hsome, if_neg Bool.false_ne_true]
  | some value =>
    rw [hvalue, Option.isSome_some] at hsome
    rw [← hsome, if_pos rfl, Option.getD_some]

/-- The limit in a file: zero if the file is not open, and the greatest number there is if the file
says that there is no limit. -/
def limitOf (fs : FileSystem) (file? : Option Handle) : UInt64 :=
  match valueOf fs readLimit file? with
  | none => 0
  | some none => 18446744073709551615
  | some (some limit) => limit

/-- What is taken for a limit that was read, or was not open. -/
theorem limitOrZero_valueOf (file? : Option Handle) :
    StatReader.limitOrZero (valueOf fs readLimit file?) = limitOf fs file? := by
  unfold limitOf
  cases valueOf fs readLimit file? with
  | none => rfl
  | some limit => cases limit <;> rfl

/-! ## One step of a read -/

/-- The first fault, or a value if there is none. -/
def verdict (faults : List ReadError) (value : α) : Except ReadError α :=
  match faults with
  | [] => .ok value
  | cause :: _ => .error cause

/-- A function of the value changes nothing about the faults. -/
theorem map_verdict (f : α → β) (faults : List ReadError) (value : α) :
    (verdict faults value).map f = verdict faults (f value) := by
  cases faults <;> rfl

namespace StatReader

variable {reader : StatReader}

/-- A step is taken after another one unless that is refused. -/
theorem bind_apply (step : Step α) (next : α → Step β) (reader : StatReader) :
    (step >>= next) reader = match step reader with
      | (.ok a, reader) => next a reader
      | (.error cause, reader) => (.error cause, reader) := by
  simp only [Bind.bind, ExceptT.bind, ExceptT.mk, StateT.bind]
  rcases step reader with ⟨_ | _, _⟩ <;> rfl

/-- A step tells a value unless there are faults, of which it tells the first, and leaves the reader
as it is. -/
def Tells (step : Step α) (reader : StatReader) (faults : List ReadError) (value : α) : Prop :=
  step reader = (verdict faults value, reader)

namespace Tells

variable {step : Step α} {next : α → Step β} {faults more : List ReadError} {a : α} {b : β}

/-- A step that only gives a value has no faults. -/
theorem pure (reader : StatReader) (a : α) : Tells (Pure.pure a) reader [] a := rfl

/-- The faults of a step come before those of the step after it, which is taken only if there are
none. -/
theorem bind (h : Tells step reader faults a)
    (hnext : faults = [] → Tells (next a) reader more b) :
    Tells (step >>= next) reader (faults ++ more) b := by
  unfold Tells at h
  rw [Tells, bind_apply, h]
  cases faults with
  | nil => exact hnext rfl
  | cons cause others => rfl

end Tells

/-- All files of a reader are at their start. -/
structure AtStart (reader : StatReader) : Prop where
  files : ∀ file handle, reader.files file = some handle → handle.position = 0
  current : ∀ entry ∈ reader.hugetlb, entry.current.position = 0
  max : ∀ entry ∈ reader.hugetlb, ∀ handle, entry.max = some handle → handle.position = 0

/-- Putting a handle back where it was changes nothing. -/
theorem setFile_self {file : ControllerFile} {handle : Handle}
    (h : reader.files file = some handle) : reader.setFile file (some handle) = reader := by
  obtain ⟨files, hugetlb⟩ := reader
  refine congrArg (StatReader.mk · hugetlb) (funext fun other => ?_)
  dsimp only at h ⊢
  split
  · next heq => rw [heq, h]
  · rfl

/-- A controller file is read as what it holds. -/
theorem tells_readFile (h : reader.AtStart) (file : ControllerFile) (read : Stat.Reader α) :
    Tells (readFile fs file read) reader (faultsOf fs read (reader.files file))
      (valueOf fs read (reader.files file)) := by
  unfold Tells readFile
  cases hfile : reader.files file with
  | none => rfl
  | some handle =>
    dsimp only
    rw [readAndRewind_of_start read (h.files file handle hfile)]
    refine Prod.ext ?_ (setFile_self hfile)
    unfold faultsOf valueOf
    rw [Option.map_some]
    cases outcome fs read handle <;> rfl

/-! ## The controllers -/

/-- Whether a controller file is open. -/
def isOpen (reader : StatReader) (file : ControllerFile) : Bool := (reader.files file).isSome

/-- Whether the memory controller is reported: its counters are open, or the current use is. -/
def hasMemory (reader : StatReader) : Bool :=
  reader.isOpen .memoryStat || reader.isOpen .memoryCurrent

/-- The faults of the pids controller. -/
def pidsFaults (fs : FileSystem) (reader : StatReader) : List ReadError :=
  [faultsOf fs readCurrent (reader.files .pidsCurrent),
    faultsOf fs readLimit (reader.files .pidsMax)].flatten

/-- The pids controller, with a limit of zero if none is open. -/
def pidsExpected (fs : FileSystem) (reader : StatReader) : Option Unified.Pids :=
  if reader.isOpen .pidsCurrent then
    some ⟨numberOf fs (reader.files .pidsCurrent), limitOf fs (reader.files .pidsMax)⟩
  else none

/-- The faults of the memory controller. The limits and the use of swap are looked at only if the
controller is reported. -/
def memoryFaults (fs : FileSystem) (reader : StatReader) : List ReadError :=
  [faultsOf fs readMemory (reader.files .memoryStat),
    faultsOf fs readCurrent (reader.files .memoryCurrent),
    if reader.hasMemory then
      [faultsOf fs readLimit (reader.files .memoryMax),
        faultsOf fs readCurrent (reader.files .memorySwapCurrent),
        faultsOf fs readLimit (reader.files .memorySwapMax)].flatten
    else []].flatten

/-- A counter of `memory.stat`, which is zero if the file is not open. -/
def memoryCounter (fs : FileSystem) (reader : StatReader) (counter : MemoryCounters → UInt64) :
    UInt64 :=
  ((valueOf fs readMemory (reader.files .memoryStat)).map counter).getD 0

/-- The memory controller, with zeros for what is not open: the counters of `memory.stat`, and the
use and the limits from files of their own. -/
def memoryExpected (fs : FileSystem) (reader : StatReader) : Option Unified.Memory :=
  if reader.hasMemory then
    some
      { anon := reader.memoryCounter fs (·.anon)
        file := reader.memoryCounter fs (·.file)
        kernelStack := reader.memoryCounter fs (·.kernelStack)
        slab := reader.memoryCounter fs (·.slab)
        sock := reader.memoryCounter fs (·.sock)
        shmem := reader.memoryCounter fs (·.shmem)
        fileMapped := reader.memoryCounter fs (·.fileMapped)
        pgfault := reader.memoryCounter fs (·.pgfault)
        pgmajfault := reader.memoryCounter fs (·.pgmajfault)
        usage := numberOf fs (reader.files .memoryCurrent)
        usageLimit := limitOf fs (reader.files .memoryMax)
        swapUsage := numberOf fs (reader.files .memorySwapCurrent)
        swapLimit := limitOf fs (reader.files .memorySwapMax) }
  else none

/-- The faults of the files of one page size. -/
def hugePageFaults (fs : FileSystem) (files : HugePageFiles) : List ReadError :=
  [faultsOf fs readCurrent (some files.current), faultsOf fs readLimit files.max].flatten

/-- The use of huge pages of one size, with a limit of zero if none is open. -/
def hugePagesExpected (fs : FileSystem) (files : HugePageFiles) : Unified.HugePages where
  current := numberOf fs (some files.current)
  max := limitOf fs files.max
  pageSize := files.pageSize

/-- The reasons to refuse a file among those that a read looks at, in the order of the read. -/
def faults (fs : FileSystem) (reader : StatReader) : List ReadError :=
  [reader.pidsFaults fs,
    faultsOf fs readCpu (reader.files .cpuStat),
    reader.memoryFaults fs,
    faultsOf fs readMemoryEvents (reader.files .memoryEvents),
    faultsOf fs readIo (reader.files .ioStat),
    reader.hugetlb.flatMap (hugePageFaults fs)].flatten

/-- The stats in the files of a reader, if none is refused. -/
def expected (fs : FileSystem) (reader : StatReader) : Unified.Stats where
  pids := reader.pidsExpected fs
  cpu := valueOf fs readCpu (reader.files .cpuStat)
  memory := reader.memoryExpected fs
  io := valueOf fs readIo (reader.files .ioStat)
  hugetlb := reader.hugetlb.map (hugePagesExpected fs)
  memoryEvents := valueOf fs readMemoryEvents (reader.files .memoryEvents)

/-! ## The steps of a read -/

/-- What the counters that were read become beside the use and the limits, field by field. -/
theorem toStats_counters (use : MemoryUse) :
    ((valueOf fs readMemory (reader.files .memoryStat)).getD {}).toStats use =
      { anon := reader.memoryCounter fs (·.anon)
        file := reader.memoryCounter fs (·.file)
        kernelStack := reader.memoryCounter fs (·.kernelStack)
        slab := reader.memoryCounter fs (·.slab)
        sock := reader.memoryCounter fs (·.sock)
        shmem := reader.memoryCounter fs (·.shmem)
        fileMapped := reader.memoryCounter fs (·.fileMapped)
        pgfault := reader.memoryCounter fs (·.pgfault)
        pgmajfault := reader.memoryCounter fs (·.pgmajfault)
        usage := use.usage
        usageLimit := use.usageLimit
        swapUsage := use.swapUsage
        swapLimit := use.swapLimit } := by
  unfold memoryCounter
  cases valueOf fs readMemory (reader.files .memoryStat) <;> rfl

/-- The pids controller is read as what its two files hold. -/
theorem tells_readPids (h : reader.AtStart) :
    Tells (readPids fs) reader (reader.pidsFaults fs) (reader.pidsExpected fs) := by
  unfold readPids
  refine (tells_readFile h .pidsCurrent readCurrent).bind fun hcurrent => ?_
  refine (tells_readFile h .pidsMax readLimit).bind fun _ => ?_
  have hvalue : (valueOf fs readCurrent (reader.files .pidsCurrent)).map
      (fun current => (⟨current, limitOrZero (valueOf fs readLimit (reader.files .pidsMax))⟩ :
        Unified.Pids)) = reader.pidsExpected fs := by
    rw [valueOf_readCurrent hcurrent, limitOrZero_valueOf, pidsExpected, isOpen]
    cases (reader.files .pidsCurrent).isSome <;> rfl
  rw [hvalue]
  exact Tells.pure reader _

/-- The memory controller is read as what its five files hold. The last three are not looked at if
neither of the first two is open. -/
theorem tells_readMemoryController (h : reader.AtStart) :
    Tells (readMemoryController fs) reader (reader.memoryFaults fs) (reader.memoryExpected fs) := by
  unfold readMemoryController
  refine (tells_readFile h .memoryStat readMemory).bind fun hcounters => ?_
  refine (tells_readFile h .memoryCurrent readCurrent).bind fun husage => ?_
  -- what has been read so far is there exactly if the files are open
  have hread : ((valueOf fs readMemory (reader.files .memoryStat)).isNone &&
      (valueOf fs readCurrent (reader.files .memoryCurrent)).isNone) = !reader.hasMemory := by
    rw [hasMemory, isOpen, isOpen, ← isSome_valueOf hcounters, ← isSome_valueOf husage, Bool.not_or,
      Option.not_isSome, Option.not_isSome]
  rw [hread, memoryExpected]
  cases reader.hasMemory with
  | false => exact Tells.pure reader none
  | true =>
    rw [List.flatten_singleton, if_pos rfl, if_pos rfl]
    refine (tells_readFile h .memoryMax readLimit).bind fun _ => ?_
    refine (tells_readFile h .memorySwapCurrent readCurrent).bind fun _ => ?_
    refine (tells_readFile h .memorySwapMax readLimit).bind fun _ => ?_
    rw [toStats_counters, limitOrZero_valueOf, limitOrZero_valueOf]
    exact Tells.pure reader _

/-- The files of one page size are read as what they hold. -/
theorem readHugePageFiles_of_start {files : HugePageFiles} (hcurrent : files.current.position = 0)
    (hmax : ∀ handle, files.max = some handle → handle.position = 0) :
    readHugePageFiles fs files = (verdict (hugePageFaults fs files) (hugePagesExpected fs files),
      files) := by
  obtain ⟨pageSize, current, max⟩ := files
  unfold readHugePageFiles hugePageFaults hugePagesExpected numberOf faultsOf valueOf
  dsimp only at hcurrent hmax ⊢
  rw [readAndRewind_of_start readCurrent hcurrent, Option.map_some]
  cases outcome fs readCurrent current with
  | error cause => rfl
  | ok number =>
    cases max with
    | none => rfl
    | some handle =>
      dsimp only
      rw [readAndRewind_of_start readLimit (hmax handle rfl), limitOf, valueOf, Option.map_some]
      cases outcome fs readLimit handle with
      | error cause => rfl
      | ok limit => cases limit <;> rfl

/-- The files of all page sizes are read as what they hold. -/
theorem readAllHugePageFiles_of_start {entries : List HugePageFiles}
    (hcurrent : ∀ entry ∈ entries, entry.current.position = 0)
    (hmax : ∀ entry ∈ entries, ∀ handle, entry.max = some handle → handle.position = 0) :
    readAllHugePageFiles fs entries =
      (verdict (entries.flatMap (hugePageFaults fs)) (entries.map (hugePagesExpected fs)),
        entries) := by
  induction entries with
  | nil => rfl
  | cons files rest ih =>
    rw [List.forall_mem_cons] at hcurrent hmax
    rw [readAllHugePageFiles, readHugePageFiles_of_start hcurrent.1 hmax.1,
      ih hcurrent.2 hmax.2, List.flatMap_cons, List.map_cons]
    cases hugePageFaults fs files with
    | nil => exact Prod.ext (map_verdict _ _ _) rfl
    | cons cause others => rfl

/-- The page sizes are read one after the other, by induction over their list. -/
theorem tells_readHugePages (h : reader.AtStart) :
    Tells (readHugePages fs) reader (reader.hugetlb.flatMap (hugePageFaults fs))
      (reader.hugetlb.map (hugePagesExpected fs)) := by
  unfold Tells readHugePages
  rw [readAllHugePageFiles_of_start h.current h.max]

/-- **One read gives the first of the faults, or else the stats**, and leaves a reader at its start
as it was. -/
theorem read_of_atStart (h : reader.AtStart) (fs : FileSystem) :
    reader.read fs = (verdict (reader.faults fs) (reader.expected fs), reader) := by
  have hsteps : Tells (readSteps fs) reader (reader.faults fs) (reader.expected fs) := by
    unfold readSteps
    refine (tells_readPids h).bind fun _ => ?_
    refine (tells_readFile h .cpuStat readCpu).bind fun _ => ?_
    refine (tells_readMemoryController h).bind fun _ => ?_
    refine (tells_readFile h .memoryEvents readMemoryEvents).bind fun _ => ?_
    refine (tells_readFile h .ioStat readIo).bind fun _ => ?_
    refine (tells_readHugePages h).bind fun _ => ?_
    exact Tells.pure reader _
  exact hsteps

/-! ## Readers and their files -/

/-- The readers that can be made, from files of any file system. -/
inductive Built : StatReader → Prop
  | empty : Built empty
  | ofCgroup {fs : FileSystem} {path : Path} {reader : StatReader}
      (h : ofCgroup fs path = .ok reader) : Built reader
  | openFile {reader : StatReader} (h : Built reader) (fs : FileSystem) (file : ControllerFile)
      (path : Path) : Built (reader.openFile fs file path)
  | openHugePages {reader : StatReader} (h : Built reader) (fs : FileSystem) (pageSize : String)
      (current max : Path) : Built (reader.openHugePages fs pageSize current max)

/-- What has just been opened is at its start. -/
theorem position_of_openFile {path : Path} {handle : Handle}
    (h : (fs.openFile path).toOption = some handle) : handle.position = 0 := by
  unfold FileSystem.openFile at h
  split at h
  · exact Option.some.inj h ▸ rfl
  · exact Option.some.inj h ▸ rfl
  · cases h
  · cases h

/-- The files of a page size are at their start if they have just been opened. -/
theorem atStart_of_openHugePages? {pageSize : String} {current max : Path} {entry : HugePageFiles}
    (h : openHugePages? fs pageSize current max = some entry) :
    entry.current.position = 0 ∧ ∀ handle, entry.max = some handle → handle.position = 0 := by
  unfold openHugePages? at h
  split at h
  · simp at h
  · next handle hopen =>
    obtain rfl := Option.some.inj h
    have hcurrent : (fs.openFile current).toOption = some handle := by rw [hopen]; rfl
    exact ⟨position_of_openFile hcurrent, fun _ hmax => position_of_openFile hmax⟩

/-- The files of a reader that has just been made are at their start. -/
theorem Built.atStart (h : Built reader) : reader.AtStart := by
  induction h with
  | empty =>
    refine ⟨?_, List.forall_mem_nil _, List.forall_mem_nil _⟩
    intro file handle h
    cases h
  | @ofCgroup fs path reader h =>
    unfold StatReader.ofCgroup at h
    split at h
    · simp at h
    · next entries _ =>
      obtain rfl := Except.ok.inj h
      have hentry : ∀ entry ∈ hugePagesOf fs path entries, entry.current.position = 0 ∧
          ∀ handle, entry.max = some handle → handle.position = 0 := by
        intro entry hmem
        obtain ⟨⟨name, node⟩, -, hopen⟩ := List.mem_filterMap.1 (List.mem_mergeSort.1 hmem)
        dsimp only at hopen
        split at hopen
        · simp at hopen
        · exact atStart_of_openHugePages? hopen
      exact ⟨fun _ _ h => position_of_openFile h, fun entry hmem => (hentry entry hmem).1,
        fun entry hmem => (hentry entry hmem).2⟩
  | openFile _ fs file path ih =>
    refine ⟨fun other handle h => ?_, ih.current, ih.max⟩
    dsimp only [StatReader.openFile, setFile] at h
    split at h
    · exact position_of_openFile h
    · exact ih.files other handle h
  | openHugePages _ fs pageSize current max ih =>
    refine ⟨ih.files, fun entry hmem => ?_, fun entry hmem => ?_⟩
    all_goals
      rcases List.mem_append.1 hmem with hold | hnew
    · exact ih.current entry hold
    · exact (atStart_of_openHugePages? (Option.mem_toList.1 hnew)).1
    · exact ih.max entry hold
    · exact (atStart_of_openHugePages? (Option.mem_toList.1 hnew)).2

/-! ## One read after another -/

/-- A reader after reads at some times, each with the files as they were then. -/
def afterReads (reader : StatReader) (history : List FileSystem) : StatReader :=
  history.foldl (fun reader fs => (reader.read fs).2) reader

/-- Reads leave a reader as it was, whether they are refused or not. -/
theorem afterReads_of_atStart (h : reader.AtStart) (history : List FileSystem) :
    reader.afterReads history = reader := by
  unfold afterReads
  induction history with
  | nil => rfl
  | cons fs history ih => rw [List.foldl_cons, read_of_atStart h fs, ih]

/-- The stats report the controllers whose files are open, and the page sizes in the order of their
files. -/
structure Reports (reader : StatReader) (stats : Unified.Stats) : Prop where
  pids : stats.pids.isSome = reader.isOpen .pidsCurrent
  cpu : stats.cpu.isSome = reader.isOpen .cpuStat
  memory : stats.memory.isSome = (reader.isOpen .memoryStat || reader.isOpen .memoryCurrent)
  memoryEvents : stats.memoryEvents.isSome = reader.isOpen .memoryEvents
  io : stats.io.isSome = reader.isOpen .ioStat
  hugetlb : stats.hugetlb.map (·.pageSize) = reader.hugetlb.map (·.pageSize)

/-- Which controllers are reported depends only on the files that are open. -/
theorem reports_expected (h : reader.faults fs = []) : reader.Reports (reader.expected fs) := by
  simp only [faults, List.flatten_eq_nil_iff, List.forall_mem_cons] at h
  obtain ⟨-, hcpu, -, hevents, hio, -⟩ := h
  refine ⟨?_, isSome_valueOf hcpu, ?_, isSome_valueOf hevents, isSome_valueOf hio, ?_⟩
  · show (pidsExpected fs reader).isSome = _
    unfold pidsExpected
    cases reader.isOpen .pidsCurrent <;> rfl
  · show (memoryExpected fs reader).isSome = reader.hasMemory
    unfold memoryExpected
    cases reader.hasMemory <;> rfl
  · show (reader.hugetlb.map (hugePagesExpected fs)).map _ = _
    rw [List.map_map]
    rfl

/-- **A read tells what the files hold at that time**, whatever was read before and whatever the
files held then. It gives the first reason to refuse one of the files that it looks at; without any
it gives the stats in the files that are open, and reports the controllers to which these belong. In
either case the reader is left as it was made. -/
theorem read_after_reads (h : Built reader) (history : List FileSystem) (fs : FileSystem) :
    (reader.afterReads history).read fs =
        (verdict (reader.faults fs) (reader.expected fs), reader) ∧
      ∀ stats, ((reader.afterReads history).read fs).1 = .ok stats → reader.Reports stats := by
  rw [afterReads_of_atStart h.atStart, read_of_atStart h.atStart]
  refine ⟨rfl, fun stats hstats => ?_⟩
  dsimp only at hstats
  cases hfaults : reader.faults fs with
  | nil =>
    rw [hfaults] at hstats
    obtain rfl := Except.ok.inj hstats
    exact reports_expected hfaults
  | cons cause others =>
    rw [hfaults] at hstats
    cases hstats

/-- A cgroup with all controllers, and with huge pages of two sizes, of which one has a limit. -/
def complete (memoryMax : String) : FileSystem where
  entries := ["pids.current", "pids.max", "cpu.stat", "memory.stat", "memory.current", "memory.max",
    "memory.swap.current", "memory.swap.max", "memory.events", "io.stat", "hugetlb.1GB.current",
    "hugetlb.2MB.current", "hugetlb.2MB.max"].mapIdx fun index name =>
      (Utf8.encode name, .file ⟨index⟩)
  contents := ["7\n", "max\n",
    "usage_usec 11\nuser_usec 12\nsystem_usec 13\nnr_periods 14\nnr_throttled 15\n" ++
      "throttled_usec 16\n",
    "anon 21\nfile 22\nkernel_stack 23\nslab 24\nsock 25\nshmem 26\nfile_mapped 27\n" ++
      "pgfault 28\npgmajfault 29\n",
    "100\n", memoryMax, "30\n", "max\n", "low 31\nhigh 32\nmax 33\noom 34\noom_kill 35\n",
    "8:1 rbytes=41 wbytes=42 rios=43 wios=44\n", "50\n", "60\n", "61\n"].map Utf8.encode

/-- The reader of `complete`: all of its files, at their start. -/
def completeReader : StatReader where
  files file := some ⟨some ⟨file.ctorIdx⟩, 0⟩
  hugetlb := [⟨"1GB", ⟨some ⟨10⟩, 0⟩, none⟩, ⟨"2MB", ⟨some ⟨11⟩, 0⟩, some ⟨some ⟨12⟩, 0⟩⟩]

/-- What is listed does not depend on the limit. -/
theorem list_complete (memoryMax : String) :
    (complete memoryMax).list (Path.ofText "/") = .ok (complete memoryMax).entries := by
  cbv

/-- Each controller file is found under its name. -/
theorem openFile_complete (memoryMax : String) (file : ControllerFile) :
    (complete memoryMax).openFile ((Path.ofText "/").join file.name) =
      .ok ⟨some ⟨file.ctorIdx⟩, 0⟩ := by
  have hnames : ((complete "").entries.map Prod.fst).Nodup := by decide +kernel
  have hvalid : Name.Valid file.name ∧ ((Path.ofText "/").join file.name).fits := by
    cases file <;> decide +kernel
  have hmem : (file.name, .file ⟨file.ctorIdx⟩) ∈ (complete memoryMax).entries :=
    List.mem_mapIdx.2 ⟨file.ctorIdx, by cases file <;> decide, by cases file <;> rfl⟩
  exact FileSystem.openFile_join_of_mem (list_complete memoryMax) hnames hmem hvalid.1 hvalid.2

/-- The page sizes are listed in the order in which they sort. -/
theorem hugePagesOf_complete (memoryMax : String) :
    hugePagesOf (complete memoryMax) (Path.ofText "/") (complete memoryMax).entries =
      completeReader.hugetlb := by
  unfold hugePagesOf
  dsimp only
  refine (congrArg (List.mergeSort · _) ?_).trans (List.mergeSort_of_pairwise ?_)
  · cbv
  · decide

/-- All files of `complete` are opened. -/
theorem ofCgroup_complete (memoryMax : String) :
    ofCgroup (complete memoryMax) (Path.ofText "/") = .ok completeReader := by
  unfold ofCgroup
  rw [list_complete]
  dsimp only
  simp only [openFile_complete, hugePagesOf_complete]
  rfl

/-- A limit on memory that is no number at first, then is one, and then is no number again. -/
theorem read_after_reads_limited :
    ∃ reader, ofCgroup (complete "oops\n") (Path.ofText "/") = .ok reader ∧
      (reader.afterReads [complete "oops\n"]).read (complete "200\n") =
        (.ok
          { pids := some ⟨7, 18446744073709551615⟩
            cpu := some ⟨11, 12, 13, 14, 15, 16⟩
            memory := some
              { anon := 21, file := 22, kernelStack := 23, slab := 24, sock := 25, shmem := 26
                fileMapped := 27, pgfault := 28, pgmajfault := 29, usage := 100, usageLimit := 200
                swapUsage := 30, swapLimit := 18446744073709551615 }
            io := some ⟨[⟨8, 1, 41, 42, 43, 44⟩]⟩
            hugetlb := [⟨50, 0, "1GB"⟩, ⟨60, 61, "2MB"⟩]
            memoryEvents := some ⟨31, 32, 33, 34, 35⟩ }, reader) ∧
      (reader.afterReads [complete "oops\n", complete "200\n"]).read (complete "oops\n") =
        (.error (.malformed (.invalidValue "oops" 1 .invalidDigit)), reader) := by
  have h := ofCgroup_complete "oops\n"
  refine ⟨completeReader, h, ?_, ?_⟩
  · rw [(read_after_reads (.ofCgroup h) _ _).1]
    refine Prod.ext ?_ rfl
    decide +kernel
  · rw [(read_after_reads (.ofCgroup h) _ _).1]
    refine Prod.ext ?_ rfl
    decide +kernel

end StatReader

end ContainerUsage.Cgroup
