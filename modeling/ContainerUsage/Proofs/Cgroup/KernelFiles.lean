import Mathlib
import ContainerUsage.Proofs.Cgroup.HugePages
import ContainerUsage.Proofs.Discovery.Freshness
import ContainerUsage.Proofs.FileSystem.Directory
import ContainerUsage.Proofs.Payload.Content
import ContainerUsage.Proofs.Stat.KernelFormat

/-!
# From the files of the kernel to an envelope

A directory shows some stats (`Shows`) if it holds, in the forms in which the kernel writes them,
the files of the controllers that are there, and no other files that are read. A task that is opened
on such a directory answers an envelope with just these stats.

* `Shows.reads` and `Shows.readsLimit` say what a controller file is read as; `Shows.pids`,
  `Shows.memory` and `Shows.hugetlb` put the controllers with several files together.
* `Shows.read` is the whole of a read: no fault, and the stats that are shown.
* `Shows.exists_envelope` goes from the directory to what is found in the envelope.
-/

namespace ContainerUsage.Cgroup

open Payload Stat

/-! ## Directories -/

/-- What the kernel writes to the files of the controllers. A controller that is not there has no
files. -/
def kernelForm (stats : Unified.Stats) : ControllerFile → Option (Bytes → Prop)
  | .pidsCurrent => stats.pids.map fun pids => IsNumber pids.current
  | .pidsMax => stats.pids.map fun pids => IsLimit pids.limit
  | .cpuStat => stats.cpu.map fun cpu => IsFlat (cpuCounters cpu)
  | .memoryStat => stats.memory.map fun memory => IsFlat (memoryCounters memory)
  | .memoryCurrent => stats.memory.map fun memory => IsNumber memory.usage
  | .memoryMax => stats.memory.map fun memory => IsLimit memory.usageLimit
  | .memorySwapCurrent => stats.memory.map fun memory => IsNumber memory.swapUsage
  | .memorySwapMax => stats.memory.map fun memory => IsLimit memory.swapLimit
  | .memoryEvents => stats.memoryEvents.map fun events => IsFlat (memoryEventsCounters events)
  | .ioStat => stats.io.map fun io => AreDevices io.usage

/-- The directory at a path holds a file of some form under a name, and the path of this file is not
too long to be opened. -/
def Holds (fs : FileSystem) (path : Path) (entries : Entries) (name : Name) (form : Bytes → Prop) :
    Prop :=
  (path.join name).fits ∧ ∃ id, (name, .file id) ∈ entries ∧ form (fs.content id)

/-- The directory at a path shows some stats: it has the files of the controllers that are there,
and for each page size those with the current use and the limit. Whatever else it has is none of the
files that are read. -/
structure Shows (fs : FileSystem) (path : Path) (entries : Entries) (stats : Unified.Stats) :
    Prop where
  list : fs.list path = .ok entries
  /-- No two entries of a directory have the same name. -/
  names : (entries.map Prod.fst).Nodup
  present : ∀ file form, kernelForm stats file = some form → Holds fs path entries file.name form
  absent : ∀ file, kernelForm stats file = none → file.name ∉ entries.map Prod.fst
  current : ∀ pages ∈ stats.hugetlb,
    Holds fs path entries (hugePagesCurrentName pages.pageSize) (IsNumber pages.current)
  max : ∀ pages ∈ stats.hugetlb,
    Holds fs path entries (hugePagesMaxName pages.pageSize) (IsLimit pages.max)
  noOther : ∀ pageSize, hugePagesCurrentName pageSize ∈ entries.map Prod.fst →
    pageSize ∈ stats.hugetlb.map (·.pageSize)

/-- The page sizes can stand in the names of files, and rise in the order of their bytes. -/
structure Ordered (hugetlb : List Unified.HugePages) : Prop where
  current : ∀ pages ∈ hugetlb, (hugePagesCurrentName pages.pageSize).Valid
  max : ∀ pages ∈ hugetlb, (hugePagesMaxName pages.pageSize).Valid
  rising : hugetlb.Pairwise fun a b => Utf8.encode a.pageSize < Utf8.encode b.pageSize

/-- The reader of a directory with some entries. -/
def StatReader.ofEntries (fs : FileSystem) (path : Path) (entries : Entries) : StatReader :=
  ⟨fun file => (fs.openFile (path.join file.name)).toOption, hugePagesOf fs path entries⟩

variable {α β : Type} {fs : FileSystem} {path : Path} {entries : Entries} {stats : Unified.Stats}

/-- A reader is made of the entries of the directory. -/
theorem StatReader.ofCgroup_eq (hlist : fs.list path = .ok entries) :
    ofCgroup fs path = .ok (ofEntries fs path entries) := by
  rw [ofCgroup, hlist]
  rfl

/-- The names of the controller files are such as an entry of a directory can have. -/
theorem ControllerFile.valid_name (file : ControllerFile) : file.name.Valid := by
  cases file <;> decide

/-- A limit is read from its file as it is. -/
theorem reads_isLimit {limit : UInt64} {id : FileId} (h : IsLimit limit (fs.content id)) :
    faultsOf fs readLimit (some ⟨some id, 0⟩) = [] ∧ limitOf fs (some ⟨some id, 0⟩) = limit := by
  obtain ⟨limit?, hread, rfl⟩ := exists_readLimit_of_isLimit h
  have hvalue : outcome fs readLimit ⟨some id, 0⟩ = .ok limit? := hread
  rw [faultsOf, ← limitOrZero_valueOf, valueOf, Option.map_some, hvalue]
  exact ⟨rfl, rfl⟩

namespace Shows

/-! ## Files -/

/-- A file that the directory holds is opened at its start. -/
theorem openFile (h : Shows fs path entries stats) {name : Name} {form : Bytes → Prop}
    (hname : name.Valid) (hholds : Holds fs path entries name form) :
    ∃ id, fs.openFile (path.join name) = .ok ⟨some id, 0⟩ ∧ form (fs.content id) := by
  obtain ⟨hfits, id, hmem, hform⟩ := hholds
  exact ⟨id, FileSystem.openFile_join_of_mem h.list h.names hmem hname hfits, hform⟩

/-- A controller file that is not in the directory is not open. -/
theorem files_of_none (h : Shows fs path entries stats) {file : ControllerFile}
    (hform : kernelForm stats file = none) :
    (StatReader.ofEntries fs path entries).files file = none := by
  obtain ⟨e, he⟩ :=
    FileSystem.exists_openFile_join_eq_error h.list file.valid_name (h.absent file hform)
  rw [StatReader.ofEntries]
  dsimp only
  rw [he]
  rfl

/-- A controller file that is in the directory is open. -/
theorem files_of_some (h : Shows fs path entries stats) {file : ControllerFile}
    {form : Bytes → Prop} (hform : kernelForm stats file = some form) :
    ∃ id, (StatReader.ofEntries fs path entries).files file = some ⟨some id, 0⟩ ∧
      form (fs.content id) := by
  obtain ⟨id, hopen, hcontent⟩ := h.openFile file.valid_name (h.present file form hform)
  refine ⟨id, ?_, hcontent⟩
  rw [StatReader.ofEntries]
  dsimp only
  rw [hopen]
  rfl

/-- A controller file is read as what it was written from. -/
theorem reads (h : Shows fs path entries stats) (file : ControllerFile) (group? : Option β)
    {form : β → Bytes → Prop} (hform : kernelForm stats file = group?.map form)
    {read : Stat.Reader α} {value : β → α}
    (hread : ∀ group content, form group content → (read content).1 = .ok (value group)) :
    faultsOf fs read ((StatReader.ofEntries fs path entries).files file) = [] ∧
      valueOf fs read ((StatReader.ofEntries fs path entries).files file) = group?.map value := by
  cases group? with
  | none =>
    rw [h.files_of_none hform]
    exact ⟨rfl, rfl⟩
  | some group =>
    obtain ⟨id, hfile, hcontent⟩ := h.files_of_some hform
    have hvalue : outcome fs read ⟨some id, 0⟩ = .ok (value group) := hread group _ hcontent
    rw [hfile, faultsOf, valueOf, Option.map_some, hvalue]
    exact ⟨rfl, rfl⟩

/-- A file with a limit is read as this limit. -/
theorem readsLimit (h : Shows fs path entries stats) (file : ControllerFile) (group? : Option β)
    {limit : β → UInt64}
    (hform : kernelForm stats file = group?.map fun group => IsLimit (limit group)) :
    faultsOf fs readLimit ((StatReader.ofEntries fs path entries).files file) = [] ∧
      limitOf fs ((StatReader.ofEntries fs path entries).files file) =
        (group?.map limit).getD 0 := by
  cases group? with
  | none =>
    rw [h.files_of_none hform]
    exact ⟨rfl, rfl⟩
  | some group =>
    obtain ⟨id, hfile, hcontent⟩ := h.files_of_some hform
    rw [hfile]
    exact reads_isLimit hcontent

/-! ## Controllers -/

/-- The pids controller is read as it was written. -/
theorem pids (h : Shows fs path entries stats) :
    (StatReader.ofEntries fs path entries).pidsFaults fs = [] ∧
      (StatReader.ofEntries fs path entries).pidsExpected fs = stats.pids := by
  obtain ⟨hcurrent, hvalue⟩ :=
    h.reads .pidsCurrent stats.pids rfl fun _ _ => readCurrent_of_isNumber
  obtain ⟨hmax, hlimit⟩ := h.readsLimit .pidsMax stats.pids rfl
  have hopen := isSome_valueOf hcurrent
  rw [StatReader.pidsFaults, hcurrent, hmax, StatReader.pidsExpected, StatReader.isOpen, ← hopen,
    numberOf, hvalue, hlimit]
  refine ⟨rfl, ?_⟩
  cases stats.pids <;> rfl

/-- The memory controller is read as it was written. -/
theorem memory (h : Shows fs path entries stats) :
    (StatReader.ofEntries fs path entries).memoryFaults fs = [] ∧
      (StatReader.ofEntries fs path entries).memoryExpected fs = stats.memory := by
  obtain ⟨hstat, hcounters⟩ := h.reads .memoryStat stats.memory rfl fun _ _ => readMemory_of_isFlat
  obtain ⟨hcurrent, husage⟩ :=
    h.reads .memoryCurrent stats.memory rfl fun _ _ => readCurrent_of_isNumber
  obtain ⟨hmax, hlimit⟩ := h.readsLimit .memoryMax stats.memory rfl
  obtain ⟨hswap, hswapUsage⟩ :=
    h.reads .memorySwapCurrent stats.memory rfl fun _ _ => readCurrent_of_isNumber
  obtain ⟨hswapMax, hswapLimit⟩ := h.readsLimit .memorySwapMax stats.memory rfl
  have hopen : (StatReader.ofEntries fs path entries).hasMemory = stats.memory.isSome := by
    rw [StatReader.hasMemory, StatReader.isOpen, StatReader.isOpen, ← isSome_valueOf hstat,
      ← isSome_valueOf hcurrent, hcounters, husage]
    cases stats.memory <;> rfl
  rw [StatReader.memoryFaults, hstat, hcurrent, hmax, hswap, hswapMax, StatReader.memoryExpected,
    hopen, numberOf, numberOf, husage, hlimit, hswapUsage, hswapLimit]
  simp only [StatReader.memoryCounter, hcounters]
  cases stats.memory with
  | none => exact ⟨rfl, rfl⟩
  | some memory => exact ⟨rfl, rfl⟩

/-- The files of a page size are opened, and read as what they were written from. -/
theorem openHugePages (h : Shows fs path entries stats) (hordered : Ordered stats.hugetlb)
    {pages : Unified.HugePages} (hmem : pages ∈ stats.hugetlb) :
    ∃ files, StatReader.openHugePages? fs pages.pageSize
        (path.join (hugePagesCurrentName pages.pageSize))
        (path.join (hugePagesMaxName pages.pageSize)) = some files ∧
      StatReader.hugePageFaults fs files = [] ∧ StatReader.hugePagesExpected fs files = pages := by
  obtain ⟨current, hcurrent, hnumber⟩ :=
    h.openFile (hordered.current pages hmem) (h.current pages hmem)
  obtain ⟨max, hmax, hlimit⟩ := h.openFile (hordered.max pages hmem) (h.max pages hmem)
  have hvalue : outcome fs readCurrent ⟨some current, 0⟩ = .ok pages.current :=
    readCurrent_of_isNumber hnumber
  obtain ⟨hfaults, hread⟩ := reads_isLimit hlimit
  refine ⟨⟨pages.pageSize, ⟨some current, 0⟩, some ⟨some max, 0⟩⟩, ?_, ?_, ?_⟩
  · rw [StatReader.openHugePages?, hcurrent, hmax]
    rfl
  · rw [StatReader.hugePageFaults, faultsOf, Option.map_some, hvalue, hfaults]
    rfl
  · rw [StatReader.hugePagesExpected, numberOf, valueOf, Option.map_some, hvalue, hread]
    rfl

/-- The files of a reader belong to a page size that is shown, and are read as what was written. -/
theorem exists_of_mem_hugePagesOf (h : Shows fs path entries stats)
    (hordered : Ordered stats.hugetlb) {files : HugePageFiles}
    (hmem : files ∈ StatReader.hugePagesOf fs path entries) :
    StatReader.hugePageFaults fs files = [] ∧
      StatReader.hugePagesExpected fs files ∈ stats.hugetlb := by
  obtain ⟨hname, hopen⟩ := StatReader.mem_hugePagesOf_iff.1 hmem
  obtain ⟨pages, hpages, hsize⟩ := List.mem_map.1 (h.noOther _ hname)
  obtain ⟨others, hothers, hfaults, hexpected⟩ := h.openHugePages hordered hpages
  rw [hsize, hopen] at hothers
  obtain rfl := Option.some.inj hothers
  exact ⟨hfaults, hexpected ▸ hpages⟩

/-- **The page sizes are those that are shown**, in their order. -/
theorem hugetlb (h : Shows fs path entries stats) (hordered : Ordered stats.hugetlb) :
    (StatReader.hugePagesOf fs path entries).flatMap (StatReader.hugePageFaults fs) = [] ∧
      (StatReader.hugePagesOf fs path entries).map (StatReader.hugePagesExpected fs) =
        stats.hugetlb := by
  constructor
  · refine List.flatMap_eq_nil_iff.2 fun files hmem => ?_
    exact (h.exists_of_mem_hugePagesOf hordered hmem).1
  · have hread :
      ((StatReader.hugePagesOf fs path entries).map (StatReader.hugePagesExpected fs)).Pairwise
        fun a b => a.pageSize < b.pageSize :=
      (StatReader.pairwise_hugePagesOf h.names).map _ fun _ _ hlt => hlt
    have hshown : stats.hugetlb.Pairwise fun a b => a.pageSize < b.pageSize :=
      hordered.rising.imp fun hlt => Utf8.encode_lt_encode_iff.1 hlt
    refine eq_of_mem_iff_of_rising hread hshown fun pages => ⟨?_, fun hmem => ?_⟩
    · rintro hmem
      obtain ⟨files, hfiles, rfl⟩ := List.mem_map.1 hmem
      exact (h.exists_of_mem_hugePagesOf hordered hfiles).2
    · obtain ⟨files, hopen, -, hexpected⟩ := h.openHugePages hordered hmem
      have hsize := StatReader.pageSize_of_openHugePages? hopen
      obtain ⟨-, id, hentry, -⟩ := h.current pages hmem
      refine List.mem_map.2 ⟨files, StatReader.mem_hugePagesOf_iff.2 ⟨?_, ?_⟩, hexpected⟩
      · exact hsize ▸ List.mem_map_of_mem hentry
      · rw [hsize, hopen]

/-! ## The whole directory -/

/-- **What is read from a directory are the stats that it shows.** -/
theorem read (h : Shows fs path entries stats) (hordered : Ordered stats.hugetlb) :
    (StatReader.ofEntries fs path entries).faults fs = [] ∧
      (StatReader.ofEntries fs path entries).expected fs = stats := by
  obtain ⟨hpids, pids⟩ := h.pids
  obtain ⟨hcpu, cpu⟩ := h.reads .cpuStat stats.cpu rfl fun _ _ => readCpu_of_isFlat
  obtain ⟨hmemory, memory⟩ := h.memory
  obtain ⟨hevents, events⟩ :=
    h.reads .memoryEvents stats.memoryEvents rfl fun _ _ => readMemoryEvents_of_isFlat
  obtain ⟨hio, io⟩ := h.reads .ioStat stats.io rfl fun _ _ => readIo_of_areDevices
  obtain ⟨hhugetlb, hugetlb⟩ := h.hugetlb hordered
  have hfaults : (StatReader.ofEntries fs path entries).hugetlb.flatMap
      (StatReader.hugePageFaults fs) = [] := hhugetlb
  have hexpected : (StatReader.ofEntries fs path entries).hugetlb.map
      (StatReader.hugePagesExpected fs) = stats.hugetlb := hugetlb
  constructor
  · rw [StatReader.faults, hpids, hcpu, hmemory, hevents, hio, hfaults]
    rfl
  · rw [StatReader.expected, pids, cpu, memory, events, io, hexpected]
    simp only [Option.map_id']

/-- **A task that is opened on a directory answers the stats that the directory shows.** The
directory is opened, its files are read without a fault, and the answer is an envelope with these
stats. -/
theorem exists_envelope {host : Host} (h : Shows host.files path entries stats)
    (hordered : Ordered stats.hugetlb) (hfits : (Envelope.ofUnified stats).Fits) (id : ContainerId)
    (ns : String) :
    ∃ task opened envelope, host.openTask id ns path = .ok (task, opened) ∧
      (opened.ask task.source).1 = .ok envelope ∧ envelope.content = .ok (.unified stats) := by
  have hopen := StatReader.ofCgroup_eq h.list
  obtain ⟨hfaults, hexpected⟩ := h.read hordered
  have hanswer : (StatReader.ofEntries host.files path entries).answer host.files =
      .ok (.ofUnified stats) := by
    rw [StatReader.answer, StatReader.read_of_atStart (StatReader.Built.ofCgroup hopen).atStart,
      hfaults, hexpected]
    rfl
  obtain ⟨task, opened, htask, -, -, hask⟩ := Host.ask_openTask hopen id ns
  exact ⟨task, opened, .ofUnified stats, htask, hask.trans hanswer,
    Envelope.content_unified hfits List.mem_cons_self⟩

/-- The files of a container without a memory controller, in the order of a listing. -/
def webFiles : List (String × List String) :=
  [("hugetlb.2MB.current", ["3"]), ("cgroup.procs", ["17", "18"]), ("pids.max", ["max"]),
    ("hugetlb.1GB.max", ["18446744073709551615"]), ("pids.current", ["2"]),
    ("io.stat", ["8:0 rbytes=1 wbytes=2 rios=3 wios=4 dbytes=0 dios=0",
      "259:1 wbytes=6 rbytes=5 rios=7 wios=8"]),
    ("cpu.stat", ["usage_usec 30", "user_usec 20", "system_usec 10", "core_sched.force_idle_usec 0",
      "nr_periods 4", "throttled_usec 1", "nr_throttled 2"]),
    ("hugetlb.1GB.current", ["0"]), ("hugetlb.2MB.max", ["4"])]

/-- The entries of the directory with these files. -/
def webEntries : Entries :=
  webFiles.mapIdx fun index file => (Utf8.encode file.1, .file ⟨index⟩)

/-- A host with this directory. -/
def webHost : Host where
  files := ⟨[(Utf8.encode "web", .directory webEntries)], webFiles.map fun file => written file.2⟩

/-- The stats in these files. -/
def webStats : Unified.Stats where
  pids := some ⟨2, 18446744073709551615⟩
  cpu := some ⟨30, 20, 10, 4, 2, 1⟩
  io := some ⟨[⟨8, 0, 1, 2, 3, 4⟩, ⟨259, 1, 5, 6, 7, 8⟩]⟩
  hugetlb := [⟨0, 18446744073709551615, "1GB"⟩, ⟨3, 4, "2MB"⟩]

/-- The directory holds its files. -/
theorem holds_web (index : Nat) {name : Name} {form : Bytes → Prop}
    (hentry : webEntries[index]? = some (name, .file ⟨index⟩))
    (hfits : ((Path.ofText "/web").join name).fits)
    (hform : form (webHost.files.content ⟨index⟩)) :
    Holds webHost.files (Path.ofText "/web") webEntries name form :=
  ⟨hfits, ⟨index⟩, List.mem_of_getElem? hentry, hform⟩

/-- The counters in `cpu.stat` are in another order than in the stats, and one line is not known. -/
theorem isFlat_web : IsFlat (cpuCounters ⟨30, 20, 10, 4, 2, 1⟩) (webHost.files.content ⟨6⟩) :=
  ⟨[("usage_usec", 30), ("user_usec", 20), ("system_usec", 10), ("nr_periods", 4),
      ("throttled_usec", 1), ("nr_throttled", 2)], _, by decide,
    .counter _ <| .counter _ <| .counter _ <|
      .other ⟨"core_sched.force_idle_usec", "0", by decide, by decide, by decide, rfl⟩ <|
        .counter _ <| .counter _ <| .counter _ .nil,
    by decide +kernel⟩

/-- So it is with the counters of the devices. -/
theorem areDevices_web :
    AreDevices [⟨8, 0, 1, 2, 3, 4⟩, ⟨259, 1, 5, 6, 7, 8⟩] (webHost.files.content ⟨5⟩) := by
  have hfirst : IsDeviceLine ⟨8, 0, 1, 2, 3, 4⟩
      "8:0 rbytes=1 wbytes=2 rios=3 wios=4 dbytes=0 dios=0" :=
    ⟨[("rbytes", 1), ("wbytes", 2), ("rios", 3), ("wios", 4)], _, by decide,
      .counter _ <| .counter _ <| .counter _ <| .counter _ <|
        .other ⟨"dbytes", "0", by decide, by decide, rfl, by decide⟩ <|
          .other ⟨"dios", "0", by decide, by decide, rfl, by decide⟩ .nil,
      by decide +kernel⟩
  have hsecond : IsDeviceLine ⟨259, 1, 5, 6, 7, 8⟩ "259:1 wbytes=6 rbytes=5 rios=7 wios=8" :=
    ⟨[("wbytes", 6), ("rbytes", 5), ("rios", 7), ("wios", 8)], _, by decide,
      .counter _ <| .counter _ <| .counter _ <| .counter _ .nil, by decide +kernel⟩
  exact ⟨_, .cons hfirst (.cons hsecond .nil), rfl⟩

/-- The directory shows the stats. -/
theorem shows_web : Shows webHost.files (Path.ofText "/web") webEntries webStats where
  list := by cbv
  names := by decide
  present := by
    intro file form hform
    cases file <;> cases hform
    · exact holds_web 4 rfl (by decide) rfl
    · exact holds_web 2 rfl (by decide) (.inr ⟨rfl, rfl⟩)
    · exact holds_web 6 rfl (by decide) isFlat_web
    · exact holds_web 5 rfl (by decide) areDevices_web
  absent := by
    intro file hform
    cases file <;> cases hform <;> decide
  current := by
    intro pages hmem
    fin_cases hmem
    · exact holds_web 7 rfl (by decide) rfl
    · exact holds_web 0 rfl (by decide) rfl
  max := by
    intro pages hmem
    fin_cases hmem
    · exact holds_web 3 rfl (by decide) (.inl rfl)
    · exact holds_web 8 rfl (by decide) (.inl rfl)
  noOther := by
    intro pageSize hmem
    have hsizes : (webEntries.map Prod.fst).filterMap pageSize? = ["2MB", "1GB"] := by
      decide +kernel
    have hsize : pageSize ∈ (webEntries.map Prod.fst).filterMap pageSize? :=
      List.mem_filterMap.2 ⟨_, hmem, pageSize?_eq_some_iff.2 rfl⟩
    rw [hsizes] at hsize
    exact (List.Perm.swap _ _ _).mem_iff.1 hsize

/-- The page sizes of the example can stand in names of files, and rise. -/
theorem ordered_web : Ordered webStats.hugetlb where
  current := by decide
  max := by decide
  rising := by decide

/-- The task of this directory answers the stats, with the devices and the page sizes in their
order. -/
theorem exists_envelope_web :
    ∃ task opened envelope,
      webHost.openTask ⟨"web", by decide, by decide⟩ "moby" (Path.ofText "/web") =
          .ok (task, opened) ∧
        (opened.ask task.source).1 = .ok envelope ∧
        envelope.content = .ok (.unified webStats) := by
  have hfits : (Envelope.ofUnified webStats).Fits := by
    unfold Envelope.Fits
    cbv
  exact exists_envelope shows_web ordered_web hfits _ _

end Shows

end ContainerUsage.Cgroup
