import Mathlib
import ContainerUsage.Proofs.Stat.Counters

/-!
# Files as the kernel writes them

The forms in which the kernel writes the files of a cgroup, each as a predicate of the contents: one
number (`IsNumber`) or one limit (`IsLimit`) on a line of its own, counters with a line each
(`IsFlat`), and a line for each block device (`AreDevices`). The kernel adds counters from one
version to the next, so all forms but the first two have room for others, and do not rely on an
order of the counters.

A file in one of these forms is read as what it was written from:

* `readCurrent_of_isNumber` and `exists_readLimit_of_isLimit` for numbers and limits,
* `readCpu_of_isFlat`, `readMemory_of_isFlat` and `readMemoryEvents_of_isFlat`, from the reading of
  any table (`Keyed.read_of_isFlat`),
* `readIo_of_areDevices`, from the reading of one line (`parseDeviceLine_of_isDeviceLine`).
-/

namespace ContainerUsage.Stat

open Payload Text

/-! ## One number -/

/-- A number on a line of its own. -/
def IsNumber (n : UInt64) (content : Bytes) : Prop := content = written [Decimal.print n.toNat]

/-- A limit on a line of its own. No limit is the greatest number there is, and may be written as
such. -/
def IsLimit (n : UInt64) (content : Bytes) : Prop :=
  IsNumber n content ∨ n = Limit.orMax none ∧ content = written ["max"]

/-- A file with a number is read as the number. -/
theorem readCurrent_of_isNumber {n : UInt64} {content : Bytes} (h : IsNumber n content) :
    (readCurrent content).1 = .ok n := by
  rw [h, readCurrent_written]

/-- A file with a limit is read as the limit, where `max` is the greatest number. -/
theorem exists_readLimit_of_isLimit {n : UInt64} {content : Bytes} (h : IsLimit n content) :
    ∃ limit, (readLimit content).1 = .ok limit ∧ limit.orMax = n := by
  rcases h with h | ⟨rfl, h⟩
  · exact ⟨some n, by rw [h, readLimit_written], rfl⟩
  · exact ⟨none, by rw [h, readLimit_max], rfl⟩

/-! ## Counters with a line each -/

/-- The line of a counter. -/
def flatLine (counter : Counter) : String := counter.1 ++ " " ++ Decimal.print counter.2.toNat

/-- A line under a key that is none of the given ones. What stands after the key is of no matter. -/
def IsOtherLine (keys : List String) (text : String) : Prop :=
  ∃ key rest, IsWord key.toList ∧ key ∉ keys ∧ IsLine rest ∧ text = key ++ " " ++ rest

/-- A file in which counters have a line each, in any order and with lines of other keys between
them. -/
def IsFlat (counters : List Counter) (content : Bytes) : Prop :=
  ∃ ordered texts, ordered.Perm counters ∧
    Interleaved flatLine (IsOtherLine (counters.map Prod.fst)) ordered texts ∧
    content = written texts

variable {σ : Type} {table : Table σ} {counters : List Counter} {content : Bytes}

/-- A line with a key in front is read as at most one pair, which has this key. -/
theorem pairs_flat {key : String} (hkey : IsWord key.toList) (rest : String) :
    flat.pairs ((key ++ " " ++ rest).toList ++ ['\n']) =
      ((words (rest.toList ++ ['\n'])).head?.map fun value => (key.toList, value)).toList := by
  have hspace : isBlank ' ' = true := by decide
  have hwords : words ((key ++ " " ++ rest).toList ++ ['\n']) =
      key.toList :: words (rest.toList ++ ['\n']) := by
    rw [String.toList_append, String.toList_append, List.append_assoc, List.append_assoc]
    exact hkey.words_append_cons hspace _
  rw [Layout.pairs, hwords]
  cases words (rest.toList ++ ['\n']) with
  | nil => rfl
  | cons value others => rfl

/-- A line of a flat file has one pair. -/
theorem pairs_flatLine {counter : Counter} (hkey : IsWord counter.1.toList) :
    flat.pairs ((flatLine counter).toList ++ ['\n']) = [counter.pair] := by
  have hnewline : isBlank '\n' = true := by decide
  rw [flatLine, pairs_flat hkey, Decimal.toList_print,
    (isWord_digits _).words_append_cons hnewline]
  rfl

/-- What a table has to be like for its counters to be written in files: different keys change
different things, no key comes twice, and each of them is a word. -/
structure Keyed (table : Table σ) : Prop where
  independent : table.Independent
  nodup : table.keys.Nodup
  isWord : ∀ key ∈ table.keys, IsWord key.toList

/-- **A file of counters is read as these counters**, whatever else it holds. -/
theorem Keyed.read_of_isFlat (h : Keyed table) (hkeys : counters.map Prod.fst = table.keys)
    (hcontent : IsFlat counters content) (start : σ) :
    (flat.read table start content).1 = .ok (table.fill start counters) := by
  obtain ⟨ordered, texts, hperm, htexts, rfl⟩ := hcontent
  have hknown : ∀ counter ∈ ordered, counter.1 ∈ table.keys := by
    intro counter hmem
    exact hkeys ▸ List.mem_map_of_mem (hperm.mem_iff.1 hmem)
  have hlines : ∀ text ∈ texts, IsLine text := by
    apply htexts.forall_mem IsLine
    · intro counter hmem
      have hkey := isLine_of_isWord (h.isWord _ (hknown counter hmem))
      exact isLine_append.2 ⟨isLine_append.2 ⟨hkey, by decide⟩, isLine_print _⟩
    · rintro text ⟨key, rest, hkey, -, hrest, rfl⟩
      exact isLine_append.2 ⟨isLine_append.2 ⟨isLine_of_isWord hkey, by decide⟩, hrest⟩
  have hpairs : table.known (texts.flatMap fun text => flat.pairs (text.toList ++ ['\n'])) =
      ordered.map Counter.pair := by
    apply htexts.known_flatMap
    · intro counter hmem
      rw [pairs_flatLine (h.isWord _ (hknown counter hmem)), Counter.pair, Table.known_singleton,
        if_pos (hknown counter hmem)]
    · rintro text ⟨key, rest, hkey, hother, -, rfl⟩
      rw [hkeys] at hother
      rw [pairs_flat hkey]
      cases (words (rest.toList ++ ['\n'])).head? with
      | none => rfl
      | some value => exact (table.known_singleton key value).trans (if_neg hother)
  have hdistinct : (ordered.map Prod.fst).Nodup := by
    rw [(hperm.map Prod.fst).nodup_iff, hkeys]
    exact h.nodup
  have hrun : foldLines (flat.readLine table) ⟨start, []⟩ 1 (lines (written texts)) = _ :=
    Layout.foldLines_of_known hlines hpairs hdistinct fun _ _ => List.not_mem_nil
  rw [Layout.read, readLines]
  dsimp only
  rw [hrun, ← h.independent.fill_perm hperm hdistinct]
  rfl

/-! ## The files of counters -/

/-- The counters in `cpu.stat`. -/
def cpuCounters (cpu : Unified.Cpu) : List Counter :=
  [("usage_usec", cpu.usageUsec), ("user_usec", cpu.userUsec), ("system_usec", cpu.systemUsec),
    ("nr_periods", cpu.nrPeriods), ("nr_throttled", cpu.nrThrottled),
    ("throttled_usec", cpu.throttledUsec)]

/-- The counters in `memory.stat`. -/
def memoryCounters (memory : Unified.Memory) : List Counter :=
  [("anon", memory.anon), ("file", memory.file), ("kernel_stack", memory.kernelStack),
    ("slab", memory.slab), ("sock", memory.sock), ("shmem", memory.shmem),
    ("file_mapped", memory.fileMapped), ("pgfault", memory.pgfault),
    ("pgmajfault", memory.pgmajfault)]

/-- The counters in `memory.events`. -/
def memoryEventsCounters (events : Unified.MemoryEvents) : List Counter :=
  [("low", events.low), ("high", events.high), ("max", events.max), ("oom", events.oom),
    ("oom_kill", events.oomKill)]

/-- The cpu counters can be written in a file. -/
theorem keyed_cpuTable : Keyed cpuTable :=
  ⟨by simp [Table.Independent, cpuTable, Swaps], by decide, by decide⟩

/-- The memory counters can be written in a file. -/
theorem keyed_memoryTable : Keyed memoryTable :=
  ⟨by simp [Table.Independent, memoryTable, Swaps], by decide, by decide⟩

/-- The counts of memory events can be written in a file. -/
theorem keyed_memoryEventsTable : Keyed memoryEventsTable :=
  ⟨by simp [Table.Independent, memoryEventsTable, Swaps], by decide, by decide⟩

/-- A file of cpu counters is read as these counters. -/
theorem readCpu_of_isFlat {cpu : Unified.Cpu} (h : IsFlat (cpuCounters cpu) content) :
    (readCpu content).1 = .ok cpu :=
  keyed_cpuTable.read_of_isFlat rfl h {}

/-- The counters that are read from `memory.stat`. -/
def MemoryCounters.ofStats (memory : Unified.Memory) : MemoryCounters :=
  memoryTable.fill {} (memoryCounters memory)

/-- A file of memory counters is read as these counters. -/
theorem readMemory_of_isFlat {memory : Unified.Memory}
    (h : IsFlat (memoryCounters memory) content) :
    (readMemory content).1 = .ok (.ofStats memory) :=
  keyed_memoryTable.read_of_isFlat rfl h {}

/-- A file of memory events is read as these counts. -/
theorem readMemoryEvents_of_isFlat {events : Unified.MemoryEvents}
    (h : IsFlat (memoryEventsCounters events) content) :
    (readMemoryEvents content).1 = .ok events :=
  keyed_memoryEventsTable.read_of_isFlat rfl h {}

/-! ## Block devices -/

/-- The counters on the line of a device. -/
def deviceCounters (device : Unified.Device) : List Counter :=
  [("rbytes", device.rbytes), ("wbytes", device.wbytes), ("rios", device.rios),
    ("wios", device.wios)]

/-- The word of a counter. -/
def deviceWord (counter : Counter) : String := counter.1 ++ "=" ++ Decimal.print counter.2.toNat

/-- A word under a key that is none of the given ones, with any value. -/
def IsOtherWord (keys : List String) (text : String) : Prop :=
  ∃ key value, '=' ∉ key.toList ∧ key ∉ keys ∧ text = key ++ "=" ++ value ∧ IsWord text.toList

/-- The two numbers of a device. -/
def deviceNumbers (device : Unified.Device) : String :=
  Decimal.print device.major.toNat ++ ":" ++ Decimal.print device.minor.toNat

/-- The line of a device: its numbers, and its counters in any order with words of other keys
between them. -/
def IsDeviceLine (device : Unified.Device) (text : String) : Prop :=
  ∃ ordered entries, ordered.Perm (deviceCounters device) ∧
    Interleaved deviceWord (IsOtherWord ((deviceCounters device).map Prod.fst)) ordered entries ∧
    text = " ".intercalate (deviceNumbers device :: entries)

/-- A file with a line for each of some devices, in their order. -/
def AreDevices (devices : List Unified.Device) (content : Bytes) : Prop :=
  ∃ texts, List.Forall₂ IsDeviceLine devices texts ∧ content = written texts

/-- The counters of a device can be written on a line. -/
theorem keyed_deviceTable : Keyed deviceTable :=
  ⟨by simp [Table.Independent, deviceTable, Swaps], by decide, by decide⟩

/-- The numbers of a device are read back. -/
theorem parseDevice_deviceNumbers (device : Unified.Device) :
    parseDevice (deviceNumbers device).toList = some (device.major, device.minor) := by
  have hcolon : ':' ∉ Decimal.digits device.major.toNat := by
    intro hmem
    exact absurd (Decimal.isDigit_of_mem_digits hmem) (by decide)
  have hcut : cutOnce ':' (deviceNumbers device).toList =
      some (Decimal.digits device.major.toNat, Decimal.digits device.minor.toNat) := by
    refine cutOnce_eq_some_iff.2 ⟨?_, hcolon⟩
    simp [deviceNumbers]
  rw [parseDevice, hcut]
  dsimp only
  rw [Decimal.parse_digits, Decimal.parse_digits]

/-- The numbers of a device are one word. -/
theorem isWord_deviceNumbers (device : Unified.Device) : IsWord (deviceNumbers device).toList := by
  rw [deviceNumbers, String.toList_append, String.toList_append, Decimal.toList_print,
    Decimal.toList_print]
  exact ((isWord_digits _).append (by decide)).append (isWord_digits _)

/-- A counter of a device is one word. -/
theorem isWord_deviceWord {counter : Counter} (hkey : IsWord counter.1.toList) :
    IsWord (deviceWord counter).toList := by
  rw [deviceWord, String.toList_append, String.toList_append, Decimal.toList_print]
  exact (hkey.append (by decide)).append (isWord_digits _)

/-- A word with a separator is cut there. -/
theorem cutOnce_append {key : String} (hkey : '=' ∉ key.toList) (value : String) :
    cutOnce '=' (key ++ "=" ++ value).toList = some (key.toList, value.toList) := by
  refine cutOnce_eq_some_iff.2 ⟨?_, hkey⟩
  rw [String.toList_append, String.toList_append, List.append_assoc]
  rfl

/-- The words on the line of a device. -/
theorem words_deviceLine (device : Unified.Device) {entries : List String}
    (hwords : ∀ entry ∈ entries, IsWord entry.toList) :
    words ((" ".intercalate (deviceNumbers device :: entries)).toList ++ ['\n']) =
      (deviceNumbers device).toList :: entries.map String.toList := by
  have hall : ∀ w ∈ (deviceNumbers device :: entries).map String.toList, IsWord w := by
    rw [List.forall_mem_map, List.forall_mem_cons]
    exact ⟨isWord_deviceNumbers device, hwords⟩
  rw [String.toList_intercalate]
  exact words_intercalate hall

/-- The known pairs on the line of a device are its counters. -/
theorem known_deviceLine {device : Unified.Device} {ordered : List Counter} {entries : List String}
    (hperm : ordered.Perm (deviceCounters device))
    (hentries : Interleaved deviceWord (IsOtherWord deviceTable.keys) ordered entries) :
    deviceTable.known (entries.flatMap fun entry => (cutOnce '=' entry.toList).toList) =
      ordered.map Counter.pair := by
  have hkeys : ∀ key ∈ deviceTable.keys, '=' ∉ key.toList := by decide
  apply hentries.known_flatMap
  · intro counter hmem
    have hknown : counter.1 ∈ deviceTable.keys := List.mem_map_of_mem (hperm.mem_iff.1 hmem)
    rw [deviceWord, cutOnce_append (hkeys _ hknown), Option.toList_some, Decimal.toList_print]
    exact (deviceTable.known_singleton _ _).trans (if_pos hknown)
  · rintro entry ⟨key, value, hkey, hother, rfl, -⟩
    rw [cutOnce_append hkey, Option.toList_some, Table.known_singleton, if_neg hother]

/-- What the line of a device has after the numbers are words. -/
theorem isWord_of_mem_entries {device : Unified.Device} {ordered : List Counter}
    {entries : List String} (hperm : ordered.Perm (deviceCounters device))
    (hentries : Interleaved deviceWord (IsOtherWord deviceTable.keys) ordered entries) :
    ∀ entry ∈ entries, IsWord entry.toList := by
  refine hentries.forall_mem (fun entry => IsWord entry.toList) ?_ ?_
  · intro counter hmem
    exact isWord_deviceWord
      (keyed_deviceTable.isWord _ (List.mem_map_of_mem (hperm.mem_iff.1 hmem)))
  · rintro entry ⟨key, value, -, -, -, hword⟩
    exact hword

/-- The line of a device is one line. -/
theorem IsDeviceLine.isLine {device : Unified.Device} {text : String}
    (h : IsDeviceLine device text) :
    IsLine text := by
  obtain ⟨ordered, entries, hperm, hentries, rfl⟩ := h
  apply isLine_intercalate (by decide)
  rw [List.forall_mem_cons]
  refine ⟨isLine_of_isWord (isWord_deviceNumbers device), fun entry hmem => ?_⟩
  exact isLine_of_isWord (isWord_of_mem_entries hperm hentries entry hmem)

/-- **The line of a device is read as this device.** -/
theorem parseDeviceLine_of_isDeviceLine {device : Unified.Device} {text : String}
    (h : IsDeviceLine device text) (number : Nat) :
    parseDeviceLine number (text.toList ++ ['\n']) = .ok (some device) := by
  obtain ⟨ordered, entries, hperm, hentries, rfl⟩ := h
  have hline := words_deviceLine device (isWord_of_mem_entries hperm hentries)
  have hpairs : deviceTable.known (deviceLayout.pairs
      ((" ".intercalate (deviceNumbers device :: entries)).toList ++ ['\n'])) =
        ordered.map Counter.pair := by
    rw [← known_deviceLine hperm hentries, Layout.pairs, hline]
    show deviceTable.known ((entries.map String.toList).filterMap (cutOnce '=')) = _
    rw [List.filterMap_map, List.filterMap_eq_flatMap_toList]
    rfl
  have hdistinct : (ordered.map Prod.fst).Nodup := by
    rw [(hperm.map Prod.fst).nodup_iff]
    exact keyed_deviceTable.nodup
  rw [parseDeviceLine, hline]
  dsimp only
  rw [parseDevice_deviceNumbers]
  dsimp only
  rw [Layout.readLine_eq_applyAll,
    Layout.applyAll_of_known hpairs hdistinct fun _ _ => List.not_mem_nil,
    keyed_deviceTable.independent.fill_perm hperm hdistinct]
  rfl

/-- A run over lines of devices adds these devices to those before. -/
theorem foldLines_devices {devices : List Unified.Device} {texts : List String}
    (h : List.Forall₂ IsDeviceLine devices texts) (before : List Unified.Device) (number : Nat) :
    foldLines (fun devices number text =>
        (parseDeviceLine number text).map fun device => devices ++ device.toList)
      before number (lines (written texts)) = (.ok (before ++ devices), []) := by
  have hlines : ∀ text ∈ texts, IsLine text := by
    clear before number
    induction h with
    | nil => exact List.forall_mem_nil _
    | cons hline _ ih => exact List.forall_mem_cons.2 ⟨hline.isLine, ih⟩
  induction h generalizing before number with
  | nil =>
    rw [List.append_nil]
    rfl
  | cons hline _ ih =>
    rw [foldLines_written_cons _ _ _ hlines, parseDeviceLine_of_isDeviceLine hline]
    show foldLines _ (before ++ [_]) (number + 1) _ = _
    rw [ih _ _ (List.forall_mem_cons.1 hlines).2, List.append_assoc, List.singleton_append]

/-- **A file of devices is read as these devices**, each with the counters on its own line. -/
theorem readIo_of_areDevices {devices : List Unified.Device} (h : AreDevices devices content) :
    (readIo content).1 = .ok ⟨devices⟩ := by
  obtain ⟨texts, htexts, rfl⟩ := h
  rw [readIo, readLines]
  dsimp only
  rw [foldLines_devices htexts]
  rfl

end ContainerUsage.Stat
