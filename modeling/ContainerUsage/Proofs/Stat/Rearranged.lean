import Mathlib
import ContainerUsage.Proofs.Stat.KernelFormat
import ContainerUsage.Proofs.Stat.Values

/-!
# The order of the lines

`cpu.stat`, `memory.stat` and `memory.events` have one counter a line, and what they are read as
does not depend on the order of their lines, nor on lines without a counter. A file is given by its
lines, which are any texts (`IsFile`), and each of these counts as the pair of its first two words
(`firstPair?`).

* `map_counter?_items` turns a file into these pairs: the numbers of the lines play no part in what
  is read.
* `CounterFile.read_eq_ok_iff` follows from the reading of any pairs (`Shown.foldlM_eq_ok_iff`): a
  file is read as some stats iff its lines give each key the number in its field, which no order can
  change.
* `CounterFile.read_rearranged` puts this into the words of a file whose lines are moved.
-/

namespace ContainerUsage.Stat

open Payload Text

/-! ## Files of lines -/

/-- A file with some lines. The newline behind the last one may be missing. -/
def IsFile (texts : List String) (content : Bytes) : Prop :=
  (∀ text ∈ texts, IsLine text) ∧ (content = written texts ∨ content ++ [newline] = written texts)

/-- The first two words of a line, if it has two. -/
def firstPair? (text : String) : Option Pair :=
  match words text.toList with
  | key :: value :: _ => some (key, value)
  | _ => none

/-- A line of a flat file has its first pair or none. -/
theorem pairs_eq_firstPair? (text : String) :
    flat.pairs text.toList = (firstPair? text).toList := by
  rw [Layout.pairs, firstPair?]
  rcases hwords : words text.toList with - | ⟨key, - | ⟨value, rest⟩⟩ <;> rfl

/-- The newline at the end of a line adds no word. -/
theorem firstPair?_append_newline (text : String) :
    firstPair? (text ++ "\n") = firstPair? text := by
  have hwords : words (text ++ "\n").toList = words text.toList := by
    rw [String.toList_append]
    exact (words_append_cons (by decide) text.toList []).trans (List.append_nil _)
  rw [firstPair?, hwords, firstPair?]

/-- The last line is written behind the others. -/
theorem written_concat (front : List String) (last : String) :
    written (front ++ [last]) = written front ++ Utf8.encode last ++ [newline] := by
  induction front with
  | nil => exact written_cons last []
  | cons text front ih =>
    rw [List.cons_append, written_cons, written_cons, ih]
    simp only [List.append_assoc, List.cons_append]

/-- A file is read as texts that have the entries of its lines. -/
theorem IsFile.exists_lines {texts : List String} {content : Bytes} (h : IsFile texts content) :
    ∃ read : List String, lines content = read.map Utf8.encode ∧
      read.filterMap firstPair? = texts.filterMap firstPair? := by
  have hended : ∀ ts : List String, (ts.map (· ++ "\n")).filterMap firstPair? =
      ts.filterMap firstPair? := by
    intro ts
    rw [List.filterMap_map]
    exact List.filterMap_congr fun text _ => firstPair?_append_newline text
  obtain ⟨htexts, rfl | hlast⟩ := h
  · exact ⟨texts.map (· ++ "\n"), by rw [lines_written htexts, List.map_map]; rfl, hended texts⟩
  · rcases List.eq_nil_or_concat texts with rfl | ⟨front, last, rfl⟩
    · exact absurd hlast (List.append_ne_nil_of_right_ne_nil _ (List.cons_ne_nil _ _))
    · rw [List.concat_eq_append] at hlast htexts ⊢
      rw [List.forall_mem_append, List.forall_mem_singleton] at htexts
      -- the last line is there without its newline, or not at all if it is empty
      have hcontent : content = written front ++ Utf8.encode last :=
        List.append_cancel_right (hlast.trans (written_concat front last))
      have hfront : lines content = (front.map (· ++ "\n")).map Utf8.encode ++
          lines (Utf8.encode last) := by
        rw [hcontent, lines_append (endsLine_written front), lines_written htexts.1, List.map_map]
        rfl
      by_cases hempty : last = ""
      · refine ⟨front.map (· ++ "\n"), ?_, ?_⟩
        · rw [hfront, hempty]
          exact List.append_nil _
        · rw [List.filterMap_append, hended, hempty]
          exact (List.append_nil _).symm
      · refine ⟨front.map (· ++ "\n") ++ [last], ?_, ?_⟩
        · rw [hfront, lines_encode htexts.2 hempty, List.map_append]
          rfl
        · rw [List.filterMap_append, List.filterMap_append, hended]

/-! ## Reading a file -/

/-- The items of a file are the known pairs on its lines. -/
theorem map_counter?_items {σ : Type} (l : Layout) (table : Table σ) {content : Bytes}
    {read : List String} (h : lines content = read.map Utf8.encode) :
    (l.items table content).map Item.counter? =
      (table.known (read.flatMap fun text => l.pairs text.toList)).map Pair.counter? := by
  have hfrom : ∀ number, (((read.map Utf8.encode).zipIdx number).flatMap fun line =>
      l.itemsOn table line.1 line.2).map Item.counter? =
        (table.known (read.flatMap fun text => l.pairs text.toList)).map Pair.counter? := by
    clear h
    induction read with
    | nil => exact fun _ => rfl
    | cons text read ih =>
      intro number
      rw [List.map_cons, List.zipIdx_cons, List.flatMap_cons, List.map_append, ih,
        List.flatMap_cons, Table.known, Table.known, List.filter_append, List.map_append,
        Layout.itemsOn, Utf8.decode?_encode]
      dsimp only
      rw [List.map_map]
      rfl
  rw [Layout.items, h]
  exact hfrom 1

/-- The items of a file are the known pairs among the first ones on its lines. -/
theorem IsFile.map_counter?_items {texts : List String} {content : Bytes} (h : IsFile texts content)
    {σ : Type} (table : Table σ) : (flat.items table content).map Item.counter? =
      (table.known (texts.filterMap firstPair?)).map Pair.counter? := by
  obtain ⟨read, hlines, hread⟩ := h.exists_lines
  rw [Stat.map_counter?_items flat table hlines, ← hread, List.filterMap_eq_flatMap_toList]
  simp only [pairs_eq_firstPair?]

/-! ## The three files -/

/-- The cpu table shows the counters of the cpu group. -/
theorem shown_cpuTable : Shown cpuTable cpuCounters fun _ => () := by
  refine ⟨fun _ => rfl, ?_, fun _ _ _ _ => rfl, fun v w _ h => ?_⟩
  · simp [cpuTable, cpuCounters]
  · cases v
    cases w
    simpa [cpuCounters] using h

/-- The memory table shows those counters of the memory group that `memory.stat` has. -/
theorem shown_memoryTable :
    Shown memoryTable (fun counters => memoryCounters (counters.toStats {})) fun _ => () := by
  refine ⟨fun _ => rfl, ?_, fun _ _ _ _ => rfl, fun v w _ h => ?_⟩
  · simp [memoryTable, memoryCounters, MemoryCounters.toStats]
  · cases v
    cases w
    simpa [memoryCounters, MemoryCounters.toStats] using h

/-- The table of memory events shows their counts. -/
theorem shown_memoryEventsTable : Shown memoryEventsTable memoryEventsCounters fun _ => () := by
  refine ⟨fun _ => rfl, ?_, fun _ _ _ _ => rfl, fun v w _ h => ?_⟩
  · simp [memoryEventsTable, memoryEventsCounters]
  · cases v
    cases w
    simpa [memoryEventsCounters] using h

/-- The files of a cgroup with one counter a line. -/
inductive CounterFile where
  | cpu
  | memory
  | memoryEvents

namespace CounterFile

/-- What a file is read as. -/
def Stats : CounterFile → Type
  | cpu => Unified.Cpu
  | memory => MemoryCounters
  | memoryEvents => Unified.MemoryEvents

/-- Reads a file. -/
def read : (file : CounterFile) → Reader file.Stats
  | cpu => readCpu
  | memory => readMemory
  | memoryEvents => readMemoryEvents

/-- All fields of what is read, each with its key. -/
def fields : (file : CounterFile) → file.Stats → List Counter
  | cpu => cpuCounters
  | memory => fun counters => memoryCounters (counters.toStats {})
  | memoryEvents => memoryEventsCounters

/-- The known keys of a file. -/
def table : (file : CounterFile) → Table file.Stats
  | cpu => cpuTable
  | memory => memoryTable
  | memoryEvents => memoryEventsTable

/-- Stats without a counter. -/
def zero : (file : CounterFile) → file.Stats
  | cpu => ({} : Unified.Cpu)
  | memory => ({} : MemoryCounters)
  | memoryEvents => ({} : Unified.MemoryEvents)

variable (file : CounterFile) {texts others : List String} {content other : Bytes}

/-- All these files are read by one layout, each with its own table. -/
theorem read_eq : file.read = flat.read file.table file.zero := by
  cases file <;> rfl

/-- The table of each file shows the fields of what is read. -/
theorem shown : Shown file.table file.fields fun _ => () := by
  cases file with
  | cpu => exact shown_cpuTable
  | memory => exact shown_memoryTable
  | memoryEvents => exact shown_memoryEventsTable

/-- Before anything is read all fields are zero. -/
theorem fields_zero : ∀ field ∈ file.fields file.zero, field.2 = 0 := by
  cases file <;> decide

/-- **A file is read as some stats iff its lines give each key the number in its field.** -/
theorem read_eq_ok_iff (h : IsFile texts content) {stats : file.Stats} :
    (file.read content).1 = .ok stats ↔
      ∀ field ∈ file.fields stats, Gives (texts.filterMap firstPair?) field := by
  rw [read_eq, Layout.read_eq_foldlM]
  refine (file.shown.foldlM_eq_ok_iff rfl file.fields_zero ?_ (h.map_counter?_items _)).trans ?_
  · exact fun item => Layout.known_of_mem_items
  · exact and_iff_right rfl

/-- A file is refused exactly if there is a key to which its lines give no number. -/
theorem exists_read_eq_error_iff (h : IsFile texts content) :
    (∃ cause, (file.read content).1 = .error cause) ↔
      ∃ key ∈ file.table.keys, ¬∃ n, Gives (texts.filterMap firstPair?) (key, n) := by
  rw [read_eq, Layout.read_eq_foldlM]
  refine Layout.foldlM_eq_error_iff rfl ?_ (h.map_counter?_items _)
  exact fun item => Layout.known_of_mem_items

end CounterFile

/-! ## Moving lines -/

/-- A line without a known counter: it has fewer than two words, or another first word than the
keys. -/
def IsIdle (keys : List String) (text : String) : Prop :=
  (words text.toList).length < 2 ∨
    ∃ word rest, words text.toList = word :: rest ∧ String.ofList word ∉ keys

/-- Lines are those of another file in any order, with any lines between them that have no known
counter. -/
def Rearranges (keys : List String) (texts others : List String) : Prop :=
  ∃ idle, (∀ text ∈ idle, IsIdle keys text) ∧ others.Perm (texts ++ idle)

/-- The first pair of an idle line has a key that the table does not know. -/
theorem IsIdle.notMem_keys {keys : List String} {text : String} (h : IsIdle keys text) {pair : Pair}
    (hpair : firstPair? text = some pair) : String.ofList pair.1 ∉ keys := by
  rw [firstPair?] at hpair
  rcases h with hshort | ⟨word, rest, hwords, hother⟩
  · rcases hwords : words text.toList with - | ⟨key, - | ⟨value, more⟩⟩
      <;> simp [hwords] at hpair hshort
  · rw [hwords] at hpair
    rcases rest with - | ⟨value, rest⟩
    · simp at hpair
    · obtain rfl := Option.some.inj hpair
      exact hother

/-- Lines that are moved have the same values under the known keys, in some order. -/
theorem Rearranges.valuesUnder_perm {keys texts others : List String}
    (h : Rearranges keys texts others) {key : String} (hkey : key ∈ keys) :
    (valuesUnder (others.filterMap firstPair?) key).Perm
      (valuesUnder (texts.filterMap firstPair?) key) := by
  obtain ⟨idle, hidle, hperm⟩ := h
  have hnone : valuesUnder (idle.filterMap firstPair?) key = [] := by
    rw [valuesUnder, List.map_eq_nil_iff, List.filter_eq_nil_iff]
    intro pair hpair heq
    obtain ⟨text, htext, hfirst⟩ := List.mem_filterMap.1 hpair
    exact (hidle text htext).notMem_keys hfirst (of_decide_eq_true heq ▸ hkey)
  have hvalues : (valuesUnder (others.filterMap firstPair?) key).Perm
      (valuesUnder ((texts ++ idle).filterMap firstPair?) key) :=
    ((hperm.filterMap firstPair?).filter _).map _
  rwa [List.filterMap_append, valuesUnder_append, hnone, List.append_nil] at hvalues

/-- Texts in another order are a rearrangement without idle lines. -/
theorem Rearranges.of_perm (keys : List String) {texts others : List String}
    (h : others.Perm texts) :
    Rearranges keys texts others :=
  ⟨[], List.forall_mem_nil _, by rwa [List.append_nil]⟩

namespace CounterFile

variable {file : CounterFile} {texts : List String} {content : Bytes}

/-- **The order of the lines does not matter**, for each of the three files and any lines. If they
are read, then each field is the number on the one line with its key in front and a second word, or
0 if there is none; and any other file is read as the same stats whose lines are these ones in any
order, with lines between them that have no known counter. In whatever order, the lines are refused
iff the second word of one with a known key in front is no number, or two of them have the same. -/
theorem read_rearranged (h : IsFile texts content) :
    (∀ stats, (file.read content).1 = .ok stats →
      (∀ field ∈ file.fields stats, Gives (texts.filterMap firstPair?) field) ∧
      ∀ others other, IsFile others other → Rearranges file.table.keys texts others →
        (file.read other).1 = .ok stats) ∧
    ∀ others other, IsFile others other → others.Perm texts →
      ((∃ cause, (file.read other).1 = .error cause) ↔ ∃ key ∈ file.table.keys,
        (∃ value ∈ valuesUnder (texts.filterMap firstPair?) key, ∀ n, Decimal.parse value ≠ .ok n) ∨
          2 ≤ (valuesUnder (texts.filterMap firstPair?) key).length) := by
  constructor
  · intro stats hstats
    have hgives := (file.read_eq_ok_iff h).1 hstats
    refine ⟨hgives, fun others other hother hmoved =>
      (file.read_eq_ok_iff hother).2 fun field hfield => ?_⟩
    have hkey : field.1 ∈ file.table.keys := by
      rw [← file.shown.keys stats]
      exact List.mem_map_of_mem hfield
    exact (hgives field hfield).of_perm (hmoved.valuesUnder_perm hkey).symm
  · intro others other hother hperm
    rw [file.exists_read_eq_error_iff hother]
    refine exists_congr fun key => and_congr_right fun hkey => ?_
    have hvalues := (Rearranges.of_perm file.table.keys hperm).valuesUnder_perm hkey
    rw [← not_exists_gives_iff]
    exact not_congr (exists_congr fun n => ⟨fun hn => hn.of_perm hvalues,
      fun hn => hn.of_perm hvalues.symm⟩)

/-- Lines of other keys, a key alone on its line and an empty line, which has no newline behind it.
Two lines with one key are refused, whichever comes first. -/
theorem read_rearranged_events :
    let texts := ["low 1", "oom_kill 7 of 9"]
    let others := ["oom_group_kill 2", "oom_kill 7 of 9", "max", "low 1", ""]
    let other := Utf8.encode "oom_group_kill 2\noom_kill 7 of 9\nmax\nlow 1\n"
    IsFile texts (written texts) ∧ IsFile others other ∧
      Rearranges memoryEvents.table.keys texts others ∧
      (memoryEvents.read other).1 = .ok ({ low := 1, oomKill := 7 } : Unified.MemoryEvents) ∧
      ∃ cause, (memoryEvents.read (written ["oom 2", "low 3", "oom 1"])).1 = .error cause := by
  intro texts others other
  have hfile : IsFile texts (written texts) := ⟨by decide, .inl rfl⟩
  have hother : IsFile others other := ⟨by decide, .inr (by decide)⟩
  have hread : (readMemoryEvents (written ["low 1", "oom_kill 7 of 9"])).1 =
      .ok { low := 1, oomKill := 7 } := by
    decide +kernel
  have hidle : ∀ text ∈ ["oom_group_kill 2", "max", ""], IsIdle memoryEvents.table.keys text := by
    rw [List.forall_mem_cons, List.forall_mem_cons, List.forall_mem_singleton]
    exact ⟨.inr ⟨"oom_group_kill".toList, [['2']], by decide, by decide⟩, .inl (by decide),
      .inl (by decide)⟩
  have hmoved : Rearranges memoryEvents.table.keys texts others :=
    ⟨["oom_group_kill 2", "max", ""], hidle, by decide⟩
  have htwice : IsFile ["oom 1", "low 3", "oom 2"] (written ["oom 1", "low 3", "oom 2"]) :=
    ⟨by decide, .inl rfl⟩
  have htwice' : IsFile ["oom 2", "low 3", "oom 1"] (written ["oom 2", "low 3", "oom 1"]) :=
    ⟨by decide, .inl rfl⟩
  refine ⟨hfile, hother, hmoved, ?_, ?_⟩
  · exact ((@read_rearranged memoryEvents _ _ hfile).1 _ hread).2 others other hother hmoved
  · rw [(read_rearranged htwice).2 _ _ htwice' (by decide)]
    exact ⟨"oom", by decide, .inr (by decide)⟩

end CounterFile

end ContainerUsage.Stat
