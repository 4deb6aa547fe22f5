import Mathlib
import ContainerUsage.Proofs.Stat.KernelFormat
import ContainerUsage.Proofs.Stat.Values

/-!
# The lines of `io.stat`

`io.stat` is read line by line, and a line is read without a view of the others. `Says line entry`
is what a line by itself says: nothing, if it is blank, or one device, with the numbers in its first
word and the counters in the other words.

* `parseDeviceLine_eq_ok_iff` is the reading of a line in these terms. The number of the line only
  shows in errors (`parseDeviceLine_later`).
* `foldLines_addDevice_eq_ok_iff` and `foldLines_addDevice_eq_error` go through the lines: what is
  read is what they say, one after the other, and an error comes from the first line that says
  nothing that can be read.
* `readIo_eq_ok_iff` and `readIo_eq_error` are this for a file. `readIo_lineByLine` adds that a file
  can be cut between any two of its lines: the devices of the second part follow those of the first,
  and its errors count the lines of both.
-/

namespace ContainerUsage.Stat

open Payload Text

/-! ## Line numbers in errors -/

/-- The line that a reason names. -/
def StatError.line? : StatError → Option Nat
  | .duplicateField _ line => some line
  | .invalidKeyValue _ _ line _ => some line
  | .invalidValue _ line _ => some line
  | .invalidDevice _ line => some line
  | .io _ => none

/-- The same reason some lines later. -/
def StatError.later (k : Nat) : StatError → StatError
  | .duplicateField field line => .duplicateField field (line + k)
  | .invalidKeyValue key value line cause => .invalidKeyValue key value (line + k) cause
  | .invalidValue value line cause => .invalidValue value (line + k) cause
  | .invalidDevice value line => .invalidDevice value (line + k)
  | .io cause => .io cause

/-- The line that a failure to read names, if it names one. -/
def ReadError.line? : ReadError → Option Nat
  | .io _ => none
  | .malformed reason => reason.line?

/-- The same failure some lines later. -/
def ReadError.later (k : Nat) : ReadError → ReadError
  | .io cause => .io cause
  | .malformed reason => .malformed (reason.later k)

/-- A reason is put at a later line before or after it is taken for a cause. -/
theorem StatError.toReadError_later (k : Nat) (reason : StatError) :
    (reason.later k).toReadError = reason.toReadError.later k := by
  cases reason <;> rfl

/-- A cause tells the line of its reason. -/
theorem StatError.line?_toReadError (reason : StatError) :
    reason.toReadError.line? = reason.line? := by
  cases reason <;> rfl

namespace Layout

variable {σ : Type} (l : Layout) (table : Table σ) {line number : Nat} {state : State σ}

/-- A pair on a later line is read in the same way, and a refusal names the later line. -/
theorem apply_later (k : Nat) (pair : Pair) : l.apply table (line + k) state pair =
    (l.apply table line state pair).mapError (·.later k) := by
  unfold apply
  dsimp only
  split
  · rfl
  · split
    · rfl
    · split <;> rfl

/-- Reading the pairs of a line some lines later gives the same, or the same reason there. -/
theorem applyAll_later (k : Nat) (pairs : List Pair) : l.applyAll table (line + k) state pairs =
    (l.applyAll table line state pairs).mapError (·.later k) := by
  induction pairs generalizing state with
  | nil => rfl
  | cons pair pairs ih =>
    rw [applyAll, applyAll, apply_later]
    cases l.apply table line state pair with
    | error reason => rfl
    | ok next => exact ih

/-- A reason to refuse a pair names its line. -/
theorem line?_of_apply {pair : Pair} {reason : StatError}
    (h : l.apply table line state pair = .error reason) : reason.line? = some line := by
  unfold apply at h
  dsimp only at h
  split at h
  · simp at h
  · split at h
    · obtain rfl := Except.error.inj h
      rfl
    · split at h
      · obtain rfl := Except.error.inj h
        rfl
      · simp at h

/-- The refusal of a pair names the line of the pair. -/
theorem line?_of_applyAll {pairs : List Pair} {reason : StatError}
    (h : l.applyAll table line state pairs = .error reason) : reason.line? = some line := by
  induction pairs generalizing state with
  | nil => cases h
  | cons pair pairs ih =>
    rw [applyAll] at h
    cases happly : l.apply table line state pair with
    | error other =>
      rw [happly] at h
      obtain rfl := Except.error.inj h
      exact l.line?_of_apply table happly
    | ok next =>
      rw [happly] at h
      exact ih h

end Layout

/-! ## One line -/

/-- The table of a device shows its counters, and leaves the numbers of the device alone. -/
theorem shown_deviceTable :
    Shown deviceTable deviceCounters fun device => (device.major, device.minor) := by
  refine ⟨fun _ => rfl, ?_, ?_, fun v w hnumbers h => ?_⟩
  · simp [deviceTable, deviceCounters]
  · simp [deviceTable]
  · cases v
    cases w
    simp_all [deviceCounters]

/-- What a line of `io.stat` says: nothing if it is blank, or one device. Its first word has the two
numbers with a colon between them, and the others have the counters. -/
inductive Says (line : Bytes) : Option Unified.Device → Prop
  | blank {text : String} (htext : Utf8.decode? line = some text)
    (hwords : words text.toList = []) :
      Says line none
  | device {text : String} {major minor : List Char} {entries : List (List Char)}
    {device : Unified.Device}
      (htext : Utf8.decode? line = some text)
      (hwords : words text.toList = (major ++ ':' :: minor) :: entries) (hcolon : ':' ∉ major)
      (hmajor : Decimal.parse major = .ok device.major)
      (hminor : Decimal.parse minor = .ok device.minor)
      (hfields : ∀ field ∈ deviceCounters device, Gives (entries.filterMap (cutOnce '=')) field) :
      Says line (some device)

/-- The numbers of a device stand before and after the first colon. -/
theorem parseDevice_eq_some_iff {word : List Char} {numbers : UInt64 × UInt64} :
    parseDevice word = some numbers ↔ ∃ major minor, word = major ++ ':' :: minor ∧ ':' ∉ major ∧
      Decimal.parse major = .ok numbers.1 ∧ Decimal.parse minor = .ok numbers.2 := by
  obtain ⟨n, m⟩ := numbers
  rw [parseDevice]
  constructor
  · intro h
    split at h
    · simp at h
    · next major minor hcut =>
      obtain ⟨rfl, hcolon⟩ := cutOnce_eq_some_iff.1 hcut
      split at h
      · next hmajor hminor =>
        obtain ⟨rfl, rfl⟩ := Prod.mk.inj (Option.some.inj h)
        exact ⟨major, minor, rfl, hcolon, hmajor, hminor⟩
      · simp at h
  · rintro ⟨major, minor, rfl, hcolon, hmajor, hminor⟩
    rw [cutOnce_eq_some_iff.2 ⟨rfl, hcolon⟩]
    dsimp only at hmajor hminor ⊢
    rw [hmajor, hminor]

/-- The words after the first one are read as the counters of the device. -/
theorem readLine_deviceTable_eq_ok_iff {text word : List Char} {entries : List (List Char)}
    (hwords : words text = word :: entries) (major minor : UInt64) (number : Nat)
    {device : Unified.Device} :
    (deviceLayout.readLine deviceTable ⟨{ major, minor }, []⟩ number text).map Layout.State.value =
        .ok device ↔
      (device.major, device.minor) = (major, minor) ∧
        ∀ field ∈ deviceCounters device, Gives (entries.filterMap (cutOnce '=')) field := by
  have hpairs : deviceLayout.pairs text = entries.filterMap (cutOnce '=') := by
    rw [Layout.pairs, hwords]
    rfl
  rw [Layout.readLine_eq_applyAll, hpairs]
  exact shown_deviceTable.applyAll_eq_ok_iff rfl (by simp [deviceCounters]) number _

/-- **A line is read as what it says.** -/
theorem parseDeviceLine_eq_ok_iff {line : Bytes} {text : String}
    (htext : Utf8.decode? line = some text) (number : Nat) {entry : Option Unified.Device} :
    parseDeviceLine number text.toList = .ok entry ↔ Says line entry := by
  constructor
  · intro h
    rw [parseDeviceLine] at h
    split at h
    · next hwords =>
      obtain rfl := Except.ok.inj h
      exact .blank htext hwords
    · next word entries hwords =>
      split at h
      · simp at h
      · next n m hdevice =>
        cases hline : deviceLayout.readLine deviceTable ⟨{ major := n, minor := m }, []⟩ number
          text.toList with
        | error reason =>
          rw [hline] at h
          cases h
        | ok state =>
          rw [hline] at h
          obtain rfl := Except.ok.inj h
          obtain ⟨hnumbers, hfields⟩ :=
            (readLine_deviceTable_eq_ok_iff hwords n m number).1 (by rw [hline]; rfl)
          obtain ⟨rfl, rfl⟩ := Prod.mk.inj hnumbers
          obtain ⟨major, minor, rfl, hcolon, hmajor, hminor⟩ := parseDevice_eq_some_iff.1 hdevice
          exact .device htext hwords hcolon hmajor hminor hfields
  · intro h
    cases h with
    | blank htext' hwords =>
      obtain rfl := Option.some.inj (htext.symm.trans htext')
      rw [parseDeviceLine, hwords]
    | @device _ major minor entries device htext' hwords hcolon hmajor hminor hfields =>
      obtain rfl := Option.some.inj (htext.symm.trans htext')
      have hdevice : parseDevice (major ++ ':' :: minor) = some (device.major, device.minor) :=
        parseDevice_eq_some_iff.2 ⟨major, minor, rfl, hcolon, hmajor, hminor⟩
      have hread :=
        (readLine_deviceTable_eq_ok_iff hwords device.major device.minor number).2 ⟨rfl, hfields⟩
      rw [parseDeviceLine, hwords]
      dsimp only
      rw [hdevice]
      dsimp only
      cases hline : deviceLayout.readLine deviceTable _ number text.toList with
      | error reason =>
        rw [hline] at hread
        cases hread
      | ok state =>
        rw [hline] at hread
        exact congrArg (fun device => Except.ok (some device)) (Except.ok.inj hread)

/-- A line is read in the same way wherever it stands, but for the number in a refusal. -/
theorem parseDeviceLine_later (number k : Nat) (text : List Char) :
    parseDeviceLine (number + k) text = (parseDeviceLine number text).mapError (·.later k) := by
  unfold parseDeviceLine
  split
  · rfl
  · split
    · rfl
    · rw [Layout.readLine_eq_applyAll, Layout.readLine_eq_applyAll, Layout.applyAll_later]
      cases deviceLayout.applyAll deviceTable number _ _ <;> rfl

/-- The refusal of a line names this line. -/
theorem line?_of_parseDeviceLine {number : Nat} {text : List Char} {reason : StatError}
    (h : parseDeviceLine number text = .error reason) : reason.line? = some number := by
  unfold parseDeviceLine at h
  split at h
  · simp at h
  · split at h
    · obtain rfl := Except.error.inj h
      rfl
    · rw [Layout.readLine_eq_applyAll] at h
      cases happly : deviceLayout.applyAll deviceTable number _ _ with
      | error other =>
        rw [happly] at h
        obtain rfl := Except.error.inj h
        exact Layout.line?_of_applyAll _ _ happly
      | ok state =>
        rw [happly] at h
        cases h

/-- A line says one thing at most. -/
theorem Says.unique {line : Bytes} {entry other : Option Unified.Device} (h : Says line entry)
    (hother : Says line other) : entry = other := by
  obtain ⟨text, htext⟩ : ∃ text, Utf8.decode? line = some text := by
    cases h <;> exact ⟨_, ‹_›⟩
  have hentry := (parseDeviceLine_eq_ok_iff htext 0).2 h
  rw [(parseDeviceLine_eq_ok_iff htext 0).2 hother] at hentry
  exact (Except.ok.inj hentry).symm

/-! ## All lines -/

/-- Reads one more line after some devices. -/
def addDevice (devices : List Unified.Device) (number : Nat) (text : List Char) :
    Except StatError (List Unified.Device) :=
  (parseDeviceLine number text).map fun device => devices ++ device.toList

/-- The io file is read line by line. -/
theorem readIo_eq (content : Bytes) :
    (readIo content).1 = (foldLines addDevice [] 1 (lines content)).1.map Unified.Io.mk := rfl

/-- A run over lines some lines later gives the same, or the same failure there. -/
theorem foldLines_later {σ : Type} {step : σ → Nat → List Char → Except StatError σ} {k : Nat}
    (hstep : ∀ state number text, step state (number + k) text =
      (step state number text).mapError (·.later k))
    (state : σ) (number : Nat) (ls : List Bytes) :
    (foldLines step state (number + k) ls).1 =
      (foldLines step state number ls).1.mapError (·.later k) := by
  induction ls generalizing state number with
  | nil => rfl
  | cons line ls ih =>
    rw [foldLines, foldLines, lineText]
    cases Utf8.decode? line with
    | none => rfl
    | some text =>
      dsimp only
      rw [hstep]
      cases step state number text.toList with
      | error reason => exact congrArg Except.error (StatError.toReadError_later k reason)
      | ok next =>
        show (foldLines step next (number + k + 1) ls).1 =
          (foldLines step next (number + 1) ls).1.mapError _
        rw [Nat.add_right_comm]
        exact ih next (number + 1)

/-- The devices before a run stay in front of those that it adds. -/
theorem foldLines_addDevice_append (before devices : List Unified.Device) (number : Nat)
    (ls : List Bytes) :
    (foldLines addDevice (before ++ devices) number ls).1 =
      (foldLines addDevice devices number ls).1.map (before ++ ·) := by
  induction ls generalizing devices number with
  | nil => rfl
  | cons line ls ih =>
    rw [foldLines, foldLines, lineText]
    cases Utf8.decode? line with
    | none => rfl
    | some text =>
      dsimp only
      rw [addDevice, addDevice]
      cases parseDeviceLine number text.toList with
      | error reason => rfl
      | ok entry =>
        show (foldLines addDevice (before ++ devices ++ entry.toList) (number + 1) ls).1 = _
        rw [List.append_assoc]
        exact ih (devices ++ entry.toList) (number + 1)

/-- What happens at a line: the run goes on with what it says, or fails there if it says nothing. -/
theorem foldLines_addDevice_cons (before : List Unified.Device) (number : Nat) (line : Bytes)
    (ls : List Bytes) :
    (∃ entry, Says line entry ∧ (foldLines addDevice before number (line :: ls)).1 =
        (foldLines addDevice (before ++ entry.toList) (number + 1) ls).1) ∨
      (∀ entry, ¬Says line entry) ∧ ∃ cause,
        (foldLines addDevice before number (line :: ls)).1 = .error cause ∧
          ∀ n, cause.line? = some n → n = number := by
  rw [foldLines, lineText]
  cases htext : Utf8.decode? line with
  | none =>
    refine .inr ⟨fun entry hsays => ?_, _, rfl, fun n hn => by cases hn⟩
    cases hsays <;> simp_all
  | some text =>
    dsimp only
    rw [addDevice]
    cases hline : parseDeviceLine number text.toList with
    | error reason =>
      refine .inr ⟨fun entry hsays => ?_, _, rfl, fun n hn => ?_⟩
      · rw [(parseDeviceLine_eq_ok_iff htext number).2 hsays] at hline
        cases hline
      · rw [StatError.line?_toReadError, line?_of_parseDeviceLine hline] at hn
        exact (Option.some.inj hn).symm
    | ok entry => exact .inl ⟨entry, (parseDeviceLine_eq_ok_iff htext number).1 hline, rfl⟩

/-- **Lines are read as what they say**, one after the other. -/
theorem foldLines_addDevice_eq_ok_iff {before devices : List Unified.Device} {number : Nat}
    {ls : List Bytes} :
    (foldLines addDevice before number ls).1 = .ok devices ↔
      ∃ entries, List.Forall₂ Says ls entries ∧ devices = before ++ entries.reduceOption := by
  induction ls generalizing before number with
  | nil =>
    simp only [foldLines, List.forall₂_nil_left_iff, exists_eq_left, List.reduceOption_nil,
      List.append_nil, Except.ok.injEq, eq_comm]
  | cons line ls ih =>
    simp only [List.forall₂_cons_left_iff]
    rcases foldLines_addDevice_cons before number line ls with
      ⟨entry, hsays, hrun⟩ | ⟨hsilent, cause, hrun, -⟩
    · rw [hrun, ih]
      have hfront : ∀ entries : List (Option Unified.Device),
          (entry :: entries).reduceOption = entry.toList ++ entries.reduceOption := by
        intro entries
        cases entry <;> rfl
      constructor
      · rintro ⟨entries, hentries, rfl⟩
        exact ⟨entry :: entries, ⟨entry, entries, hsays, hentries, rfl⟩, by
          rw [hfront, List.append_assoc]⟩
      · rintro ⟨_, ⟨other, entries, hother, hentries, rfl⟩, rfl⟩
        obtain rfl := hsays.unique hother
        exact ⟨entries, hentries, by rw [hfront, List.append_assoc]⟩
    · rw [hrun]
      refine iff_of_false (fun h => by cases h) ?_
      rintro ⟨_, ⟨entry, entries, hsays, -, rfl⟩, -⟩
      exact hsilent entry hsays

/-- **A failure comes from the first line that says nothing that can be read**, and counts the lines
before it. -/
theorem foldLines_addDevice_eq_error {before : List Unified.Device} {number : Nat} {ls : List Bytes}
    {cause : ReadError} (h : (foldLines addDevice before number ls).1 = .error cause) :
    ∃ earlier line later entries, ls = earlier ++ line :: later ∧
      List.Forall₂ Says earlier entries ∧
      (∀ entry, ¬Says line entry) ∧ ∀ n, cause.line? = some n → n = number + earlier.length := by
  induction ls generalizing before number with
  | nil => cases h
  | cons line ls ih =>
    rcases foldLines_addDevice_cons before number line ls with
      ⟨entry, hsays, hrun⟩ | ⟨hsilent, other, hrun, hnumber⟩
    · rw [hrun] at h
      obtain ⟨earlier, bad, later, entries, rfl, hearlier, hbad, hnumber⟩ := ih h
      refine ⟨line :: earlier, bad, later, entry :: entries, rfl, .cons hsays hearlier, hbad,
        fun n hn => ?_⟩
      rw [hnumber n hn, List.length_cons, Nat.add_right_comm, Nat.add_assoc]
    · obtain rfl := Except.error.inj (hrun.symm.trans h)
      exact ⟨[], line, ls, [], rfl, .nil, hsilent, hnumber⟩

/-! ## A file -/

/-- Reading the io file gives the devices that going through its lines gives. -/
theorem readIo_eq_ok_iff_foldLines {content : Bytes} {devices : List Unified.Device} :
    (readIo content).1 = .ok ⟨devices⟩ ↔
      (foldLines addDevice [] 1 (lines content)).1 = .ok devices := by
  rw [readIo_eq]
  cases (foldLines addDevice [] 1 (lines content)).1 with
  | error cause => exact iff_of_false (fun h => by cases h) fun h => by cases h
  | ok read =>
    constructor
    · intro h
      rw [(Unified.Io.mk.inj (Except.ok.inj h) : read = devices)]
    · intro h
      rw [Except.ok.inj h]
      rfl

/-- Reading the io file fails for the cause for which going through its lines fails. -/
theorem readIo_eq_error_iff_foldLines {content : Bytes} {cause : ReadError} :
    (readIo content).1 = .error cause ↔
      (foldLines addDevice [] 1 (lines content)).1 = .error cause := by
  rw [readIo_eq]
  cases (foldLines addDevice [] 1 (lines content)).1 with
  | error other =>
    exact ⟨fun h => congrArg _ (Except.error.inj h), fun h => congrArg _ (Except.error.inj h)⟩
  | ok read => exact iff_of_false (fun h => by cases h) fun h => by cases h

/-- A file is read as what its lines say. -/
theorem readIo_eq_ok_iff {content : Bytes} {devices : List Unified.Device} :
    (readIo content).1 = .ok ⟨devices⟩ ↔
      ∃ entries, List.Forall₂ Says (lines content) entries ∧ devices = entries.reduceOption := by
  rw [readIo_eq_ok_iff_foldLines, foldLines_addDevice_eq_ok_iff]
  rfl

/-- A file is refused at the first line that says nothing that can be read. -/
theorem readIo_eq_error {content : Bytes} {cause : ReadError}
    (h : (readIo content).1 = .error cause) :
    ∃ earlier line later entries, lines content = earlier ++ line :: later ∧
      List.Forall₂ Says earlier entries ∧ (∀ entry, ¬Says line entry) ∧
      ∀ n, cause.line? = some n → n = earlier.length + 1 := by
  obtain ⟨earlier, line, later, entries, hlines, hearlier, hline, hnumber⟩ :=
    foldLines_addDevice_eq_error (readIo_eq_error_iff_foldLines.1 h)
  exact ⟨earlier, line, later, entries, hlines, hearlier, hline, fun n hn =>
    (hnumber n hn).trans (Nat.add_comm _ _)⟩

/-! ## Two parts of a file -/

/-- Lines behind others are read from the state after these, and with the numbers that follow. -/
theorem fst_foldLines_append {σ : Type} (step : σ → Nat → List Char → Except StatError σ)
    (state : σ)
    (number : Nat) (first second : List Bytes) : (foldLines step state number (first ++ second)).1 =
      (foldLines step state number first).1.bind fun state =>
        (foldLines step state (number + first.length) second).1 := by
  rw [foldLines_append]
  rcases foldLines step state number first with ⟨_ | _, _⟩ <;> rfl

/-- A line some lines later adds the same device, or fails for the same reason there. -/
theorem addDevice_later (devices : List Unified.Device) (number k : Nat) (text : List Char) :
    addDevice devices (number + k) text = (addDevice devices number text).mapError (·.later k) := by
  rw [addDevice, addDevice, parseDeviceLine_later]
  cases parseDeviceLine number text <;> rfl

/-- Lines behind other ones add to the devices before them what they give by themselves, or fail for
the same reason at a later line. -/
theorem foldLines_addDevice_behind (devices : List Unified.Device) (k : Nat) (ls : List Bytes) :
    (foldLines addDevice devices (1 + k) ls).1 =
      ((foldLines addDevice [] 1 ls).1.map (devices ++ ·)).mapError (·.later k) := by
  have hbefore := foldLines_addDevice_append devices [] (1 + k) ls
  have hlater :=
    foldLines_later (fun devices number text => addDevice_later devices number k text) [] 1 ls
  rw [List.append_nil] at hbefore
  rw [hbefore, hlater]
  cases (foldLines addDevice [] 1 ls).1 <;> rfl

/-- A file that goes on after some lines that were read gives the devices of these, and then those
of the lines after them. -/
theorem readIo_append_of_eq_ok {first : Bytes} (h : EndsLine first) (second : Bytes)
    {io : Unified.Io} (hfirst : (readIo first).1 = .ok io) : (readIo (first ++ second)).1 =
      ((readIo second).1.map fun more => ⟨io.usage ++ more.usage⟩).mapError
        (·.later (lines first).length) := by
  rw [readIo_eq, lines_append h, fst_foldLines_append,
    readIo_eq_ok_iff_foldLines.1 hfirst, Except.bind, foldLines_addDevice_behind, readIo_eq]
  cases (foldLines addDevice [] 1 (lines second)).1 <;> rfl

/-- A file that goes on after some lines that are refused is refused for them. -/
theorem readIo_append_of_eq_error {first : Bytes} (h : EndsLine first) (second : Bytes)
    {cause : ReadError}
    (hfirst : (readIo first).1 = .error cause) : (readIo (first ++ second)).1 = .error cause := by
  rw [readIo_eq, lines_append h, fst_foldLines_append, readIo_eq_error_iff_foldLines.1 hfirst]
  rfl

/-- **`io.stat` is read line by line**, whatever bytes it holds. Where a file goes on after some
lines, the devices of the second part follow those of the first; a failure of the first part is the
failure of both, and one of the second counts the lines of both. A file is read as the devices that
its lines say, each by itself, and a line that is blank says none; a failure comes from the first
line that says nothing that can be read, and if it names a line then this one, counted among all
lines. -/
theorem readIo_lineByLine {first : Bytes} (h : EndsLine first) (second content : Bytes) :
    ((∀ io, (readIo first).1 = .ok io → (readIo (first ++ second)).1 =
        ((readIo second).1.map fun more => ⟨io.usage ++ more.usage⟩).mapError
          (·.later (lines first).length)) ∧
      ∀ cause, (readIo first).1 = .error cause → (readIo (first ++ second)).1 = .error cause) ∧
    (∀ devices, (readIo content).1 = .ok ⟨devices⟩ ↔
      ∃ entries, List.Forall₂ Says (lines content) entries ∧ devices = entries.reduceOption) ∧
    ∀ cause, (readIo content).1 = .error cause → ∃ earlier line later entries,
      lines content = earlier ++ line :: later ∧ List.Forall₂ Says earlier entries ∧
        (∀ entry, ¬Says line entry) ∧ ∀ n, cause.line? = some n → n = earlier.length + 1 := by
  exact ⟨⟨fun io => readIo_append_of_eq_ok h second,
    fun cause => readIo_append_of_eq_error h second⟩,
    fun devices => readIo_eq_ok_iff, fun cause => readIo_eq_error⟩

/-- A device, a blank line, and then a device with a counter that is no number: that one is refused
at line 3. -/
theorem readIo_lineByLine_blank :
    EndsLine (written ["8:0 rbytes=1", " "]) ∧
      (readIo (written ["8:0 rbytes=1", " "] ++ written ["254:1 wbytes=x"])).1 =
        .error (.malformed (.invalidKeyValue "wbytes" "x" 3 .invalidDigit)) := by
  have h := endsLine_written ["8:0 rbytes=1", " "]
  refine ⟨h, ?_⟩
  have hfirst : (readIo (written ["8:0 rbytes=1", " "])).1 =
      .ok ⟨[{ major := 8, minor := 0, rbytes := 1 }]⟩ := by
    decide +kernel
  have hsecond : (readIo (written ["254:1 wbytes=x"])).1 =
      .error (.malformed (.invalidKeyValue "wbytes" "x" 1 .invalidDigit)) := by
    decide +kernel
  rw [(readIo_lineByLine h (written ["254:1 wbytes=x"]) []).1.1 _ hfirst, hsecond]
  decide +kernel

end ContainerUsage.Stat
