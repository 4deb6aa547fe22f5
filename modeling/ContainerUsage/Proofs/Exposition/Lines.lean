import Mathlib
import ContainerUsage.Collector.Exposition
import ContainerUsage.Proofs.Metric.Identifier
import ContainerUsage.Proofs.Stat.Lines

/-!
# Reading the text of a scrape

The text of a scrape can be read again, line by line. A `Line` is what stands on a line, `read`
reads the lines of a text, and they are those that were written (`read_print`), whatever characters
the values of their labels are made of.

* `readText_append` undoes the escaping: inside quotes a text ends at the first quote that is not
  escaped.
* `readLabels_append` goes through the labels of a sample, by induction over them. A label starts
  where the one before it has ended, so commas and braces in values are none of its business.
* `Line.read_print` is a line of any of the three kinds, and `Line.isLine_print` says that it is one
  line.
* `read_print` puts the lines together, and `print_injOn` is what follows: no two lists of lines
  have the same text.

Names of metrics and labels are not escaped. They need not be, as they have no other characters than
letters, digits, underscores and colons (`Line.Proper`).
-/

namespace ContainerUsage.Exposition

open Text
open Stat (IsLine isLine_append isLine_intercalate)

/-! ## Names -/

/-- A metric name is not empty. -/
theorem ne_nil_of_isMetricName {name : String} (h : isMetricName name = true) : name.toList ≠ [] :=
  fun hnil => (isMetricName_iff.1 h).1 (String.toList_eq_nil_iff.1 hnil)

/-- The characters of the name of a metric. -/
theorem isMetricChar_of_mem {name : String} (h : isMetricName name = true) :
    ∀ c ∈ name.toList, (isLabelChar c || c = ':') = true := by
  intro c hc
  have hchar := (isMetricName_iff.1 h).2.chars c hc
  simp only [Char.isAlphanum, Bool.or_eq_true, List.mem_cons, List.not_mem_nil, or_false] at hchar
  simp only [isLabelChar, isLabelStart, Bool.or_eq_true, decide_eq_true_eq]
  tauto

/-- The characters of the name of a label. -/
theorem isLabelChar_of_mem {name : String} (h : isLabelName name = true) :
    ∀ c ∈ name.toList, isLabelChar c = true := by
  intro c hc
  have hchar := (isLabelName_iff.1 h).2.chars c hc
  simp only [Char.isAlphanum, Bool.or_eq_true, List.mem_singleton] at hchar
  simp only [isLabelChar, isLabelStart, Bool.or_eq_true, decide_eq_true_eq]
  tauto

/-! ## Texts -/

/-- The character that is written as a backslash and another character. -/
def unescape? (c : Char) : Option Char :=
  if c = '\\' then some '\\' else if c = 'n' then some '\n' else if c = '"' then some '"' else none

/-- Reads a text: inside quotes up to the closing one, and else up to the end of the line. -/
def readText (quoted : Bool) : List Char → Option (List Char × List Char)
  | [] => if quoted then none else some ([], [])
  | c :: rest =>
    if quoted && c = '"' then some ([], rest)
    else if c = '\\' then
      match rest with
      | [] => none
      | escaped :: rest =>
        (unescape? escaped).bind fun c => (readText quoted rest).map fun read =>
          (c :: read.1, read.2)
    else (readText quoted rest).map fun read => (c :: read.1, read.2)

/-- What is left after a text is no longer than what there was. -/
theorem length_of_readText {quoted : Bool} {s : List Char} {read : List Char × List Char}
    (h : readText quoted s = some read) : read.2.length ≤ s.length := by
  induction s using readText.induct quoted generalizing read with
  | case1 hquoted => simp [readText, hquoted] at h
  | case2 hquoted =>
    obtain rfl : ([], []) = read := by simpa [readText, hquoted] using h
    exact le_rfl
  | case3 c rest hclose =>
    rw [readText.eq_def] at h
    simp only [hclose, if_true, Option.some.injEq] at h
    simp [← h]
  | case4 hclose => simp [readText] at h
  | case5 escaped rest hclose ih =>
    rw [readText.eq_def] at h
    obtain ⟨c, -, text, left, hread, rfl⟩ : ∃ c, unescape? escaped = some c ∧ ∃ text left,
        readText quoted rest = some (text, left) ∧ (c :: text, left) = read := by
      simpa [hclose, Option.bind_eq_some_iff] using h
    exact (ih hread).trans (by simp; omega)
  | case6 c rest hclose hbackslash ih =>
    rw [readText.eq_def] at h
    obtain ⟨text, left, hread, rfl⟩ : ∃ text left,
        readText quoted rest = some (text, left) ∧ (c :: text, left) = read := by
      simpa [hclose, hbackslash] using h
    exact (ih hread).trans (by simp)

/-- **A text is read as it was before it was escaped.** -/
theorem readText_append {quoted : Bool} {tail rest : List Char}
    (htail : readText quoted tail = some ([], rest)) (text : List Char) :
    readText quoted (text.flatMap (escapeChar quoted) ++ tail) = some (text, rest) := by
  induction text with
  | nil => exact htail
  | cons c text ih =>
    rw [List.flatMap_cons, List.append_assoc]
    by_cases hbackslash : c = '\\'
    · subst hbackslash
      simp [escapeChar, readText, unescape?, ih]
    · by_cases hnewline : c = '\n'
      · subst hnewline
        simp [escapeChar, readText, unescape?, ih]
      · by_cases hquote : quoted = true ∧ c = '"'
        · obtain ⟨rfl, rfl⟩ := hquote
          simp [escapeChar, readText, unescape?, ih]
        · have hquote : (quoted && decide (c = '"')) = false := by simpa using hquote
          rw [escapeChar, if_neg hbackslash, if_neg hnewline, hquote, if_neg Bool.false_ne_true,
            List.singleton_append, readText.eq_def]
          dsimp only
          rw [hquote, if_neg Bool.false_ne_true, if_neg hbackslash, ih]
          rfl

/-! ## Labels -/

/-- Reads a label. -/
def readLabel (s : List Char) : Option (Label × List Char) :=
  match cutOnce '=' s with
  | some (name, '"' :: rest) =>
    (readText true rest).map fun value => ((String.ofList name, String.ofList value.1), value.2)
  | _ => none

/-- Reading a label takes at least one character, so that reading labels ends. -/
theorem length_of_readLabel {s : List Char} {read : Label × List Char}
    (h : readLabel s = some read) :
    read.2.length < s.length := by
  unfold readLabel at h
  split at h
  · next name rest hcut =>
    obtain ⟨value, hvalue, rfl⟩ := Option.map_eq_some_iff.1 h
    obtain ⟨rfl, -⟩ := cutOnce_eq_some_iff.1 hcut
    have hlength := length_of_readText hvalue
    simp
    omega
  · simp at h

/-- Reads labels with commas between them, up to the closing brace. -/
def readLabels (s : List Char) : Option (List Label × List Char) :=
  match _h : readLabel s with
  | none => none
  | some first =>
    if first.2.head? = some ',' then
      (readLabels first.2.tail).map fun more => (first.1 :: more.1, more.2)
    else if first.2.head? = some '}' then some ([first.1], first.2.tail)
    else none
termination_by s.length
decreasing_by
  have hlength := length_of_readLabel _h
  rw [List.length_tail]
  omega

/-- After a label there is a comma and another one, or the closing brace. -/
theorem readLabels_of_readLabel {s : List Char} {first : Label × List Char}
    (h : readLabel s = some first) :
    readLabels s = if first.2.head? = some ',' then
        (readLabels first.2.tail).map fun more => (first.1 :: more.1, more.2)
      else if first.2.head? = some '}' then some ([first.1], first.2.tail)
      else none := by
  rw [readLabels]
  split
  · next hnone => simp [h] at hnone
  · next found hfound =>
    obtain rfl := Option.some.inj (h.symm.trans hfound)
    rfl

/-- A label is read, with anything behind it. -/
theorem readLabel_append {l : Label} (h : isLabelName l.1 = true) (rest : List Char) :
    readLabel ((label l).toList ++ rest) = some (l, rest) := by
  have hname : '=' ∉ l.1.toList := by
    intro hmem
    exact absurd (isLabelChar_of_mem h _ hmem) (by decide)
  have hcut : cutOnce '=' ((label l).toList ++ rest) =
      some (l.1.toList, '"' :: (l.2.toList.flatMap (escapeChar true) ++ '"' :: rest)) := by
    refine cutOnce_eq_some_iff.2 ⟨?_, hname⟩
    simp [label, escape]
  have htail : readText true ('"' :: rest) = some ([], rest) := by
    rw [readText.eq_def]
    rfl
  simp [readLabel, hcut, readText_append htail]

/-- **Labels are read**, with anything behind the brace that closes them. -/
theorem readLabels_append {ls : List Label} (hne : ls ≠ []) (h : ∀ l ∈ ls, isLabelName l.1 = true)
    (rest : List Char) :
    readLabels ((",".intercalate (ls.map label)).toList ++ '}' :: rest) = some (ls, rest) := by
  induction ls with
  | nil => exact absurd rfl hne
  | cons l ls ih =>
    obtain ⟨hl, hls⟩ := List.forall_mem_cons.1 h
    cases ls with
    | nil =>
      have hread := readLabel_append hl ('}' :: rest)
      rw [List.map_singleton, String.intercalate_singleton, readLabels_of_readLabel hread]
      rfl
    | cons next ls =>
      have hread := readLabel_append hl
        (',' :: ((",".intercalate ((next :: ls).map label)).toList ++ '}' :: rest))
      have htext : (",".intercalate ((l :: next :: ls).map label)).toList ++ '}' :: rest =
          (label l).toList ++
            (',' :: ((",".intercalate ((next :: ls).map label)).toList ++ '}' :: rest)) := by
        rw [List.map_cons, List.map_cons, String.intercalate_cons_cons]
        simp
      rw [htext, readLabels_of_readLabel hread, List.head?_cons, if_pos rfl, List.tail_cons,
        ih (List.cons_ne_nil _ _) hls]
      rfl

/-! ## Lines -/

/-- What stands on a line. -/
inductive Line where
  | help (name text : String)
  | type (name kind : String)
  | sample (name : String) (labels : List Label) (value : String)
  deriving DecidableEq

namespace Line

/-- The text of a line, without the newline that ends it. -/
def print : Line → String
  | .help name text => "# HELP " ++ name ++ " " ++ escape false text
  | .type name kind => "# TYPE " ++ name ++ " " ++ kind
  | .sample name ls value => name ++ labels ls ++ " " ++ value

/-- Names can be names, and what is not escaped stays on the line. -/
inductive Proper : Line → Prop where
  | help {name text : String} (h : isMetricName name = true) : Proper (.help name text)
  | type {name kind : String} (h : isMetricName name = true) (hkind : IsLine kind) :
      Proper (.type name kind)
  | sample {name : String} {ls : List Label} {value : String} (h : isMetricName name = true)
      (hlabels : ∀ l ∈ ls, isLabelName l.1 = true) (hvalue : IsLine value) :
      Proper (.sample name ls value)

/-- Whether the name of a sample goes on. -/
def goesOn (c : Char) : Bool := c ≠ '\x7b' && c ≠ ' '

/-- Reads the line of a sample. -/
def readSample (s : List Char) : Option Line :=
  let name := String.ofList (s.takeWhile goesOn)
  let rest := s.dropWhile goesOn
  if rest.head? = some ' ' then some (.sample name [] (String.ofList rest.tail))
  else
    (readLabels rest.tail).bind fun read =>
      if read.2.head? = some ' ' then some (.sample name read.1 (String.ofList read.2.tail))
      else none

/-- Reads a line. -/
def read (s : List Char) : Option Line :=
  match "# HELP ".toList.isPrefixOf? s with
  | some rest =>
    (cutOnce ' ' rest).bind fun cut =>
      (readText false cut.2).map fun text => .help (String.ofList cut.1) (String.ofList text.1)
  | none =>
    match "# TYPE ".toList.isPrefixOf? s with
    | some rest => (cutOnce ' ' rest).map fun cut =>
      .type (String.ofList cut.1) (String.ofList cut.2)
    | none => readSample s

/-- A name ends at the blank behind it. -/
theorem cutOnce_name {name : String} (h : isMetricName name = true) (rest : List Char) :
    cutOnce ' ' (name.toList ++ ' ' :: rest) = some (name.toList, rest) := by
  refine cutOnce_eq_some_iff.2 ⟨rfl, fun hmem => ?_⟩
  exact absurd (isMetricChar_of_mem h _ hmem) (by decide)

/-- A name ends where it does not go on. -/
theorem span_name {name : String} (h : isMetricName name = true) (rest : List Char)
    (hrest : ∀ c ∈ rest.head?, goesOn c = false) :
    (name.toList ++ rest).takeWhile goesOn = name.toList ∧
      (name.toList ++ rest).dropWhile goesOn = rest := by
  have hname : ∀ c ∈ name.toList, goesOn c = true := by
    intro c hc
    have hchar := isMetricChar_of_mem h c hc
    by_contra hstop
    have hcases : c = '\x7b' ∨ c = ' ' := by simpa [goesOn, or_iff_not_imp_left] using hstop
    rcases hcases with rfl | rfl <;> exact absurd hchar (by decide)
  rw [List.takeWhile_append_of_pos hname, List.dropWhile_append_of_pos hname]
  cases rest with
  | nil => simp
  | cons c rest => simp [hrest c rfl]

/-- A sample is read as its name, its labels and its value. -/
theorem readSample_print {name : String} (h : isMetricName name = true) {ls : List Label}
    (hlabels : ∀ l ∈ ls, isLabelName l.1 = true) (value : String) :
    readSample (Line.sample name ls value).print.toList = some (.sample name ls value) := by
  by_cases hempty : ls = []
  · subst hempty
    have htext : (Line.sample name [] value).print.toList = name.toList ++ ' ' :: value.toList := by
      simp [print, labels]
    obtain ⟨hname, hrest⟩ := span_name h (' ' :: value.toList) (by simp [goesOn])
    rw [htext, readSample, hname, hrest]
    simp
  · have htext : (Line.sample name ls value).print.toList = name.toList ++
        '\x7b' :: ((",".intercalate (ls.map label)).toList ++ '\x7d' :: ' ' :: value.toList) := by
      simp [print, labels, hempty]
    obtain ⟨hname, hrest⟩ := span_name h
      ('\x7b' :: ((",".intercalate (ls.map label)).toList ++ '\x7d' :: ' ' :: value.toList))
        (by simp [goesOn])
    rw [htext, readSample, hname, hrest, List.tail_cons, readLabels_append hempty hlabels]
    simp

/-- The line of a sample does not look like one of the others. -/
theorem isPrefixOf?_name {name : String} (h : isMetricName name = true) (front rest : List Char) :
    ('#' :: front).isPrefixOf? (name.toList ++ rest) = none := by
  cases hname : name.toList with
  | nil => exact absurd hname (ne_nil_of_isMetricName h)
  | cons c more =>
    have hne : '#' ≠ c := by
      rintro rfl
      exact absurd (isMetricChar_of_mem h '#' (hname ▸ List.mem_cons_self)) (by decide)
    simp [List.isPrefixOf?, hne]

/-- **A line is read as what stands on it.** -/
theorem read_print {line : Line} (h : line.Proper) : read line.print.toList = some line := by
  cases h with
  | @help name text h =>
    have hfront : "# HELP ".toList.isPrefixOf? (Line.help name text).print.toList =
        some (name.toList ++ ' ' :: (text.toList.flatMap (escapeChar false) ++ [])) := by
      rw [List.isPrefixOf?_eq_some_iff_append_eq]
      simp [print, escape]
    rw [read, hfront]
    dsimp only
    rw [cutOnce_name h, Option.bind_some, readText_append rfl]
    simp
  | @type name kind h hkind =>
    have hhelp : "# HELP ".toList.isPrefixOf? (Line.type name kind).print.toList = none := by
      simp [print, List.isPrefixOf?]
    have hfront : "# TYPE ".toList.isPrefixOf? (Line.type name kind).print.toList =
        some (name.toList ++ ' ' :: kind.toList) := by
      rw [List.isPrefixOf?_eq_some_iff_append_eq]
      simp [print]
    rw [read, hhelp]
    dsimp only
    rw [hfront]
    dsimp only
    rw [cutOnce_name h]
    simp
  | @sample name ls value h hlabels hvalue =>
    have htext : (Line.sample name ls value).print.toList =
        name.toList ++ (labels ls ++ " " ++ value).toList := by
      simp [print]
    have hread := readSample_print h hlabels value
    rw [htext] at hread ⊢
    have hhelp : "# HELP ".toList.isPrefixOf? (name.toList ++ (labels ls ++ " " ++ value).toList) =
        none :=
      isPrefixOf?_name h _ _
    have htype : "# TYPE ".toList.isPrefixOf? (name.toList ++ (labels ls ++ " " ++ value).toList) =
        none :=
      isPrefixOf?_name h _ _
    rw [read, hhelp]
    dsimp only
    rw [htype]
    exact hread

/-- Quotes, braces and newlines in the value of a label are part of the value. -/
example : read "x\x7bnamespace=\"a\\\"\x7d 1\\nx\",page=\"2MB\"\x7d 5".toList =
    some (.sample "x" [("namespace", "a\"\x7d 1\nx"), ("page", "2MB")] "5") := by
  decide +kernel

/-! ### One line -/

/-- Escaping takes the newlines out of a text. -/
theorem isLine_escape (quoted : Bool) (text : String) : IsLine (escape quoted text) := by
  unfold IsLine escape
  rw [String.toList_ofList, List.mem_flatMap]
  rintro ⟨c, -, hmem⟩
  unfold escapeChar at hmem
  split_ifs at hmem with hbackslash hnewline hquote
  · simp at hmem
  · simp at hmem
  · simp at hmem
  · exact hnewline (List.mem_singleton.1 hmem).symm

/-- A metric name has no newline in it. -/
theorem isLine_of_isMetricName {name : String} (h : isMetricName name = true) : IsLine name := by
  intro hmem
  exact absurd (isMetricChar_of_mem h _ hmem) (by decide)

/-- A label is written without a newline. -/
theorem isLine_label {l : Label} (h : isLabelName l.1 = true) : IsLine (label l) := by
  have hname : IsLine l.1 := by
    intro hmem
    exact absurd (isLabelChar_of_mem h _ hmem) (by decide)
  exact isLine_append.2
    ⟨isLine_append.2 ⟨isLine_append.2 ⟨hname, by decide⟩, isLine_escape _ _⟩, by decide⟩

/-- No newline in a value gets onto a line. -/
theorem isLine_labels {ls : List Label} (h : ∀ l ∈ ls, isLabelName l.1 = true) :
    IsLine (labels ls) := by
  unfold labels
  split
  · decide
  · refine isLine_append.2 ⟨isLine_append.2 ⟨by decide, ?_⟩, by decide⟩
    apply isLine_intercalate (by decide)
    exact List.forall_mem_map.2 fun l hl => isLine_label (h l hl)

/-- A proper line has no newline in it, apart from the one behind it. -/
theorem isLine_print {line : Line} (h : line.Proper) : IsLine line.print := by
  cases h with
  | help h =>
    have hname := isLine_of_isMetricName h
    exact isLine_append.2 ⟨isLine_append.2 ⟨isLine_append.2 ⟨by decide, hname⟩, by decide⟩,
      isLine_escape _ _⟩
  | type h hkind =>
    have hname := isLine_of_isMetricName h
    exact isLine_append.2 ⟨isLine_append.2 ⟨isLine_append.2 ⟨by decide, hname⟩, by decide⟩, hkind⟩
  | sample h hlabels hvalue =>
    have hname := isLine_of_isMetricName h
    exact isLine_append.2
      ⟨isLine_append.2 ⟨isLine_append.2 ⟨hname, isLine_labels hlabels⟩, by decide⟩, hvalue⟩

end Line

/-! ## Texts of lines -/

/-- The text of some lines. -/
def print (lines : List Line) : String := String.join (lines.map fun line => line.print ++ "\n")

/-- Lines are printed one after the other. -/
theorem print_append (lines lines' : List Line) :
    print (lines ++ lines') = print lines ++ print lines' := by
  simp [print]

/-- A text is cut at its newlines into its lines. -/
theorem cutAfter_print {lines : List Line} (h : ∀ line ∈ lines, line.Proper) :
    cutAfter '\n' (print lines).toList = lines.map fun line => line.print.toList ++ ['\n'] := by
  induction lines with
  | nil => rfl
  | cons line lines ih =>
    obtain ⟨hline, hlines⟩ := List.forall_mem_cons.1 h
    have htext : (print (line :: lines)).toList =
        line.print.toList ++ '\n' :: (print lines).toList := by
      simp [print]
    rw [htext, cutAfter_append, cutAfter_concat (Line.isLine_print hline), ih hlines]
    rfl

/-- Reads what stands in a piece that ends with a newline. -/
def readPiece (piece : List Char) : Option Line :=
  if piece.getLast? = some '\n' then Line.read piece.dropLast else none

/-- Reads the lines of a text. -/
def read (text : String) : Option (List Line) := (cutAfter '\n' text.toList).mapM readPiece

/-- **The lines of a text are those that were written.** -/
theorem read_print {lines : List Line} (h : ∀ line ∈ lines, line.Proper) :
    read (print lines) = some lines := by
  rw [read, cutAfter_print h]
  induction lines with
  | nil => rfl
  | cons line lines ih =>
    obtain ⟨hline, hlines⟩ := List.forall_mem_cons.1 h
    have hpiece : readPiece (line.print.toList ++ ['\n']) = some line := by
      simp [readPiece, Line.read_print hline]
    rw [List.map_cons, List.mapM_cons, hpiece, ih hlines]
    rfl

/-- No two lists of lines have the same text. -/
theorem print_injOn : Set.InjOn print { lines | ∀ line ∈ lines, line.Proper } := by
  intro lines h lines' h' heq
  have hread := read_print h
  rw [heq, read_print h'] at hread
  exact (Option.some.inj hread).symm

end ContainerUsage.Exposition
