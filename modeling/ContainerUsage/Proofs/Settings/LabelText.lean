import Mathlib
import ContainerUsage.Proofs.Metric.Identifier
import ContainerUsage.Proofs.Settings.TaskLabels
import ContainerUsage.Proofs.Text.Trimming

/-!
# The text of task labels

The text is cut into segments at its commas. A segment tells a label (`Settings.Tells`) if it has a
key before its first `=`; one that is neither blank nor tells a label is malformed.

* `Settings.readSegments_eq_ok_iff` and `Settings.readSegments_eq_error_iff` say what is read from
  segments: the labels that they tell one after the other, or that the first malformed one is
  malformed.
* `Settings.Listing.lookup_reverse_iff` finds the segment that counts for a key. Of several it is
  the last.
* `Settings.Writable.tells` is about one label that is written with blanks in it, and
  `Settings.IsTextOf.parseLabels_eq` about a set of them. In both a name is an identifier, so that
  neither blanks nor separators can be in it.

`Settings.parseLabels_exact` has all of it in one place, up to the settings.
-/

namespace ContainerUsage.Settings

open Text

/-! ## Segments -/

/-- A segment with a key before its first `=` tells a label: the key and what stands after the `=`,
both trimmed. -/
def Tells (segment : List Char) (label : Label) : Prop :=
  ∃ key text, segment = key ++ '=' :: text ∧ '=' ∉ key ∧ ¬Blank key ∧
    Trims key label.1.toList ∧ Trims text label.2.toList

/-- A segment that writes a label, with blanks around the key and the value. -/
def Writes (segment : List Char) (label : Label) : Prop :=
  ∃ key text, segment = key ++ '=' :: text ∧ Padded key label.1.toList ∧ Padded text label.2.toList

/-- Segments that stand for labels in this order. Those that are blank stand for none. -/
inductive Listing (R : List Char → Label → Prop) : List (List Char) → List Label → Prop
  | nil : Listing R [] []
  | blank {segment segments labels} (h : Blank segment) (rest : Listing R segments labels) :
      Listing R (segment :: segments) labels
  | label {segment segments label labels} (h : R segment label) (rest : Listing R segments labels) :
      Listing R (segment :: segments) (label :: labels)

/-- A segment tells a label in the way in which it is cut and trimmed. -/
theorem tells_iff {segment : List Char} {label : Label} : Tells segment label ↔
    ∃ key text, cutOnce '=' segment = some (key, text) ∧ ¬Blank key ∧
      label = (String.ofList (trim key), String.ofList (trim text)) := by
  obtain ⟨name, value⟩ := label
  simp only [Tells, cutOnce_eq_some_iff, Prod.mk.injEq, ← trim_eq_iff]
  constructor
  · rintro ⟨key, text, hs, hnot, hkey, hname, hvalue⟩
    exact ⟨key, text, ⟨hs, hnot⟩, hkey, by rw [hname, String.ofList_toList], by
      rw [hvalue, String.ofList_toList]⟩
  · rintro ⟨key, text, ⟨hs, hnot⟩, hkey, rfl, rfl⟩
    exact ⟨key, text, hs, hnot, hkey, String.toList_ofList.symm, String.toList_ofList.symm⟩

/-- A segment tells at most one label. -/
theorem Tells.unique {segment : List Char} {label other : Label} (h : Tells segment label)
    (h' : Tells segment other) : label = other := by
  obtain ⟨key, text, hcut, -, rfl⟩ := tells_iff.1 h
  obtain ⟨key', text', hcut', -, rfl⟩ := tells_iff.1 h'
  obtain ⟨rfl, rfl⟩ := Prod.mk.inj (Option.some.inj (hcut.symm.trans hcut'))
  rfl

/-- A blank segment tells nothing. -/
theorem Tells.not_blank {segment : List Char} {label : Label} (h : Tells segment label) :
    ¬Blank segment := by
  obtain ⟨key, text, rfl, -, hkey, -⟩ := h
  exact fun hblank => hkey fun c hc => hblank c (List.mem_append_left _ hc)

/-- A segment that is neither blank nor tells a label. -/
def Malformed (segment : List Char) : Prop := ¬Blank segment ∧ ∀ label, ¬Tells segment label

/-- A segment that is not malformed is blank or tells a label. -/
theorem not_malformed_iff {segment : List Char} :
    ¬Malformed segment ↔ Blank segment ∨ ∃ label, Tells segment label := by
  rw [Malformed, not_and_or, not_not, not_forall_not]

/-! ## One segment -/

/-- What is malformed is named as it stands. -/
theorem parseLabel_eq_error {pair : List Char} {e : SettingsError}
    (h : parseLabel pair = .error e) :
    e = .malformedLabel (String.ofList pair) := by
  unfold parseLabel at h
  split at h
  · exact (Except.error.inj h).symm
  · split at h
    · exact (Except.error.inj h).symm
    · cases h

/-- A segment is read as the label that it tells. -/
theorem parseLabel_trim_eq_ok_iff {segment : List Char} {label : Label} :
    parseLabel (trim segment) = .ok label ↔ Tells segment label := by
  rw [tells_iff, parseLabel, cutOnce_trim (by decide)]
  cases cutOnce '=' segment with
  | none => simp
  | some cut =>
    obtain ⟨key, text⟩ := cut
    have hempty : (trim (trimStart key)).isEmpty = true ↔ Blank key := by
      rw [trim_trimStart, List.isEmpty_iff, trim_eq_nil_iff]
    dsimp only [Option.map_some]
    split
    · next h => simp [hempty.1 h]
    · next h => simp [mt hempty.2 h, trim_trimStart, trim_trimEnd, eq_comm]

/-! ## All segments -/

/-- What is read from segments: the labels that they tell, up to the first that is malformed. -/
def readSegments (segments : List (List Char)) : Except SettingsError (List Label) :=
  parsePairs ((segments.map trim).filter (!·.isEmpty))

/-- Labels are read from the segments between the commas. -/
theorem parseLabels_eq (value : String) :
    parseLabels value = (readSegments (value.toList.splitOn ',')).map LabelSet.ofList := by
  rw [parseLabels, labelPairs, pieces_eq_splitOnP, readSegments, List.splitOn_eq_splitOnP]
  rfl

/-- A blank segment is passed over. -/
theorem readSegments_cons_of_blank {segment : List Char} (h : Blank segment)
    (rest : List (List Char)) :
    readSegments (segment :: rest) = readSegments rest := by
  rw [readSegments, List.map_cons, trim_eq_nil_iff.2 h, List.filter_cons,
    if_neg (by simp), readSegments]

/-- A segment that tells a label comes before what the others tell. -/
theorem readSegments_cons_of_tells {segment : List Char} {label : Label} (h : Tells segment label)
    (rest : List (List Char)) :
    readSegments (segment :: rest) = (readSegments rest).map (label :: ·) := by
  have hkept : (!(trim segment).isEmpty) = true := by simpa [trim_eq_nil_iff] using h.not_blank
  rw [readSegments, List.map_cons, List.filter_cons, if_pos hkept, parsePairs,
    parseLabel_trim_eq_ok_iff.2 h]
  rfl

/-- A malformed segment ends the reading. -/
theorem readSegments_cons_of_malformed {segment : List Char} (h : Malformed segment)
    (rest : List (List Char)) :
    readSegments (segment :: rest) = .error (.malformedLabel (String.ofList (trim segment))) := by
  have hkept : (!(trim segment).isEmpty) = true := by simpa [trim_eq_nil_iff] using h.1
  rw [readSegments, List.map_cons, List.filter_cons, if_pos hkept, parsePairs]
  cases hparse : parseLabel (trim segment) with
  | ok label => exact absurd (parseLabel_trim_eq_ok_iff.1 hparse) (h.2 label)
  | error e => rw [parseLabel_eq_error hparse]

/-- Segments are read as the labels that they stand for. -/
theorem readSegments_eq_ok_iff {segments : List (List Char)} {labels : List Label} :
    readSegments segments = .ok labels ↔ Listing Tells segments labels := by
  induction segments generalizing labels with
  | nil =>
    constructor
    · intro h
      obtain rfl : [] = labels := Except.ok.inj h
      exact .nil
    · rintro ⟨⟩
      rfl
  | cons segment rest ih =>
    constructor
    · intro h
      by_cases hmalformed : Malformed segment
      · rw [readSegments_cons_of_malformed hmalformed] at h
        cases h
      rcases not_malformed_iff.1 hmalformed with hblank | ⟨label, htells⟩
      · rw [readSegments_cons_of_blank hblank] at h
        exact .blank hblank (ih.1 h)
      · rw [readSegments_cons_of_tells htells] at h
        cases hrest : readSegments rest with
        | error e =>
          rw [hrest] at h
          cases h
        | ok others =>
          rw [hrest] at h
          obtain rfl : label :: others = labels := Except.ok.inj h
          exact .label htells (ih.1 hrest)
    · intro h
      cases h with
      | blank hblank hrest => rw [readSegments_cons_of_blank hblank, ih.2 hrest]
      | label htells hrest =>
        rw [readSegments_cons_of_tells htells, ih.2 hrest]
        rfl

/-- Where a list is split at one of its elements, this is the first one or one of the rest. -/
theorem exists_split_cons_iff {α : Type} {P : List α → α → List α → Prop} {first : α}
    {rest : List α} :
    (∃ earlier found later, first :: rest = earlier ++ found :: later ∧ P earlier found later) ↔
      P [] first rest ∨ ∃ earlier found later, rest = earlier ++ found :: later ∧
        P (first :: earlier) found later := by
  constructor
  · rintro ⟨earlier, found, later, hsplit, h⟩
    rcases List.cons_eq_append_iff.1 hsplit with ⟨rfl, hrest⟩ | ⟨more, rfl, hrest⟩
    · obtain ⟨rfl, rfl⟩ := List.cons.inj hrest
      exact .inl h
    · exact .inr ⟨more, found, later, hrest, h⟩
  · rintro (h | ⟨earlier, found, later, rfl, h⟩)
    · exact ⟨[], first, rest, rfl, h⟩
    · exact ⟨first :: earlier, found, later, rfl, h⟩

/-- Segments are refused because of the first that is malformed. -/
theorem readSegments_eq_error_iff {segments : List (List Char)} {e : SettingsError} :
    readSegments segments = .error e ↔
      ∃ earlier segment later, segments = earlier ++ segment :: later ∧
      (∀ other ∈ earlier, ¬Malformed other) ∧ Malformed segment ∧
        e = .malformedLabel (String.ofList (trim segment)) := by
  induction segments with
  | nil =>
    refine iff_of_false (by rintro ⟨⟩) ?_
    rintro ⟨earlier, segment, later, h, -⟩
    simp at h
  | cons first rest ih =>
    rw [exists_split_cons_iff]
    simp only [List.forall_mem_cons]
    by_cases hmalformed : Malformed first
    · rw [readSegments_cons_of_malformed hmalformed]
      constructor
      · intro h
        exact .inl ⟨List.forall_mem_nil _, hmalformed, (Except.error.inj h).symm⟩
      · rintro (⟨-, -, rfl⟩ | ⟨earlier, segment, later, -, ⟨hfirst, -⟩, -⟩)
        · rfl
        · exact absurd hmalformed hfirst
    · have hskipped : readSegments (first :: rest) = .error e ↔ readSegments rest = .error e := by
        rcases not_malformed_iff.1 hmalformed with hblank | ⟨label, htells⟩
        · rw [readSegments_cons_of_blank hblank]
        · rw [readSegments_cons_of_tells htells]
          cases readSegments rest <;> simp [Except.map]
      rw [hskipped, ih]
      simp only [hmalformed, not_false_eq_true, true_and, false_and, and_false, false_or]

/-! ## The labels that segments stand for -/

/-- Segments stand for labels unless one of them is malformed. -/
theorem exists_listing_iff {segments : List (List Char)} :
    (∃ labels, Listing Tells segments labels) ↔ ∀ segment ∈ segments, ¬Malformed segment := by
  constructor
  · rintro ⟨labels, h⟩
    induction h with
    | nil => exact List.forall_mem_nil _
    | blank hblank _ ih => exact List.forall_mem_cons.2 ⟨not_malformed_iff.2 (.inl hblank), ih⟩
    | label htells _ ih => exact List.forall_mem_cons.2 ⟨not_malformed_iff.2 (.inr ⟨_, htells⟩), ih⟩
  · intro h
    induction segments with
    | nil => exact ⟨[], .nil⟩
    | cons segment rest ih =>
      obtain ⟨hsegment, hrest⟩ := List.forall_mem_cons.1 h
      obtain ⟨labels, hlabels⟩ := ih hrest
      rcases not_malformed_iff.1 hsegment with hblank | ⟨label, htells⟩
      · exact ⟨labels, .blank hblank hlabels⟩
      · exact ⟨label :: labels, .label htells hlabels⟩

namespace Listing

variable {R R' : List Char → Label → Prop} {segments : List (List Char)} {labels : List Label}

/-- Each segment is blank or stands for one of the labels. -/
theorem blank_or_exists (h : Listing R segments labels) :
    ∀ segment ∈ segments, Blank segment ∨ ∃ label ∈ labels, R segment label := by
  induction h with
  | nil => exact List.forall_mem_nil _
  | blank hblank _ ih => exact List.forall_mem_cons.2 ⟨.inl hblank, ih⟩
  | label hlabel _ ih =>
    refine List.forall_mem_cons.2 ⟨.inr ⟨_, List.mem_cons_self, hlabel⟩, fun segment hmem => ?_⟩
    refine (ih segment hmem).imp_right ?_
    rintro ⟨label, hin, hR⟩
    exact ⟨label, List.mem_cons_of_mem _ hin, hR⟩

/-- Each label stands in some segment. -/
theorem exists_segment (h : Listing R segments labels) :
    ∀ label ∈ labels, ∃ segment ∈ segments, R segment label := by
  induction h with
  | nil => exact List.forall_mem_nil _
  | blank _ _ ih =>
    intro label hmem
    obtain ⟨segment, hin, hR⟩ := ih label hmem
    exact ⟨segment, List.mem_cons_of_mem _ hin, hR⟩
  | label hlabel _ ih =>
    refine List.forall_mem_cons.2 ⟨⟨_, List.mem_cons_self, hlabel⟩, fun label hmem => ?_⟩
    obtain ⟨segment, hin, hR⟩ := ih label hmem
    exact ⟨segment, List.mem_cons_of_mem _ hin, hR⟩

/-- A listing is one under whatever its segments also say of their labels. -/
theorem imp (h : Listing R segments labels)
    (himp : ∀ segment, ∀ label ∈ labels, R segment label → R' segment label) :
    Listing R' segments labels := by
  induction h with
  | nil => exact .nil
  | blank hblank _ ih => exact .blank hblank (ih himp)
  | label hlabel _ ih =>
    exact .label (himp _ _ List.mem_cons_self hlabel)
      (ih fun segment label hmem => himp segment label (List.mem_cons_of_mem _ hmem))

end Listing

/-- Of the segments that tell a key, the last tells it with this text. -/
def LastTells (segments : List (List Char)) (key text : String) : Prop :=
  ∃ earlier segment later, segments = earlier ++ segment :: later ∧ Tells segment (key, text) ∧
    ∀ other ∈ later, ∀ another, ¬Tells other (key, another)

/-- The last segment that tells a key is among the later ones, or it is the first and no later one
tells the key. -/
theorem lastTells_cons_iff {segment : List Char} {rest : List (List Char)} {key text : String} :
    LastTells (segment :: rest) key text ↔
      LastTells rest key text ∨
        (∀ other ∈ rest, ∀ another, ¬Tells other (key, another)) ∧ Tells segment (key, text) := by
  rw [LastTells, exists_split_cons_iff, or_comm, LastTells,
    and_comm (a := Tells segment (key, text))]

/-- The last label with a key is the one that the last segment with this key tells. -/
theorem Listing.lookup_reverse_iff {segments : List (List Char)} {labels : List Label}
    (h : Listing Tells segments labels) {key text : String} :
    labels.reverse.lookup key = some text ↔ LastTells segments key text := by
  induction h with
  | nil =>
    refine iff_of_false (by simp) ?_
    rintro ⟨earlier, segment, later, hsegments, -⟩
    simp at hsegments
  | @blank segment rest labels hblank _ ih =>
    rw [ih, lastTells_cons_iff, or_iff_left]
    exact fun htells => htells.2.not_blank hblank
  | @label segment rest label labels htells hrest ih =>
    have hnone : labels.reverse.lookup key = none ↔
        ∀ other ∈ rest, ∀ another, ¬Tells other (key, another) := by
      rw [List.lookup_eq_none_iff]
      constructor
      · intro hnot other hmem another hother
        rcases hrest.blank_or_exists other hmem with hblank | ⟨found, hfound, hR⟩
        · exact hother.not_blank hblank
        · rw [hR.unique hother] at hfound
          exact bne_iff_ne.1 (hnot _ (List.mem_reverse.2 hfound)) rfl
      · intro hnot found hfound
        obtain ⟨other, hmem, hother⟩ := hrest.exists_segment found (List.mem_reverse.1 hfound)
        exact bne_iff_ne.2 fun he => hnot other hmem found.2 (he ▸ hother)
    have hlabel : [label].lookup key = some text ↔ Tells segment (key, text) := by
      have hnodup : ([label].map Prod.fst).Nodup := List.nodup_singleton label.1
      rw [lookup_eq_some_iff_of_nodup hnodup, List.mem_singleton]
      exact ⟨fun h => h ▸ htells, fun h => h.unique htells⟩
    rw [List.reverse_cons, List.lookup_append, Option.or_eq_some_iff, lastTells_cons_iff, ih,
      hnone, hlabel]

/-! ## Labels that are written -/

/-- The code points of letters and digits. -/
theorem toNat_of_isAlphanum {c : Char} (h : c.isAlphanum = true) :
    48 ≤ c.toNat ∧ c.toNat ≤ 57 ∨ 65 ≤ c.toNat ∧ c.toNat ≤ 90 ∨ 97 ≤ c.toNat ∧ c.toNat ≤ 122 := by
  simp only [Char.isAlphanum, Char.isAlpha, Char.isUpper, Char.isLower, Char.isDigit,
    Bool.or_eq_true, Bool.and_eq_true, decide_eq_true_eq, ge_iff_le, UInt32.le_iff_toNat_le] at h
  rw [Char.toNat]
  rcases h with (hupper | hlower) | hdigit
  · exact .inr (.inl hupper)
  · exact .inr (.inr hlower)
  · exact .inl hdigit

/-- Letters and digits are no blanks. -/
theorem isBlank_of_isAlphanum {c : Char} (h : c.isAlphanum = true) : isBlank c = false := by
  have hbounds := toNat_of_isAlphanum h
  simp only [isBlank, blankRanges, List.any_cons, List.any_nil, Bool.or_false, Bool.or_eq_false_iff,
    Bool.and_eq_false_iff, decide_eq_false_iff_not]
  omega

/-- A label that can be written: its name is an identifier, and its value has no comma and no blank
at either end. -/
structure Writable (label : Label) : Prop where
  named : label.1 ≠ ""
  name : IsIdentifier ['_'] label.1.toList
  comma : ',' ∉ label.2.toList
  trimmed : Trimmed label.2.toList

namespace Writable

variable {segment : List Char} {label : Label}

/-- The name has no blank and nothing that the text is cut at. -/
theorem isBlank_of_mem (h : Writable label) {c : Char} (hc : c ∈ label.1.toList) :
    isBlank c = false := by
  rcases h.name.chars c hc with halphanum | hother
  · exact isBlank_of_isAlphanum halphanum
  · rw [List.mem_singleton.1 hother]
    decide

/-- The name of a writable label has no separator in it. -/
theorem notMem_name (h : Writable label) {sep : Char} (halphanum : sep.isAlphanum = false)
    (hsep : sep ≠ '_') :
    sep ∉ label.1.toList := by
  intro hmem
  rcases h.name.chars sep hmem with htrue | hother
  · exact Bool.false_ne_true (halphanum.symm.trans htrue)
  · exact hsep (List.mem_singleton.1 hother)

/-- What is written for a label tells it. -/
theorem tells (h : Writable label) (hwrites : Writes segment label) : Tells segment label := by
  obtain ⟨key, text, hsegment, hkey, htext⟩ := hwrites
  refine ⟨key, text, hsegment, ?_, ?_, ⟨trimmed_of_forall fun c => h.isBlank_of_mem, hkey⟩,
    ⟨h.trimmed, htext⟩⟩
  · rw [hkey.mem_iff (by decide)]
    exact h.notMem_name (by decide) (by decide)
  · intro hblank
    obtain ⟨c, hc⟩ := List.exists_mem_of_ne_nil _ (mt String.toList_eq_nil_iff.1 h.named)
    have hnot := h.isBlank_of_mem hc
    exact Bool.false_ne_true (hnot.symm.trans (hblank c ((hkey.mem_iff hnot).2 hc)))

/-- What is written for a label is one segment. -/
theorem comma_notMem (h : Writable label) (hwrites : Writes segment label) : ',' ∉ segment := by
  obtain ⟨key, text, rfl, hkey, htext⟩ := hwrites
  rw [List.mem_append, List.mem_cons, hkey.mem_iff (by decide), htext.mem_iff (by decide)]
  rintro (hin | heq | hin)
  · exact h.notMem_name (by decide) (by decide) hin
  · exact absurd heq (by decide)
  · exact h.comma hin

end Writable

/-- A text of labels: each is written once, in any order, with blank segments in between. -/
def IsTextOf (value : String) (labels : LabelSet) : Prop :=
  ∃ segments order, Listing Writes segments order ∧ order.Perm labels.pairs ∧
    value.toList = [','].intercalate segments

/-- The segments of a text that is put together of them, if one of no segments counts as one of a
blank one. -/
theorem Listing.splitOn {R : List Char → Label → Prop} {segments : List (List Char)}
    {labels : List Label}
    (h : Listing R segments labels) (hcomma : ∀ segment ∈ segments, ',' ∉ segment) :
    Listing R (([','].intercalate segments).splitOn ',') labels := by
  cases segments with
  | nil =>
    rw [List.intercalate_nil, List.splitOn_nil]
    exact .blank (List.forall_mem_nil _) h
  | cons first rest => rwa [List.splitOn_intercalate _ hcomma (List.cons_ne_nil first rest)]

/-- What is written is read. -/
theorem IsTextOf.parseLabels_eq {value : String} {labels : LabelSet} (h : IsTextOf value labels)
    (hwritable : ∀ label ∈ labels.pairs, Writable label) : parseLabels value = .ok labels := by
  obtain ⟨segments, order, hwritten, hperm, hvalue⟩ := h
  have hcomma : ∀ segment ∈ segments, ',' ∉ segment := by
    intro segment hmem
    rcases hwritten.blank_or_exists segment hmem with hblank | ⟨label, hlabel, hwrites⟩
    · exact fun hin => absurd (hblank _ hin) (by decide)
    · exact (hwritable label (hperm.mem_iff.1 hlabel)).comma_notMem hwrites
  have htold : Listing Tells segments order := hwritten.imp fun segment label hlabel hwrites =>
    (hwritable label (hperm.mem_iff.1 hlabel)).tells hwrites
  rw [Settings.parseLabels_eq, hvalue, readSegments_eq_ok_iff.2 (htold.splitOn hcomma), Except.map,
    LabelSet.ofList_of_perm hperm]

/-! ## Exactness -/

/-- Labels are read unless a segment is malformed. -/
theorem exists_parseLabels_iff {value : String} : (∃ labels, parseLabels value = .ok labels) ↔
    ∀ segment ∈ value.toList.splitOn ',', ¬Malformed segment := by
  rw [← exists_listing_iff, parseLabels_eq]
  simp only [← readSegments_eq_ok_iff]
  cases readSegments (value.toList.splitOn ',') <;> simp [Except.map]

/-- The error is about the first segment that is malformed. -/
theorem parseLabels_eq_error_iff {value : String} {e : SettingsError} :
    parseLabels value = .error e ↔
    ∃ earlier segment later, value.toList.splitOn ',' = earlier ++ segment :: later ∧
      (∀ other ∈ earlier, ¬Malformed other) ∧ Malformed segment ∧
        ∃ pair : String, Trims segment pair.toList ∧ e = .malformedLabel pair := by
  have hread : parseLabels value = .error e ↔
      readSegments (value.toList.splitOn ',') = .error e := by
    rw [parseLabels_eq]
    cases readSegments (value.toList.splitOn ',') <;> simp [Except.map]
  have hpair : ∀ segment : List Char, e = .malformedLabel (String.ofList (trim segment)) ↔
      ∃ pair : String, Trims segment pair.toList ∧ e = .malformedLabel pair := by
    intro segment
    simp only [← trim_eq_iff]
    constructor
    · rintro rfl
      exact ⟨_, String.toList_ofList.symm, rfl⟩
    · rintro ⟨pair, hpair, rfl⟩
      rw [hpair, String.ofList_toList]
  rw [hread, readSegments_eq_error_iff]
  simp only [hpair]

example : parseLabels "host=a, zone , =b" = .error (.malformedLabel "zone") := by cbv

/-- What is read gives each key the text of the last segment that tells it. -/
theorem get?_of_parseLabels {value : String} {labels : LabelSet}
    (h : parseLabels value = .ok labels) (key text : String) :
    labels.get? key = some text ↔ LastTells (value.toList.splitOn ',') key text := by
  rw [parseLabels_eq] at h
  cases hread : readSegments (value.toList.splitOn ',') with
  | error e =>
    rw [hread] at h
    cases h
  | ok told =>
    rw [hread] at h
    obtain rfl : LabelSet.ofList told = labels := Except.ok.inj h
    rw [LabelSet.get?_ofList, (readSegments_eq_ok_iff.1 hread).lookup_reverse_iff]

/-- **The text of task labels is read exactly, and labels that are written are read again.** A text
is read iff each of its segments is blank or tells a label. The set that is read then gives each key
the text of the last segment with this key, and has no other keys; otherwise the error holds the
first malformed segment without the blanks around it. So where nothing else is set, the settings
have exactly the labels that were written: in any order, with any blanks around names and values,
and with blank segments anywhere between them. -/
theorem parseLabels_exact (value : String) :
    ((∃ labels, parseLabels value = .ok labels) ↔
        ∀ segment ∈ value.toList.splitOn ',', Blank segment ∨ ∃ label, Tells segment label) ∧
      (∀ labels, parseLabels value = .ok labels → ∀ key text,
        labels.get? key = some text ↔ LastTells (value.toList.splitOn ',') key text) ∧
      (∀ e, parseLabels value = .error e ↔
        ∃ earlier segment later, value.toList.splitOn ',' = earlier ++ segment :: later ∧
          (∀ other ∈ earlier, ¬Malformed other) ∧ Malformed segment ∧
            ∃ pair : String, Trims segment pair.toList ∧ e = .malformedLabel pair) ∧
      ∀ labels : LabelSet,
        (∀ label ∈ labels.pairs, Writable label ∧ label.1 ∉ ["container_id", "namespace"]) →
        IsTextOf value labels →
          ∃ settings, ofLookup (onlyTaskLabels value) = .ok settings ∧
            settings.taskLabels = labels := by
  refine ⟨?_, fun labels => get?_of_parseLabels, fun e => parseLabels_eq_error_iff, ?_⟩
  · simp only [← not_malformed_iff]
    exact exists_parseLabels_iff
  · intro labels hlabels htext
    have hparse := htext.parseLabels_eq fun label hmem => (hlabels label hmem).1
    have hfits : labels.Fits baseLabels := by
      rintro name hname
      obtain ⟨label, hmem, rfl⟩ := List.mem_map.1 hname
      obtain ⟨hwritable, hfree⟩ := hlabels label hmem
      exact ⟨isLabelName_iff.2 ⟨hwritable.named, hwritable.name⟩, hfree⟩
    obtain ⟨settings, hsettings, -, htaskLabels⟩ := exists_ofLookup_onlyTaskLabels hparse hfits
    exact ⟨settings, hsettings, htaskLabels⟩

/-- Two labels in the order in which they do not sort, one with a `=` in its value and one without a
value, and a blank segment between them. -/
theorem parseLabels_exact_zone_host :
    LastTells (" zone = eu=1, ,host=".toList.splitOn ',') "zone" "eu=1" ∧
      ∃ settings, ofLookup (onlyTaskLabels " zone = eu=1, ,host=") = .ok settings ∧
        settings.taskLabels = ⟨[("host", ""), ("zone", "eu=1")], by decide⟩ := by
  have hlabels : ∀ label ∈ [("host", ""), ("zone", "eu=1")],
      Writable label ∧ label.1 ∉ ["container_id", "namespace"] := by
    have hwritable : ∀ name value : String, isLabelName name = true → ',' ∉ value.toList →
        trim value.toList = value.toList → Writable (name, value) := by
      intro name value hname hcomma htrim
      obtain ⟨hnamed, hidentifier⟩ := isLabelName_iff.1 hname
      exact ⟨hnamed, hidentifier, hcomma, (trim_eq_iff.1 htrim).trimmed⟩
    refine List.forall_mem_cons.2 ⟨⟨hwritable "host" "" ?_ ?_ ?_, ?_⟩,
      List.forall_mem_singleton.2 ⟨hwritable "zone" "eu=1" ?_ ?_ ?_, ?_⟩⟩ <;> decide +kernel
  have hblank : Blank [' '] := List.forall_mem_singleton.2 (by decide)
  have hnone : Blank [] := List.forall_mem_nil _
  have htext : IsTextOf " zone = eu=1, ,host=" ⟨[("host", ""), ("zone", "eu=1")], by decide⟩ := by
    refine ⟨[" zone = eu=1".toList, [' '], "host=".toList], [("zone", "eu=1"), ("host", "")], ?_,
      .swap _ _ _, ?_⟩
    · refine .label ⟨" zone ".toList, " eu=1".toList, ?_, ⟨[' '], [' '], hblank, hblank, ?_⟩,
        ⟨[' '], [], hblank, hnone, ?_⟩⟩ (.blank hblank (.label ⟨"host".toList, [], ?_,
          ⟨[], [], hnone, hnone, ?_⟩, ⟨[], [], hnone, hnone, ?_⟩⟩ .nil)) <;> decide +kernel
    · decide +kernel
  obtain ⟨-, hget, -, hwritten⟩ := parseLabels_exact " zone = eu=1, ,host="
  have hparse : parseLabels " zone = eu=1, ,host=" =
      .ok ⟨[("host", ""), ("zone", "eu=1")], by decide⟩ := by
    cbv
  exact ⟨(hget _ hparse "zone" "eu=1").1 (by decide +kernel), hwritten _ hlabels htext⟩

end ContainerUsage.Settings
