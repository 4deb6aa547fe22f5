import Mathlib
import ContainerUsage.Proofs.Text.Words

/-!
# Texts with blanks around them

A text is trimmed to the one that it is when blanks are written around it: `trim s` is the only text
without a blank at either end that `s` can be made of in this way (`trim_eq_iff`). So padding does
not matter (`Padded.trim_eq`).

Trimming and cutting at a separator that is no blank commute: the blanks that are lost are those at
the start of the first part and at the end of the second (`cutOnce_trim`).
-/

namespace ContainerUsage.Text

/-- A text of blanks only. -/
def Blank (s : List Char) : Prop := ∀ c ∈ s, isBlank c = true

/-- A text that neither starts nor ends with a blank. -/
structure Trimmed (t : List Char) : Prop where
  start : ∀ c, t.head? = some c → isBlank c = false
  last : ∀ c, t.getLast? = some c → isBlank c = false

/-- Without blanks there is nothing to trim. -/
theorem trimmed_of_forall {t : List Char} (h : ∀ c ∈ t, isBlank c = false) : Trimmed t where
  start c hc := h c (List.mem_of_mem_head? hc)
  last c hc := h c (List.mem_of_getLast? hc)

/-- The first text is the second with blanks around it. -/
def Padded (s t : List Char) : Prop :=
  ∃ before after, Blank before ∧ Blank after ∧ s = before ++ t ++ after

/-- The second text is what is left of the first without the blanks around it. -/
structure Trims (s t : List Char) : Prop where
  trimmed : Trimmed t
  padded : Padded s t

/-! ## What trimming takes off -/

/-- Blanks in front are trimmed away. -/
theorem trim_blank_append {before : List Char} (h : Blank before) (s : List Char) :
    trim (before ++ s) = trim s := by
  rw [trim, trimStart, List.dropWhile_append_of_pos h, ← trimStart, ← trim]

/-- Blanks at the end are trimmed away. -/
theorem trim_append_blank {after : List Char} (h : Blank after) (s : List Char) :
    trim (s ++ after) = trim s := by
  induction after generalizing s with
  | nil => rw [List.append_nil]
  | cons c rest ih =>
    obtain ⟨hc, hrest⟩ := List.forall_mem_cons.1 h
    rw [List.append_cons, ih hrest, trim_concat hc]

/-- A text is trimmed as what it is without padding. -/
theorem Padded.trim_eq {s t : List Char} (h : Padded s t) : trim s = trim t := by
  obtain ⟨before, after, hbefore, hafter, rfl⟩ := h
  rw [trim_append_blank hafter, trim_blank_append hbefore]

/-- Padding brings in blanks only. -/
theorem Padded.mem_iff {s t : List Char} (h : Padded s t) {c : Char} (hc : isBlank c = false) :
    c ∈ s ↔ c ∈ t := by
  obtain ⟨before, after, hbefore, hafter, rfl⟩ := h
  have hbefore : c ∉ before := fun hmem => Bool.false_ne_true (hc.symm.trans (hbefore c hmem))
  have hafter : c ∉ after := fun hmem => Bool.false_ne_true (hc.symm.trans (hafter c hmem))
  simp only [List.mem_append, hbefore, hafter, false_or, or_false]

/-- Only blanks are taken off at the start. -/
theorem exists_append_trimStart (s : List Char) :
    ∃ before, Blank before ∧ s = before ++ trimStart s :=
  ⟨s.takeWhile isBlank, fun _ hc => List.mem_takeWhile_imp hc, List.takeWhile_append_dropWhile.symm⟩

/-- Only blanks are taken off at the end. -/
theorem exists_trimEnd_append (s : List Char) : ∃ after, Blank after ∧ s = trimEnd s ++ after :=
  ⟨s.rtakeWhile isBlank, fun _ hc => List.mem_rtakeWhile_imp hc,
    List.rdropWhile_append_rtakeWhile.symm⟩

/-- A text is its trimmed form with blanks around it. -/
theorem padded_trim (s : List Char) : Padded s (trim s) := by
  obtain ⟨before, hbefore, hs⟩ := exists_append_trimStart s
  obtain ⟨after, hafter, ht⟩ := exists_trimEnd_append (trimStart s)
  refine ⟨before, after, hbefore, hafter, ?_⟩
  rw [trim, List.append_assoc, ← ht, ← hs]

/-- No blank is left at the end. -/
theorem isBlank_of_getLast?_trimEnd {s : List Char} {c : Char} (h : (trimEnd s).getLast? = some c) :
    isBlank c = false := by
  obtain ⟨hne, rfl⟩ := List.mem_getLast?_eq_getLast h
  exact Bool.eq_false_of_not_eq_true (List.rdropWhile_last_not isBlank s hne)

/-- A trimmed form begins and ends without a blank. -/
theorem trimmed_trim (s : List Char) : Trimmed (trim s) := by
  refine ⟨fun c hc => ?_, fun c hc => isBlank_of_getLast?_trimEnd hc⟩
  -- what is taken off at the end leaves the first character in its place
  obtain ⟨after, -, hs⟩ := exists_trimEnd_append (trimStart s)
  have hhead : (trimStart s).head? = some c := by
    rw [hs, List.head?_append]
    exact Option.or_eq_some_iff.2 (.inl hc)
  have hnot := List.head?_dropWhile_not isBlank s
  rw [trimStart] at hhead
  rw [hhead] at hnot
  exact hnot

/-- Trimming leaves the one text without blanks at its ends that the text is made of. -/
theorem trim_eq_iff {s t : List Char} : trim s = t ↔ Trims s t := by
  constructor
  · rintro rfl
    exact ⟨trimmed_trim s, padded_trim s⟩
  · rintro ⟨htrimmed, hpadded⟩
    rw [hpadded.trim_eq, trim_of_not_blank htrimmed.start htrimmed.last]

/-- Nothing is left of a text exactly if it is blank. -/
theorem trim_eq_nil_iff {s : List Char} : trim s = [] ↔ Blank s := by
  rw [trim_eq_iff]
  constructor
  · rintro ⟨-, before, after, hbefore, hafter, rfl⟩
    rw [List.append_nil]
    exact List.forall_mem_append.2 ⟨hbefore, hafter⟩
  · intro h
    refine ⟨trimmed_of_forall (List.forall_mem_nil _), s, [], h, List.forall_mem_nil _, ?_⟩
    rw [List.append_nil, List.append_nil]

/-! ## Trimming and cutting -/

/-- Trimming the start first makes no difference. -/
theorem trim_trimStart (s : List Char) : trim (trimStart s) = trim s := by
  obtain ⟨before, hbefore, hs⟩ := exists_append_trimStart s
  calc trim (trimStart s) = trim (before ++ trimStart s) := (trim_blank_append hbefore _).symm
    _ = trim s := by rw [← hs]

/-- Trimming the end first makes no difference. -/
theorem trim_trimEnd (s : List Char) : trim (trimEnd s) = trim s := by
  obtain ⟨after, hafter, hs⟩ := exists_trimEnd_append s
  calc trim (trimEnd s) = trim (trimEnd s ++ after) := (trim_append_blank hafter _).symm
    _ = trim s := by rw [← hs]

/-- A character that is no blank keeps what is before it from being trimmed at the end, and what is
after it from being trimmed at the start. -/
theorem trim_append_cons {c : Char} (hc : isBlank c = false) (s t : List Char) :
    trim (s ++ c :: t) = trimStart s ++ c :: trimEnd t := by
  have hkept : ∀ u v : List Char, (u ++ c :: v).dropWhile isBlank =
      u.dropWhile isBlank ++ c :: v := by
    intro u v
    rw [List.dropWhile_append, List.dropWhile_cons_of_neg (Bool.not_eq_true _ ▸ hc)]
    split
    · next hempty => rw [List.isEmpty_iff.1 hempty, List.nil_append]
    · rfl
  rw [trim, trimStart, hkept, trimEnd, List.reverse_append, List.reverse_cons, List.append_assoc,
    List.singleton_append, hkept, List.reverse_append, List.reverse_cons, List.reverse_reverse,
    ← trimStart, List.append_assoc, List.singleton_append, ← trimEnd]

/-- Cutting a trimmed text at a separator that is no blank. -/
theorem cutOnce_trim {sep : Char} (hsep : isBlank sep = false) (s : List Char) :
    cutOnce sep (trim s) = (cutOnce sep s).map fun cut => (trimStart cut.1, trimEnd cut.2) := by
  cases hcut : cutOnce sep s with
  | none =>
    rw [cutOnce_eq_none_iff] at hcut
    rw [Option.map_none, cutOnce_eq_none_iff]
    obtain ⟨before, after, -, -, hs⟩ := padded_trim s
    intro hmem
    rw [hs] at hcut
    exact hcut (List.mem_append_left _ (List.mem_append_right _ hmem))
  | some cut =>
    obtain ⟨hs, hnot⟩ := cutOnce_eq_some_iff.1 hcut
    rw [Option.map_some, cutOnce_eq_some_iff, hs]
    exact ⟨trim_append_cons hsep cut.1 cut.2,
      fun hmem => hnot ((List.dropWhile_sublist _).subset hmem)⟩

/-! ## Cutting at every separator -/

/-- The pieces of a list are what `List.splitOnP` gives. -/
theorem pieces_eq_splitOnP {α : Type} (p : α → Bool) (s : List α) : pieces p s = s.splitOnP p := by
  induction s with
  | nil => rw [pieces_nil, List.splitOnP_nil]
  | cons a rest ih => rw [pieces, List.splitOnP_cons_eq_if_modifyHead, ih]

end ContainerUsage.Text
