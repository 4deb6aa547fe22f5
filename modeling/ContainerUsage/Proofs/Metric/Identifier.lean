import Mathlib
import ContainerUsage.Metric.Descriptor

/-!
# Names as identifiers

Names of metrics and names of labels are identifiers, the ones with `:` and the others without it.
Both are checked character by character, the first one apart from the rest; `isMetricName_iff` and
`isLabelName_iff` say the same of the text as a whole.
-/

namespace ContainerUsage

/-- A text of letters, digits and some further characters that does not start with a digit. -/
structure IsIdentifier (further text : List Char) : Prop where
  chars : ∀ c ∈ text, c.isAlphanum = true ∨ c ∈ further
  start : ∀ c, text.head? = some c → c.isDigit = false

/-- A letter is no digit. -/
theorem isDigit_of_isAlpha {c : Char} (h : c.isAlpha = true) : c.isDigit = false := by
  simp only [Char.isAlpha, Char.isUpper, Char.isLower, Bool.or_eq_true, Bool.and_eq_true,
    decide_eq_true_eq] at h
  simp only [Char.isDigit, Bool.and_eq_false_iff, decide_eq_false_iff_not]
  grind

/-- Where the further characters are no digits, an identifier starts with a letter or one of
them. -/
theorem isIdentifier_cons_iff {further : List Char}
    (hfurther : ∀ c ∈ further, c.isDigit = false) {c : Char}
    {rest : List Char} : IsIdentifier further (c :: rest) ↔
      (c.isAlpha = true ∨ c ∈ further) ∧ ∀ c ∈ rest, c.isAlphanum = true ∨ c ∈ further := by
  constructor
  · rintro ⟨hchars, hstart⟩
    obtain ⟨hfirst, hrest⟩ := List.forall_mem_cons.1 hchars
    refine ⟨hfirst.imp_left fun h => ?_, hrest⟩
    simpa [Char.isAlphanum, hstart c rfl] using h
  · rintro ⟨hfirst, hrest⟩
    refine ⟨List.forall_mem_cons.2 ⟨hfirst.imp_left fun h => by simp [Char.isAlphanum, h], hrest⟩,
      ?_⟩
    rintro first hhead
    obtain rfl := Option.some.inj hhead
    exact hfirst.elim isDigit_of_isAlpha (hfurther c)

/-- A name of a label is an identifier. -/
theorem isLabelName_iff {name : String} :
    isLabelName name = true ↔ name ≠ "" ∧ IsIdentifier ['_'] name.toList := by
  rw [isLabelName, ne_eq, ← String.toList_eq_nil_iff]
  cases name.toList with
  | nil => simp
  | cons c rest =>
    rw [isIdentifier_cons_iff (by simp)]
    simp [isLabelChar, isLabelStart, Char.isAlphanum, or_right_comm]

/-- A name of a metric is one too, where `:` counts as a letter. -/
theorem isMetricName_iff {name : String} :
    isMetricName name = true ↔ name ≠ "" ∧ IsIdentifier ['_', ':'] name.toList := by
  rw [isMetricName, ne_eq, ← String.toList_eq_nil_iff]
  cases name.toList with
  | nil => simp
  | cons c rest =>
    rw [isIdentifier_cons_iff (by simp)]
    simp [isLabelChar, isLabelStart, Char.isAlphanum, or_assoc, or_left_comm, or_comm]

end ContainerUsage
