import Mathlib
import ContainerUsage.Text.Words

/-!
# Words that are written with blanks between them

What a line is read as does not depend on the blanks at its end (`trim_concat`), and words that were
written with a blank after each are read again (`words_intercalate`).
-/

namespace ContainerUsage.Text

/-- A text that is one word. -/
def IsWord (w : List Char) : Prop := w ≠ [] ∧ ∀ c ∈ w, isBlank c = false

instance (w : List Char) : Decidable (IsWord w) :=
  decidable_of_iff (w ≠ [] ∧ w.all (!isBlank ·) = true) (by simp [IsWord])

/-- Two words with nothing between them are one. -/
theorem IsWord.append {v w : List Char} (hv : IsWord v) (hw : IsWord w) : IsWord (v ++ w) := by
  refine ⟨List.append_ne_nil_of_left_ne_nil hv.1 w, fun c hc => ?_⟩
  rcases List.mem_append.1 hc with hc | hc
  · exact hv.2 c hc
  · exact hw.2 c hc

/-- A blank at the end does not matter. -/
theorem trim_concat {c : Char} (hc : isBlank c = true) (s : List Char) :
    trim (s ++ [c]) = trim s := by
  have hend : ∀ t : List Char, trimEnd (t ++ [c]) = trimEnd t := by
    intro t
    rw [trimEnd, List.reverse_concat, List.dropWhile_cons_of_pos hc, trimEnd]
  rw [trim, trim, trimStart, List.dropWhile_append]
  by_cases hblank : (s.dropWhile isBlank).isEmpty
  · rw [if_pos hblank, trimStart, List.isEmpty_iff.1 hblank, List.dropWhile_cons_of_pos hc,
      List.dropWhile_nil]
  · rw [if_neg hblank, hend, trimStart]

/-- The first word of a text ends at the first blank. -/
theorem IsWord.words_append_cons {w : List Char} (h : IsWord w) {c : Char} (hc : isBlank c = true)
    (s : List Char) : words (w ++ c :: s) = w :: words s := by
  rw [Text.words_append_cons hc, words_of_forall h.2 h.1]
  rfl

/-- Words are read from a line on which they stand with a blank between each two. -/
theorem words_intercalate {ws : List (List Char)} (h : ∀ w ∈ ws, IsWord w) :
    words ([' '].intercalate ws ++ ['\n']) = ws := by
  have hspace : isBlank ' ' = true := by decide
  have hnewline : isBlank '\n' = true := by decide
  induction ws with
  | nil => rfl
  | cons w ws ih =>
    rw [List.forall_mem_cons] at h
    cases ws with
    | nil => rw [List.intercalate_singleton, h.1.words_append_cons hnewline, words_nil]
    | cons next ws =>
      rw [List.intercalate_cons_cons, List.append_assoc, List.append_assoc, List.singleton_append,
        h.1.words_append_cons hspace, ih h.2]

end ContainerUsage.Text
