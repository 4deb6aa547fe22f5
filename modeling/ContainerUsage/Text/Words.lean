import ContainerUsage.Text.Pieces
/-!
# Blank characters, words and trimming

A line of a stat file is read as the words between its blank characters, and a scalar or a label is
read with the blanks at both of its ends taken off.  *Blank* is the Unicode property `White_Space`:
twenty-five characters, of which six are ASCII.  The zero-width characters and the information
separators are not among them.

Everything about `words` follows from two facts: a blank ends a word (`words_append_cons`), and a
non-empty run without blanks is one word (`words_of_forall`).
-/

namespace ContainerUsage.Text

/-! ## The blank characters -/

/-- The code points with the property `White_Space`, as ranges with both ends included. -/
def blankRanges : List (Nat × Nat) :=
  [(0x09, 0x0D), (0x20, 0x20), (0x85, 0x85), (0xA0, 0xA0), (0x1680, 0x1680), (0x2000, 0x200A),
    (0x2028, 0x2029), (0x202F, 0x202F), (0x205F, 0x205F), (0x3000, 0x3000)]

/-- Whether a character is blank. -/
def isBlank (c : Char) : Bool :=
  blankRanges.any fun range => range.1 ≤ c.toNat && c.toNat ≤ range.2

/-- The ranges hold twenty-five characters. -/
example : (blankRanges.map fun range => range.2 + 1 - range.1).sum = 25 := by decide

/-- Every character that core's ASCII class counts as white space is blank. -/
theorem isBlank_of_isWhitespace {c : Char} (h : c.isWhitespace = true) : isBlank c = true := by
  simp only [Char.isWhitespace, Bool.or_eq_true, decide_eq_true_eq] at h
  rcases h with ((rfl | rfl) | rfl) | rfl <;> decide

example : isBlank '\x0b' ∧ isBlank '\u0085' ∧ isBlank '\u3000' := by decide
example : isBlank '\u200b' = false ∧ isBlank '\ufeff' = false ∧ isBlank '\x1f' = false := by decide

/-! ## Words -/

/-- The words of a text: its non-empty pieces between blanks. -/
def words (s : List Char) : List (List Char) :=
  (pieces isBlank s).filter (!·.isEmpty)

@[simp] theorem words_nil : words [] = [] := rfl

/-- A word is not empty and holds no blank. -/
theorem mem_words {s w : List Char} (h : w ∈ words s) : w ≠ [] ∧ ∀ c ∈ w, isBlank c = false := by
  obtain ⟨hw, hne⟩ := List.mem_filter.1 h
  exact ⟨by simpa using hne, fun c hc => not_separator_of_mem_pieces hw hc⟩

/-- A blank ends a word. -/
theorem words_append_cons {c : Char} (hc : isBlank c = true) (s t : List Char) :
    words (s ++ c :: t) = words s ++ words t := by
  simp [words, pieces_append_cons s t hc]

/-- A run without blanks is one word, unless it is empty. -/
theorem words_of_forall {s : List Char} (h : ∀ c ∈ s, isBlank c = false) (hne : s ≠ []) :
    words s = [s] := by
  simp [words, pieces_of_forall h, hne]

/-! ## Trimming -/

/-- A text without the blanks at its start. -/
def trimStart (s : List Char) : List Char := s.dropWhile isBlank

/-- A text without the blanks at its end. -/
def trimEnd (s : List Char) : List Char := (s.reverse.dropWhile isBlank).reverse

/-- A text without the blanks at both of its ends. -/
def trim (s : List Char) : List Char := trimEnd (trimStart s)

/-- A text that neither starts nor ends with a blank is left alone. -/
theorem trim_of_not_blank {s : List Char} (hs : ∀ c, s.head? = some c → isBlank c = false)
    (he : ∀ c, s.getLast? = some c → isBlank c = false) : trim s = s := by
  have key : ∀ t : List Char, (∀ c, t.head? = some c → isBlank c = false) →
      t.dropWhile isBlank = t := by
    intro t ht
    cases t with
    | nil => rfl
    | cons c t => simp [List.dropWhile, ht c rfl]
  rw [trim, trimStart, key s hs, trimEnd, key s.reverse fun c hc => he c (by simpa using hc),
    List.reverse_reverse]

end ContainerUsage.Text
