import Mathlib
import ContainerUsage.Proofs.Text.Utf8
import ContainerUsage.Proofs.Text.Words
import ContainerUsage.Stat.Controllers

/-!
# Files that are written line by line

`written` are the bytes of a file with some lines, each of them ended by a newline. A reader meets
these lines one after the other, whatever characters they are made of (`lines_written`).

* `foldLines_written_cons` is one step of a run over such a file.
* `readFirst_written` is the reader of a file with one line; the files with a number
  (`readCurrent_written`) and with a limit (`readLimit_written`, `readLimit_max`) follow from it.
-/

namespace ContainerUsage.Stat

open Text

/-! ## Lines -/

/-- A text that fits on a line. -/
def IsLine (text : String) : Prop := '\n' ∉ text.toList

instance (text : String) : Decidable (IsLine text) :=
  inferInstanceAs (Decidable ('\n' ∉ text.toList))

/-- A text is one line if its parts are. -/
theorem isLine_append {first second : String} :
    IsLine (first ++ second) ↔ IsLine first ∧ IsLine second := by
  rw [IsLine, String.toList_append, List.mem_append, not_or]
  rfl

/-- Texts that fit on a line do so with something between each two of them that fits, too. -/
theorem isLine_intercalate {sep : String} (hsep : IsLine sep) {texts : List String}
    (h : ∀ text ∈ texts, IsLine text) : IsLine (sep.intercalate texts) := by
  induction texts with
  | nil => exact List.not_mem_nil
  | cons text texts ih =>
    rw [List.forall_mem_cons] at h
    cases texts with
    | nil => exact h.1
    | cons next texts =>
      rw [String.intercalate_cons_cons, isLine_append, isLine_append]
      exact ⟨⟨h.1, hsep⟩, ih h.2⟩

/-- A word is one line. -/
theorem isLine_of_isWord {text : String} (h : IsWord text.toList) : IsLine text := by
  intro hmem
  exact absurd (h.2 _ hmem) (by decide)

/-- The bytes of a file with some lines. -/
def written (texts : List String) : Bytes := Utf8.encode (String.join (texts.map (· ++ "\n")))

/-- The bytes of a line with the newline that ends it. -/
theorem encode_append_newline (text : String) :
    Utf8.encode (text ++ "\n") = Utf8.encode text ++ [newline] := by
  rw [Utf8.encode_append]
  rfl

/-- Lines are written with a newline behind each. -/
theorem written_cons (text : String) (texts : List String) :
    written (text :: texts) = Utf8.encode text ++ newline :: written texts := by
  rw [written, List.map_cons, String.join_cons, Utf8.encode_append, encode_append_newline,
    List.append_assoc, List.singleton_append, written]

/-- The lines of a file are those that were written. -/
theorem lines_written {texts : List String} (h : ∀ text ∈ texts, IsLine text) :
    lines (written texts) = texts.map fun text => Utf8.encode (text ++ "\n") := by
  induction texts with
  | nil => rfl
  | cons text texts ih =>
    rw [List.forall_mem_cons] at h
    have hnewline : newline ∉ Utf8.encode text := by
      intro hmem
      exact h.1 ((Utf8.mem_encode_iff (by decide)).1 hmem)
    rw [written_cons, lines, cutAfter_append, cutAfter_concat hnewline, List.map_cons,
      encode_append_newline, ← ih h.2]
    rfl

/-- All lines of a file are ended. -/
def EndsLine (content : Bytes) : Prop := content = [] ∨ ∃ front, content = front ++ [newline]

/-- What is written in lines ends with a newline. -/
theorem endsLine_written (texts : List String) : EndsLine (written texts) := by
  induction texts with
  | nil => exact .inl rfl
  | cons text texts ih =>
    rw [written_cons]
    rcases ih with hnil | ⟨front, hfront⟩
    · exact .inr ⟨Utf8.encode text, by rw [hnil]⟩
    · exact .inr ⟨Utf8.encode text ++ newline :: front, by
        rw [hfront, List.append_assoc, List.cons_append]⟩

/-- Where a file ends with a line, another one can go on with the next. -/
theorem lines_append {first : Bytes} (h : EndsLine first) (second : Bytes) :
    lines (first ++ second) = lines first ++ lines second := by
  rcases h with rfl | ⟨front, rfl⟩
  · rfl
  · rw [List.append_assoc, List.singleton_append]
    exact cutAfter_append newline front second

/-- What holds no newline is one line, unless it is empty. -/
theorem lines_of_notMem {content : Bytes} (h : newline ∉ content) (hne : content ≠ []) :
    lines content = [content] := by
  rw [lines]
  induction content with
  | nil => exact absurd rfl hne
  | cons b rest ih =>
    rw [List.mem_cons, not_or] at h
    rw [cutAfter, if_neg (Ne.symm h.1)]
    rcases rest with - | ⟨next, rest⟩
    · rfl
    · rw [ih h.2 (List.cons_ne_nil _ _)]

/-- A text without its newline is a line, too, unless it is empty. -/
theorem lines_encode {text : String} (h : IsLine text) (hne : text ≠ "") :
    lines (Utf8.encode text) = [Utf8.encode text] := by
  refine lines_of_notMem
    (fun hmem => h ((Utf8.mem_encode_iff (by decide)).1 hmem)) fun hnil => hne ?_
  have hdecode := Utf8.decode?_encode text
  rw [hnil] at hdecode
  exact (Option.some.inj hdecode).symm

/-- A line is read as its text and the newline. -/
theorem lineText_encode (text : String) :
    lineText (Utf8.encode (text ++ "\n")) = .ok (text.toList ++ ['\n']) := by
  rw [lineText, Utf8.decode?_encode]
  dsimp only
  rw [String.toList_append]
  rfl

/-- A run over a file takes its first line, and goes on after it unless that is refused. -/
theorem foldLines_written_cons {σ : Type} (step : σ → Nat → List Char → Except StatError σ)
    (state : σ) (number : Nat) {text : String} {texts : List String}
    (h : ∀ other ∈ text :: texts, IsLine other) :
    foldLines step state number (lines (written (text :: texts))) =
      match step state number (text.toList ++ ['\n']) with
      | .error reason => (.error reason.toReadError, lines (written texts))
      | .ok state => foldLines step state (number + 1) (lines (written texts)) := by
  rw [lines_written h, lines_written (List.forall_mem_cons.1 h).2, List.map_cons]
  cases hstep : step state number (text.toList ++ ['\n']) with
  | error reason => simp only [foldLines, lineText_encode, hstep]
  | ok next => simp only [foldLines, lineText_encode, hstep]

/-! ## One line -/

/-- A file with one line is read as this line without the blanks around it. -/
theorem readFirst_written {α : Type} (parse : List Char → Except StatError α) {text : String}
    (h : IsLine text) : (readFirst parse (written [text])).1 =
      (parse (trim text.toList)).mapError StatError.toReadError := by
  rw [readFirst, splitFirst, lines_written (List.forall_mem_singleton.2 h), List.map_singleton]
  dsimp only
  rw [lineText_encode]
  dsimp only
  rw [trim_concat (by decide)]

/-- The digits of a number are a word. -/
theorem isWord_digits (n : Nat) : IsWord (Decimal.digits n) := by
  refine ⟨Decimal.digits_ne_nil n, fun c hc => ?_⟩
  have hdigit : 48 ≤ c.toNat ∧ c.toNat ≤ 57 :=
    Char.isDigit_iff_toNat.1 (Decimal.isDigit_of_mem_digits hc)
  simp only [isBlank, blankRanges, List.any_cons, List.any_nil, Bool.or_false, Bool.or_eq_false_iff,
    Bool.and_eq_false_iff, decide_eq_false_iff_not]
  omega

/-- There is nothing to trim about digits. -/
theorem trim_digits (n : Nat) : trim (Decimal.digits n) = Decimal.digits n := by
  have hword := isWord_digits n
  refine trim_of_not_blank ?_ ?_
  · intro c hc
    exact hword.2 c (List.mem_of_mem_head? hc)
  · intro c hc
    exact hword.2 c (List.mem_of_getLast? hc)

/-- The text of a number fits on a line. -/
theorem isLine_print (n : Nat) : IsLine (Decimal.print n) := by
  apply isLine_of_isWord
  rw [Decimal.toList_print]
  exact isWord_digits n

/-- The digits of a number are read as the number. -/
theorem parseValue_digits (n : UInt64) : parseValue (Decimal.digits n.toNat) = .ok n := by
  rw [parseValue, Decimal.parse_digits]
  rfl

/-- A number on a line of its own is read back. -/
theorem readCurrent_written (n : UInt64) :
    (readCurrent (written [Decimal.print n.toNat])).1 = .ok n := by
  rw [readCurrent, readFirst_written _ (isLine_print _), Decimal.toList_print, trim_digits,
    parseValue_digits]
  rfl

/-- So is a limit. -/
theorem readLimit_written (n : UInt64) :
    (readLimit (written [Decimal.print n.toNat])).1 = .ok (some n) := by
  have hmax : Decimal.digits n.toNat ≠ ['m', 'a', 'x'] := by
    intro h
    have hdigit : 'm'.isDigit = true :=
      Decimal.isDigit_of_mem_digits (h ▸ List.mem_cons_self)
    exact absurd hdigit (by decide)
  rw [readLimit, readFirst_written _ (isLine_print _), Decimal.toList_print,
    trim_digits, parseLimit, if_neg hmax, parseValue_digits]
  rfl

/-- The text `max` is no limit. -/
theorem readLimit_max : (readLimit (written ["max"])).1 = .ok none := by
  rw [readLimit, readFirst_written _ (by decide)]
  rfl

end ContainerUsage.Stat
