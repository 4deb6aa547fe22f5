import ContainerUsage.Stat.Error
import ContainerUsage.Text.Utf8
import ContainerUsage.Text.Words
/-!
# Reading a file line by line

A stat file is read from where its handle stands, one line after the other, and a reader stops at
the first line that it refuses.  So a reader is a function from the bytes in front of it to a result
and the bytes that it left unread (`Reader`).  A line ends after a newline or at the end of the
file; it has to be UTF-8, which is looked at only when the line is reached.

`foldLines` runs a step over the lines; `readFirst` reads one line and no more.
-/

namespace ContainerUsage.Stat

/-- Reads from the front of some bytes: the result, and the bytes left unread. -/
abbrev Reader (α : Type) := Bytes → Except ReadError α × Bytes

/-- The byte that ends a line. -/
def newline : UInt8 := 10

/-- The lines of a file, each with the newline that ends it. -/
def lines (content : Bytes) : List Bytes := Text.cutAfter newline content

/-- The characters of a line. -/
def lineText (line : Bytes) : Except ReadError (List Char) :=
  match Utf8.decode? line with
  | some text => .ok text.toList
  | none => .error (.io .invalidText)

/-! ## All lines -/

variable {σ : Type}

/-- Runs a step over lines that are numbered from `number` on.  The first line that is refused ends
the run; the lines after it are not looked at. -/
def foldLines (step : σ → Nat → List Char → Except StatError σ) (state : σ) (number : Nat) :
    List Bytes → Except ReadError σ × List Bytes
  | [] => (.ok state, [])
  | line :: rest =>
    match lineText line with
    | .error e => (.error e, rest)
    | .ok text =>
      match step state number text with
      | .error reason => (.error reason.toReadError, rest)
      | .ok state => foldLines step state (number + 1) rest

/-- Reads all lines by a step. -/
def readLines (step : σ → Nat → List Char → Except StatError σ) (start : σ) : Reader σ :=
  fun content =>
  let run := foldLines step start 1 (lines content)
  (run.1, run.2.flatten)

/-- A run over two parts of a file goes on after the first part, if that is not refused. -/
theorem foldLines_append (step : σ → Nat → List Char → Except StatError σ) (state : σ)
    (number : Nat) (first second : List Bytes) :
    foldLines step state number (first ++ second) =
      match foldLines step state number first with
      | (.ok state, _) => foldLines step state (number + first.length) second
      | (.error e, rest) => (.error e, rest ++ second) := by
  induction first generalizing state number with
  | nil => simp [foldLines]
  | cons line first ih =>
    simp only [List.cons_append, foldLines]
    cases lineText line with
    | error e => rfl
    | ok text =>
      cases hs : step state number text with
      | error reason => simp [hs]
      | ok state =>
        simp only [hs, ih, List.length_cons]
        rw [show number + 1 + first.length = number + (first.length + 1) by omega]

/-! ## One line -/

/-- The first line of a file, which is empty if the file is, and the bytes after it. -/
def splitFirst (content : Bytes) : Bytes × Bytes :=
  match lines content with
  | [] => ([], [])
  | line :: rest => (line, rest.flatten)

/-- Reads the first line without the blanks at its ends. -/
def readFirst {α : Type} (parse : List Char → Except StatError α) : Reader α := fun content =>
  let first := splitFirst content
  match lineText first.1 with
  | .error e => (.error e, first.2)
  | .ok text => ((parse (Text.trim text)).mapError StatError.toReadError, first.2)

end ContainerUsage.Stat
