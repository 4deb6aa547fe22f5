import ContainerUsage.Stat.Lines
/-!
# Files of keys and values

Most stat files hold keys and numbers.  How they are laid out is a `Layout`: whether a key and its
value are two words or one word with a separator in it, how many words at the start of a line are
something else, whether a line holds one pair or many, and whether a key may come twice.  What is
done with a value is given by a `Table`: a list of the known keys, each with the way in which its
value changes what has been read.

`Layout.readWords` goes through the words of a line and reads the pairs as it comes to them: a pair
with an unknown key is ignored, whatever its value; a value that is no number is refused; and so is,
where keys come once, a key that has been read before.
-/

namespace ContainerUsage.Stat

/-- How keys and values are laid out in a file. -/
structure Layout where
  /-- The character between a key and its value; without one they are words of their own. -/
  separator : Option Char
  /-- The number of words at the start of a line that belong to no pair. -/
  skip : Nat
  /-- Whether a key may come more than once. -/
  allowDuplicates : Bool
  /-- Whether a line may hold more than one pair. -/
  multiplePerLine : Bool
  deriving DecidableEq, Repr

/-- The known keys, and how a value under each changes what has been read. -/
abbrev Table (σ : Type) := List (String × (σ → UInt64 → σ))

/-- A key and its value as they are written. -/
abbrev Pair := List Char × List Char

namespace Layout

/-- What has been read so far, and under which keys. -/
structure State (σ : Type) where
  value : σ
  seen : List String

variable {σ : Type}

/-- Reads one pair on a line with a given number. -/
def apply (l : Layout) (table : Table σ) (line : Nat) (state : State σ) (pair : Pair) :
    Except StatError (State σ) :=
  let key := String.ofList pair.1
  match table.lookup key with
  | none => .ok state
  | some change =>
    match Decimal.parse pair.2 with
    | .error cause => .error (.invalidKeyValue key (String.ofList pair.2) line cause)
    | .ok v =>
      if !l.allowDuplicates && state.seen.contains key then .error (.duplicateField key line)
      else .ok ⟨change state.value v, key :: state.seen⟩

/-- Reads the pairs among the words of a line from left to right, up to the first that is
refused. -/
def readWords (l : Layout) (table : Table σ) (line : Nat) (state : State σ) :
    List (List Char) → Except StatError (State σ)
  | [] => .ok state
  | word :: rest =>
    match l.separator with
    | some sep =>
      -- a word without the separator is no pair, but counts as the one that a line may hold
      match (Text.cutOnce sep word).elim (.ok state) (l.apply table line state) with
      | .error reason => .error reason
      | .ok state => if l.multiplePerLine then l.readWords table line state rest else .ok state
    | none =>
      match rest with
      | [] => .ok state
      | value :: rest =>
        match l.apply table line state (word, value) with
        | .error reason => .error reason
        | .ok state => if l.multiplePerLine then l.readWords table line state rest else .ok state

/-- Reads the pairs of a line. -/
def readLine (l : Layout) (table : Table σ) (state : State σ) (line : Nat) (text : List Char) :
    Except StatError (State σ) :=
  l.readWords table line state ((Text.words text).drop l.skip)

/-- Reads a file. -/
def read (l : Layout) (table : Table σ) (start : σ) : Reader σ := fun content =>
  let run := readLines (l.readLine table) ⟨start, []⟩ content
  (run.1.map State.value, run.2)

end Layout

/-- One pair a line, as two words, each key once. -/
def flat : Layout where
  separator := none
  skip := 0
  allowDuplicates := false
  multiplePerLine := false

end ContainerUsage.Stat
