import Mathlib
import ContainerUsage.Stat.KeyValue

/-!
# The pairs of a line

The words of a line are read in one loop that serves every layout. `Layout.pairs` says which pairs
it comes to, without the loop: each word cut once at the separator, or each two words, and of these
only the first where a line holds one pair.

* `readWords_eq_applyAll` is the loop as a run over the pairs, by induction over the words.
* `readLine_eq_applyAll` is this for a whole line.
-/

namespace ContainerUsage.Stat

/-- Takes words two by two; an odd one at the end is dropped. -/
def inTwos : List (List Char) → List Pair
  | key :: value :: rest => (key, value) :: inTwos rest
  | _ => []

namespace Layout

variable {σ : Type}

/-- The pairs of a line.  A word without the separator is no pair, but counts as the one that a line
may hold. -/
def pairs (l : Layout) (line : List Char) : List Pair :=
  let ws := (Text.words line).drop l.skip
  match l.separator with
  | some sep => (if l.multiplePerLine then ws else ws.take 1).filterMap (Text.cutOnce sep)
  | none => if l.multiplePerLine then inTwos ws else (inTwos ws).take 1

/-- Reads pairs in order, up to the first that is refused. -/
def applyAll (l : Layout) (table : Table σ) (line : Nat) (state : State σ) :
    List Pair → Except StatError (State σ)
  | [] => .ok state
  | pair :: rest =>
    match l.apply table line state pair with
    | .error reason => .error reason
    | .ok state => l.applyAll table line state rest

variable (l : Layout) (table : Table σ) (line : Nat)

/-- Words with a separator in them are read as the pairs that it cuts them into. -/
theorem readWords_of_separator {sep : Char} (hsep : l.separator = some sep) (ws : List (List Char))
    (state : State σ) : l.readWords table line state ws = l.applyAll table line state
      ((if l.multiplePerLine then ws else ws.take 1).filterMap (Text.cutOnce sep)) := by
  induction ws generalizing state with
  | nil => cases l.multiplePerLine <;> simp [readWords, applyAll]
  | cons word ws ih =>
    rw [readWords.eq_def, hsep]
    dsimp only
    cases hcut : Text.cutOnce sep word with
    | none =>
      -- no pair: the loop goes on, or ends, with what it has
      cases hmultiple : l.multiplePerLine with
      | true => simpa [hmultiple, hcut] using ih state
      | false => simp [hcut, applyAll]
    | some pair =>
      cases hmultiple : l.multiplePerLine with
      | true =>
        simp only [hmultiple, if_true] at ih
        cases happly : l.apply table line state pair with
        | error reason => simp [hcut, applyAll, happly]
        | ok next => simp [hcut, applyAll, happly, ih]
      | false => cases happly : l.apply table line state pair <;> simp [hcut, applyAll, happly]

/-- Words without a separator are read two by two. -/
theorem readWords_of_none (hsep : l.separator = none) (ws : List (List Char)) (state : State σ) :
    l.readWords table line state ws = l.applyAll table line state
      (if l.multiplePerLine then inTwos ws else (inTwos ws).take 1) := by
  induction ws using inTwos.induct generalizing state with
  | case1 key value rest ih =>
    rw [readWords.eq_def, hsep]
    dsimp only
    cases hmultiple : l.multiplePerLine with
    | true =>
      simp only [hmultiple, if_true] at ih
      cases happly : l.apply table line state (key, value) with
      | error reason => simp [inTwos, applyAll, happly]
      | ok next => simp [inTwos, applyAll, happly, ih]
    | false =>
      cases happly : l.apply table line state (key, value) <;> simp [inTwos, applyAll, happly]
  | case2 ws hshort =>
    -- a key without a value
    cases ws with
    | nil => cases l.multiplePerLine <;> rfl
    | cons key rest =>
      cases rest with
      | nil =>
        cases hmultiple : l.multiplePerLine <;> simp [readWords.eq_def, hsep, inTwos, applyAll]
      | cons value rest => exact absurd rfl (hshort key value rest)

/-- **Reading a line is reading its pairs in order**, whatever the layout. -/
theorem readLine_eq_applyAll (state : State σ) (text : List Char) :
    l.readLine table state line text = l.applyAll table line state (l.pairs text) := by
  rw [readLine, pairs]
  cases hsep : l.separator with
  | none => exact l.readWords_of_none table line hsep _ state
  | some sep => exact l.readWords_of_separator table line hsep _ state

end Layout

end ContainerUsage.Stat
