/-!
# Reading from the front of a text

A `Reader` reads something from the front of a text and gives what it has read together with the
rest, or none.  This module has the readers of single characters and of numbers; a number takes all
digits that follow, so it is never cut short to make it fit.
-/

namespace ContainerUsage.Text

/-- Reads something from the front of a text. -/
abbrev Reader (α : Type) := List Char → Option (α × List Char)

namespace Reader

/-- Reads one given character. -/
def char (c : Char) : Reader Unit
  | [] => none
  | d :: rest => if d = c then some ((), rest) else none

/-! ## Numbers -/

/-- The value of a digit in a base up to sixteen. -/
def digit? (base : Nat) (c : Char) : Option Nat :=
  let value :=
    if c.isDigit then some (c.toNat - '0'.toNat)
    else if 'a' ≤ c && c ≤ 'f' then some (c.toNat - 'a'.toNat + 10)
    else if 'A' ≤ c && c ≤ 'F' then some (c.toNat - 'A'.toNat + 10)
    else none
  value.filter (· < base)

/-- How a number may be written. -/
structure NumberForm where
  base : Nat
  /-- The greatest number of digits, if there is one. -/
  maxDigits : Option Nat
  /-- Whether a number of more than one digit may start with a zero. -/
  leadingZero : Bool
  /-- The number is less than this. -/
  bound : Nat

/-- Reads all digits that follow as one number. -/
def number (form : NumberForm) : Reader Nat := fun s =>
  let isDigit (c : Char) := (digit? form.base c).isSome
  let digits := s.takeWhile isDigit
  let value := digits.foldl (fun n c => n * form.base + (digit? form.base c).getD 0) 0
  if digits.isEmpty || form.maxDigits.any (· < digits.length) then none
  else if !form.leadingZero && 1 < digits.length && digits.head? = some '0' then none
  else if value < form.bound then some (value, s.dropWhile isDigit)
  else none

end Reader

end ContainerUsage.Text
