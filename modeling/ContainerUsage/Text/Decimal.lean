/-!
# Decimal numbers of 64 bits

The counters of a stat file are written in decimal.  A number may have one leading `+` and any
number of leading zeros, and has to fit in 64 bits.  `parse` reads its characters from the left and
reports the first problem it meets: for each character first whether it is a digit, and then
whether the number with that digit is still small enough.  So a number that grows too large before
a stray character is too large, and one with a stray character first is not a number.

`print` is the plain decimal text of a number, and `parse_print` says that it is read back.
-/

namespace ContainerUsage

namespace Decimal

/-- Why a text is no decimal number of 64 bits. -/
inductive Error where
  /-- There is no character at all. -/
  | empty
  /-- Some character is not a digit, or there is a sign and no digit. -/
  | invalidDigit
  /-- The digits so far denote a number of more than 64 bits. -/
  | overflow
  deriving DecidableEq, Repr

/-- The text of an error. -/
def Error.message : Error → String
  | .empty => "cannot parse integer from empty string"
  | .invalidDigit => "invalid digit found in string"
  | .overflow => "number too large to fit in target type"

/-- The value of a decimal digit. -/
def digit? (c : Char) : Option Nat :=
  if c.isDigit then some (c.toNat - '0'.toNat) else none

/-- Appends digits to the number `value`, as long as it stays below `UInt64.size`. -/
def readDigits (value : Nat) : List Char → Except Error Nat
  | [] => .ok value
  | c :: rest =>
    match digit? c with
    | none => .error .invalidDigit
    | some d =>
      if value * 10 + d < UInt64.size then readDigits (value * 10 + d) rest else .error .overflow

/-- Reads a decimal number of 64 bits with at most one leading `+`. -/
def parse (s : List Char) : Except Error UInt64 :=
  match s with
  | [] => .error .empty
  | ['+'] => .error .invalidDigit
  | '+' :: digits => (readDigits 0 digits).map Nat.toUInt64
  | digits => (readDigits 0 digits).map Nat.toUInt64

/-- The decimal digits of a number, without leading zeros. -/
def digits (n : Nat) : List Char := Nat.toDigits 10 n

/-- The decimal text of a number. -/
def print (n : Nat) : String := String.ofList (digits n)

@[simp] theorem toList_print (n : Nat) : (print n).toList = digits n := String.toList_ofList

/-! ## Reading what is printed -/

/-- A digit stands for its distance from the character 0. -/
theorem digit?_of_isDigit {c : Char} (h : c.isDigit = true) :
    digit? c = some (c.toNat - '0'.toNat) := by
  simp [digit?, h]

/-- Digits are read as the number that they denote, if that number has at most 64 bits. -/
theorem readDigits_of_isDigit {ds : List Char} {value : Nat} (hd : ∀ c ∈ ds, c.isDigit = true)
    (hv : Nat.ofDigitChars 10 ds value < UInt64.size) :
    readDigits value ds = .ok (Nat.ofDigitChars 10 ds value) := by
  induction ds generalizing value with
  | nil => rfl
  | cons c rest ih =>
    rw [Nat.ofDigitChars_cons, Nat.mul_comm 10 value] at hv
    have hc : value * 10 + (c.toNat - '0'.toNat) < UInt64.size := by
      rw [Nat.ofDigitChars_eq_ofDigitChars_zero] at hv
      have : value * 10 + (c.toNat - '0'.toNat) ≤
          10 ^ rest.length * (value * 10 + (c.toNat - '0'.toNat)) :=
        Nat.le_mul_of_pos_left _ (Nat.pow_pos (by decide))
      omega
    rw [readDigits, digit?_of_isDigit (hd c List.mem_cons_self)]
    simp only [if_pos hc]
    rw [ih (fun d h => hd d (List.mem_cons_of_mem _ h)) hv, Nat.ofDigitChars_cons,
      Nat.mul_comm 10 value]

/-- Digits are all that a number is written with. -/
theorem isDigit_of_mem_digits {n : Nat} {c : Char} (h : c ∈ digits n) : c.isDigit = true :=
  Nat.isDigit_of_mem_toDigits (by decide) (by decide) h

/-- Every number has a digit. -/
theorem digits_ne_nil (n : Nat) : digits n ≠ [] := Nat.toDigits_ne_nil

/-- What is printed is read back. -/
theorem parse_digits (v : UInt64) : parse (digits v.toNat) = .ok v := by
  have hread : readDigits 0 (digits v.toNat) = .ok v.toNat := by
    have h := Nat.ofDigitChars_ten_toDigits (n := v.toNat)
    rw [readDigits_of_isDigit (fun c => isDigit_of_mem_digits), digits, h]
    rw [digits, h]
    exact v.toNat_lt_size
  have hplus : '+' ∉ digits v.toNat := fun h => absurd (isDigit_of_mem_digits h) (by decide)
  unfold parse
  split
  · next he => exact absurd he (digits_ne_nil _)
  · next he => exact absurd (he ▸ List.mem_cons_self) hplus
  · next he => exact absurd (he ▸ List.mem_cons_self) hplus
  · simp [hread, Except.map]

end Decimal

end ContainerUsage
