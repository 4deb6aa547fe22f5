import Mathlib
import ContainerUsage.Numeric.Double

/-!
# Rounding and printing keep the order

Counters are rounded to double precision and printed by few digits, and neither makes a greater
number the lesser one. Numbers with equally many excess bits are rounded to multiples of one unit,
and there it is enough to compare quotients (`nearestQuotient_mono`). Otherwise there is a power of
two between them that rounding does not cross (`nearestDouble_le`, `le_nearestDouble`).

What is printed of a double rounds to it, so `Double.shortest_mono` follows from
`nearestDouble_mono` alone, whatever the search for few digits comes to.
-/

namespace ContainerUsage

/-! ## Rounding -/

/-- Rounding a quotient does not go below its floor. -/
theorem div_le_nearestQuotient (n unit : ℕ) : n / unit ≤ nearestQuotient n unit := by
  unfold nearestQuotient
  dsimp only
  split_ifs <;> omega

/-- A greater number has no lesser quotient. -/
theorem nearestQuotient_mono {m n : ℕ} (h : m ≤ n) (unit : ℕ) :
    nearestQuotient m unit ≤ nearestQuotient n unit := by
  rcases (Nat.div_le_div_right (c := unit) h).lt_or_eq with hlt | heq
  · calc nearestQuotient m unit ≤ m / unit + 1 := nearestQuotient_le m unit
      _ ≤ n / unit := hlt
      _ ≤ nearestQuotient n unit := div_le_nearestQuotient n unit
  · -- between the same two multiples the remainders decide
    have hmod : m % unit ≤ n % unit := by
      have hm := Nat.div_add_mod m unit
      have hn := Nat.div_add_mod n unit
      rw [heq] at hm
      omega
    unfold nearestQuotient
    dsimp only
    rw [heq]
    split_ifs <;> omega

/-- The spacing of doubles is a power of two. -/
theorem spacing_eq (n : ℕ) : spacing n = 2 ^ excessBits n := Nat.one_shiftLeft _

/-- Greater numbers have no fewer bits in excess. -/
theorem excessBits_mono {m n : ℕ} (h : m ≤ n) : excessBits m ≤ excessBits n := by
  have hlog : m.log2 ≤ n.log2 := by
    rw [Nat.log2_eq_log_two, Nat.log2_eq_log_two]
    exact Nat.log_mono_right h
  unfold excessBits
  omega

/-- The quotient by the spacing has 53 bits, or is the power of two behind them. -/
theorem nearestQuotient_spacing_le (n : ℕ) : nearestQuotient n (spacing n) ≤ 2 ^ 53 := by
  have hlt : n < spacing n * 2 ^ 53 := by
    have := lt_mul_spacing n
    rwa [Nat.one_shiftLeft, Nat.mul_comm] at this
  have hdiv : n / spacing n < 2 ^ 53 := Nat.div_lt_of_lt_mul hlt
  exact (nearestQuotient_le _ _).trans hdiv

/-- A number with excess bits has 53 bits before them. -/
theorem two_pow_mul_spacing_le {n : ℕ} (h : 0 < excessBits n) : 2 ^ 52 * spacing n ≤ n := by
  have hlog : n.log2 = 52 + excessBits n := by
    unfold excessBits at h ⊢
    omega
  have hne : n ≠ 0 := by
    rintro rfl
    simp [excessBits] at h
  rw [spacing_eq, ← pow_add, ← hlog]
  exact Nat.log2_self_le hne

/-- Rounding goes up to the next power of two at most. -/
theorem nearestDouble_le (n : ℕ) : nearestDouble n ≤ 2 ^ (53 + excessBits n) := by
  rw [nearestDouble, pow_add, ← spacing_eq]
  exact Nat.mul_le_mul_right _ (nearestQuotient_spacing_le n)

/-- Rounding goes down to the last power of two at most. -/
theorem le_nearestDouble {n : ℕ} (h : 0 < excessBits n) :
    2 ^ (52 + excessBits n) ≤ nearestDouble n := by
  have hle := (Nat.le_div_iff_mul_le (spacing_pos n)).2 (two_pow_mul_spacing_le h)
  calc 2 ^ (52 + excessBits n) = 2 ^ 52 * spacing n := by rw [pow_add, spacing_eq]
    _ ≤ n / spacing n * spacing n := Nat.mul_le_mul_right _ hle
    _ ≤ nearestDouble n := Nat.mul_le_mul_right _ (div_le_nearestQuotient n (spacing n))

/-- **Rounding keeps the order.** -/
theorem nearestDouble_mono {m n : ℕ} (h : m ≤ n) : nearestDouble m ≤ nearestDouble n := by
  rcases (excessBits_mono h).lt_or_eq with hlt | heq
  · -- there is a power of two between the numbers
    calc nearestDouble m ≤ 2 ^ (53 + excessBits m) := nearestDouble_le m
      _ ≤ 2 ^ (52 + excessBits n) := Nat.pow_le_pow_right (by decide) (by omega)
      _ ≤ nearestDouble n := le_nearestDouble (by omega)
  · have hspacing : spacing m = spacing n := by rw [spacing_eq, spacing_eq, heq]
    rw [nearestDouble, nearestDouble, hspacing]
    exact Nat.mul_le_mul_right _ (nearestQuotient_mono h _)

/-! ## Printing -/

/-- A text is a number in decimal digits. -/
structure Decimal.Denotes (text : String) (n : ℕ) : Prop where
  ne_nil : text.toList ≠ []
  isDigit : ∀ c ∈ text.toList, c.isDigit = true
  value_eq : Nat.ofDigitChars 10 text.toList 0 = n

/-- What is printed for a number denotes it. -/
theorem Decimal.denotes_print (n : ℕ) : Denotes (print n) n where
  ne_nil := by
    rw [toList_print]
    exact digits_ne_nil n
  isDigit := by
    rw [toList_print]
    exact fun c => isDigit_of_mem_digits
  value_eq := by
    rw [toList_print]
    exact Nat.ofDigitChars_ten_toDigits

namespace Double

/-- Rounding to double precision keeps the order. -/
theorem toNat_ofUInt64_mono {v w : UInt64} (h : v ≤ w) : (ofUInt64 v).toNat ≤ (ofUInt64 w).toNat :=
  nearestDouble_mono h

/-- **Printing keeps the order.** -/
theorem shortest_mono {x y : Double} (h : x.toNat ≤ y.toNat) : x.shortest ≤ y.shortest := by
  by_contra hlt
  have hle := nearestDouble_mono (Nat.le_of_not_le hlt)
  rw [nearestDouble_shortest, nearestDouble_shortest] at hle
  have heq : x = y := Double.ext (le_antisymm h hle)
  exact hlt (heq ▸ le_rfl)

end Double

end ContainerUsage
