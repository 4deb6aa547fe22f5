import ContainerUsage.Text.Decimal
/-!
# Whole numbers in double precision

Samples are exposed as doubles, and every one of them is a counter of 64 bits that was rounded to
double precision: to 53 significant bits, to the nearest such number, and halfway between two to the
one with an even last bit.  A `Double` is a whole number that is left alone by that rounding.
Numbers of at most 53 bits are all there; above, only some multiples of powers of two are
(`nearestDouble_nearestDouble`).

A double is printed by the fewest significant digits that still round to it, the nearest such number
if there are two, and zeros up to the decimal point: `18446744073709551615` becomes
`18446744073709552000`.  The printer goes through the powers of ten from the greatest one down, and
of the multiples of each it has to look only at the two next to the number.
-/

namespace ContainerUsage

/-! ## Rounding -/

/-- The whole number nearest to `n / unit`, and of two such numbers the even one. -/
def nearestQuotient (n unit : Nat) : Nat :=
  let q := n / unit
  let r := n % unit
  if 2 * r < unit then q else if unit < 2 * r then q + 1 else if q % 2 = 0 then q else q + 1

/-- The number of low bits of `n` that 53 significant bits have no room for. -/
def excessBits (n : Nat) : Nat := n.log2 + 1 - 53

/-- The distance between the numbers of 53 significant bits around `n`. -/
def spacing (n : Nat) : Nat := 1 <<< excessBits n

/-- The number of 53 significant bits that is nearest to `n`. -/
def nearestDouble (n : Nat) : Nat := nearestQuotient n (spacing n) * spacing n

/-- The spacing is positive. -/
theorem spacing_pos (n : Nat) : 0 < spacing n := by
  rw [spacing, Nat.one_shiftLeft]
  exact Nat.pow_pos (by decide)

/-- A multiple is its own nearest multiple. -/
theorem nearestQuotient_mul {q unit : Nat} (h : 0 < unit) :
    nearestQuotient (q * unit) unit = q := by
  simp [nearestQuotient, Nat.mul_div_cancel _ h, h]

/-- A multiple of the spacing around it is left alone. -/
theorem nearestDouble_eq_self {n : Nat} (h : spacing n ∣ n) : nearestDouble n = n := by
  obtain ⟨q, hq⟩ := h
  have := nearestQuotient_mul (q := q) (spacing_pos n)
  rw [Nat.mul_comm q, ← hq] at this
  rw [nearestDouble, this, Nat.mul_comm, ← hq]

/-- Numbers of at most 53 bits are left alone. -/
theorem nearestDouble_of_lt {n : Nat} (h : n < 1 <<< 53) : nearestDouble n = n := by
  have : excessBits n = 0 := by
    unfold excessBits
    by_cases hn : n = 0
    · simp [hn]
    · have : n.log2 < 53 := (Nat.log2_lt hn).2 h
      omega
  exact nearestDouble_eq_self (by simp [spacing, this])

/-- A number has at most 53 bits above the spacing. -/
theorem lt_mul_spacing (n : Nat) : n < (1 <<< 53) * spacing n := by
  have h : n < 2 ^ (n.log2 + 1) := Nat.lt_log2_self
  rw [spacing, Nat.one_shiftLeft, Nat.one_shiftLeft, ← Nat.pow_add]
  refine Nat.lt_of_lt_of_le h (Nat.pow_le_pow_right (by decide) ?_)
  unfold excessBits
  omega

/-- Rounding goes up by one at most. -/
theorem nearestQuotient_le (n unit : Nat) : nearestQuotient n unit ≤ n / unit + 1 := by
  unfold nearestQuotient
  simp only
  repeat' split
  all_goals omega

/-- Rounding a rounded number changes nothing. -/
theorem nearestDouble_nearestDouble (n : Nat) :
    nearestDouble (nearestDouble n) = nearestDouble n := by
  apply nearestDouble_eq_self
  have hq : nearestQuotient n (spacing n) ≤ 2 ^ 53 := by
    have := Nat.div_lt_of_lt_mul (by simpa [Nat.mul_comm] using lt_mul_spacing n :
      n < spacing n * 2 ^ 53)
    have := nearestQuotient_le n (spacing n)
    omega
  have hmq : nearestDouble n = nearestQuotient n (spacing n) * 2 ^ excessBits n := by
    rw [nearestDouble, spacing, Nat.one_shiftLeft]
  generalize nearestDouble n = m at hmq
  generalize nearestQuotient n (spacing n) = q at hq hmq
  generalize excessBits n = e at hmq
  rw [spacing, Nat.one_shiftLeft]
  rcases Nat.lt_or_eq_of_le hq with hlt | rfl
  · have hbits : excessBits m ≤ e := by
      unfold excessBits
      by_cases h0 : m = 0
      · simp [h0]
      · have hm' : m < 2 ^ (53 + e) := by
          rw [hmq, Nat.pow_add]
          exact Nat.mul_lt_mul_of_pos_right hlt (Nat.pow_pos (by decide))
        have := (Nat.log2_lt h0).2 hm'
        omega
    rw [hmq] at hbits ⊢
    exact Nat.dvd_trans (Nat.pow_dvd_pow 2 hbits) (Nat.dvd_mul_left _ _)
  · have hm' : m = 2 ^ (53 + e) := by rw [hmq, Nat.pow_add]
    have hbits : excessBits m = e + 1 := by
      unfold excessBits
      rw [hm', Nat.log2_two_pow]
      omega
    rw [hbits, hm']
    exact Nat.pow_dvd_pow 2 (by omega)

/-- A whole number of at most 53 significant bits. -/
structure Double where
  toNat : Nat
  nearest_toNat : nearestDouble toNat = toNat

namespace Double

/-- Doubles are equal if the numbers are. -/
@[ext] theorem ext {x y : Double} (h : x.toNat = y.toNat) : x = y := by
  cases x; cases y; simp_all

instance : DecidableEq Double := fun x y =>
  decidable_of_iff (x.toNat = y.toNat) ⟨Double.ext, fun h => h ▸ rfl⟩

/-- A counter in double precision. -/
def ofUInt64 (v : UInt64) : Double := ⟨nearestDouble v.toNat, nearestDouble_nearestDouble _⟩

@[simp] theorem toNat_ofUInt64 (v : UInt64) : (ofUInt64 v).toNat = nearestDouble v.toNat := rfl

/-! ## Printing -/

/-- The multiple of `unit` that rounds to `n` and is nearest to it, if there is one. -/
def multiple? (n unit : Nat) : Option Nat :=
  let below := n / unit * unit
  let above := below + unit
  if nearestDouble below = n then
    if nearestDouble above = n && above - n < n - below then some above else some below
  else if nearestDouble above = n then some above
  else none

/-- A power of ten. -/
def powerOfTen : (exponent : Nat) → Nat
  | 0 => 1
  | exponent + 1 => 10 * powerOfTen exponent

/-- The multiple that rounds to `n` of the greatest power of ten with an exponent up to `exponent`
that has one. -/
def shortestFrom (n : Nat) : (exponent : Nat) → Nat
  | 0 => n
  | exponent + 1 => (multiple? n (powerOfTen (exponent + 1))).getD (shortestFrom n exponent)

/-- The number with the fewest significant digits that rounds to the double. -/
def shortest (x : Double) : Nat := shortestFrom x.toNat (Decimal.digits x.toNat).length

/-- The text of a double. -/
def print (x : Double) : String := Decimal.print x.shortest

/-- What is printed rounds to the double. -/
theorem nearestDouble_shortest (x : Double) : nearestDouble x.shortest = x.toNat := by
  unfold shortest
  generalize (Decimal.digits x.toNat).length = exponent
  induction exponent with
  | zero => exact x.nearest_toNat
  | succ exponent ih =>
    rw [shortestFrom]
    cases hm : multiple? x.toNat (powerOfTen (exponent + 1)) with
    | none => exact ih
    | some w =>
      simp only [multiple?] at hm
      repeat' split at hm
      all_goals simp_all

example : (ofUInt64 18446744073709551615).shortest = 18446744073709552000 := by decide +kernel
example : (ofUInt64 72057594037927936).shortest = 72057594037927940 := by decide +kernel
example : (ofUInt64 9007199254740993).shortest = 9007199254740992 := by decide +kernel

end Double

end ContainerUsage
