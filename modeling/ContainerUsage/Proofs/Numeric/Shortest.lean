import Mathlib
import ContainerUsage.Proofs.Numeric.Nearest

/-!
# The shortest number that rounds to a double

A double is printed by a number that rounds to it and has as few significant digits as such a number
can have (`Double.significantDigits_shortest_le`). The search for it goes from the greatest power of
ten down, so what it finds is a multiple of every power of ten of which a multiple rounds to the
double at all: one of the two multiples next to the double does then (`Double.exists_multiple?`).
This is `Double.pow_dvd_shortest`, from which the number of digits follows. A number that rounds to
the double and has fewer digits before the decimal point than what is printed leaves room for a
power of ten between the two, and then a power of ten is printed, up to its first digit.

`Double.shortest_ofUInt64` says that numbers up to `2 ^ 53` are printed as they are, and
`Decimal.head?_digits` that no printed number starts with a zero that it does not need.
-/

namespace ContainerUsage

/-! ## Digits -/

namespace Decimal

/-- The significant digits of a number: all but the zeros at its end. -/
def significantDigits (n : ℕ) : ℕ := ((Nat.digits 10 n).dropWhile (· = 0)).length

/-- What is left of a number without some of the zeros at its end has all the significant digits. -/
theorem significantDigits_le {n k count : ℕ} (hdvd : 10 ^ k ∣ n) (hlt : n < 10 ^ (count + k)) :
    significantDigits n ≤ count := by
  obtain ⟨m, rfl⟩ := hdvd
  rcases Nat.eq_zero_or_pos m with rfl | hm
  · exact Nat.zero_le _
  · have hzeros : ∀ digit ∈ List.replicate k 0, decide (digit = 0) = true := by simp
    rw [significantDigits, Nat.digits_base_pow_mul (by decide) hm,
      List.dropWhile_append_of_pos hzeros]
    rw [pow_add, Nat.mul_comm (10 ^ count)] at hlt
    calc ((Nat.digits 10 m).dropWhile (· = 0)).length ≤ (Nat.digits 10 m).length :=
          (List.dropWhile_suffix _).length_le
      _ ≤ count := (Nat.digits_length_le_iff (by decide) m).2 (Nat.lt_of_mul_lt_mul_left hlt)

/-- The significant digits are those before some zeros at the end. -/
theorem exists_pow_dvd (n : ℕ) : ∃ k, 10 ^ k ∣ n ∧ n < 10 ^ (significantDigits n + k) := by
  let zeros := (Nat.digits 10 n).takeWhile (· = 0)
  let rest := (Nat.digits 10 n).dropWhile (· = 0)
  have hdigits : Nat.digits 10 n = zeros ++ rest := List.takeWhile_append_dropWhile.symm
  have hzeros : zeros = List.replicate zeros.length 0 := by
    refine List.eq_replicate_iff.2 ⟨rfl, fun digit hmem => ?_⟩
    simpa using List.mem_takeWhile_imp hmem
  refine ⟨zeros.length, ⟨Nat.ofDigits 10 rest, ?_⟩, ?_⟩
  · have hvalue := Nat.ofDigits_digits 10 n
    rw [hdigits, Nat.ofDigits_append, hzeros] at hvalue
    simpa using hvalue.symm
  · refine (Nat.digits_length_le_iff (by decide) n).1 ?_
    rw [hdigits, List.length_append, Nat.add_comm]
    exact le_rfl

/-- A number other than zero has a significant digit. -/
theorem significantDigits_pos {n : ℕ} (h : n ≠ 0) : 0 < significantDigits n := by
  obtain ⟨k, hdvd, hlt⟩ := exists_pow_dvd n
  have hle := Nat.le_of_dvd (Nat.pos_of_ne_zero h) hdvd
  have hexponent := (Nat.pow_lt_pow_iff_right (by decide)).1 (hle.trans_lt hlt)
  omega

/-- No number other than zero is written with a zero at its start. -/
theorem head?_digits {n : ℕ} (h : (digits n).head? = some '0') : n = 0 := by
  induction n using Nat.strongRecOn with
  | ind n ih =>
    unfold digits at h ih
    rw [Nat.toDigits_eq_if (by decide)] at h
    split at h
    · next hlt => interval_cases n <;> simp_all [Nat.digitChar]
    · next hge =>
      rw [List.head?_append, Option.or_eq_some_iff] at h
      rcases h with hhead | ⟨hnil, -⟩
      · have hzero := ih (n / 10) (Nat.div_lt_self (by omega) (by decide)) hhead
        omega
      · exact absurd (List.head?_eq_none_iff.1 hnil) Nat.toDigits_ne_nil

/-- A text that starts with a zero is the one of zero. -/
theorem eq_of_head?_print {n : ℕ} (h : (print n).toList.head? = some '0') : print n = "0" := by
  rw [toList_print] at h
  rw [head?_digits h]
  decide

end Decimal

/-! ## Between two numbers -/

/-- What is between two numbers that round to a double rounds to it. -/
theorem nearestDouble_eq_of_between {n low mid high : ℕ} (hlow : nearestDouble low = n)
    (hhigh : nearestDouble high = n)
    (hle : low ≤ mid) (hle' : mid ≤ high) : nearestDouble mid = n :=
  le_antisymm (hhigh ▸ nearestDouble_mono hle') (hlow ▸ nearestDouble_mono hle)

/-- Rounding at most halves a number. -/
theorem lt_two_mul_nearestDouble {n : ℕ} (h : n ≠ 0) : n < 2 * nearestDouble n := by
  have hpower : nearestDouble (2 ^ n.log2) = 2 ^ n.log2 :=
    nearestDouble_of_isDouble ⟨1, n.log2, by decide, (Nat.one_mul _).symm⟩
  calc n < 2 ^ (n.log2 + 1) := Nat.lt_log2_self
    _ = 2 * 2 ^ n.log2 := pow_succ' 2 _
    _ = 2 * nearestDouble (2 ^ n.log2) := by rw [hpower]
    _ ≤ 2 * nearestDouble n := Nat.mul_le_mul_left 2 (nearestDouble_mono (Nat.log2_self_le h))

/-- Only zero rounds to zero. -/
theorem eq_zero_of_nearestDouble {n : ℕ} (h : nearestDouble n = 0) : n = 0 := by
  by_contra hne
  have hlt := lt_two_mul_nearestDouble hne
  omega

namespace Double

/-! ## The search -/

/-- The powers of ten of the definition are those of the library. -/
theorem powerOfTen_eq (exponent : ℕ) : powerOfTen exponent = 10 ^ exponent := by
  induction exponent with
  | zero => rfl
  | succ exponent ih => rw [powerOfTen, ih, pow_succ']

/-- A multiple that is found is one. -/
theorem dvd_of_multiple? {n unit w : ℕ} (h : multiple? n unit = some w) : unit ∣ w := by
  have hbelow : unit ∣ n / unit * unit := Nat.dvd_mul_left _ _
  unfold multiple? at h
  dsimp only at h
  split_ifs at h <;> obtain rfl := Option.some.inj h
  · exact Nat.dvd_add hbelow (Nat.dvd_refl unit)
  · exact hbelow
  · exact Nat.dvd_add hbelow (Nat.dvd_refl unit)

/-- If any multiple of the unit rounds to a double, one of the two next to it does. -/
theorem exists_multiple? {n unit u : ℕ} (hn : nearestDouble n = n) (hunit : 0 < unit)
    (hdvd : unit ∣ u) (hu : nearestDouble u = n) : ∃ w, multiple? n unit = some w := by
  obtain ⟨q, rfl⟩ := hdvd
  have hnext : nearestDouble (n / unit * unit) = n ∨
      nearestDouble (n / unit * unit + unit) = n := by
    rcases Nat.lt_or_ge (n / unit) q with hlt | hle
    · refine .inr (nearestDouble_eq_of_between hn hu (Nat.lt_div_mul_add hunit).le ?_)
      rw [← Nat.succ_mul, Nat.mul_comm unit]
      exact Nat.mul_le_mul_right unit hlt
    · refine .inl (nearestDouble_eq_of_between hu hn ?_ (Nat.div_mul_le_self n unit))
      rw [Nat.mul_comm unit]
      exact Nat.mul_le_mul_right unit hle
  unfold multiple?
  dsimp only
  rcases hnext with h | h
  · rw [if_pos h]
    split_ifs <;> exact ⟨_, rfl⟩
  · split_ifs <;> exact ⟨_, rfl⟩

/-- The search finds a multiple of each power of ten that it looks at and that has one. -/
theorem pow_dvd_shortestFrom {n u k exponent : ℕ} (hn : nearestDouble n = n) (hdvd : 10 ^ k ∣ u)
    (hu : nearestDouble u = n) (hle : k ≤ exponent) : 10 ^ k ∣ shortestFrom n exponent := by
  induction exponent with
  | zero =>
    obtain rfl : k = 0 := Nat.le_zero.1 hle
    exact Nat.one_dvd _
  | succ exponent ih =>
    rw [shortestFrom]
    cases hm : multiple? n (powerOfTen (exponent + 1)) with
    | some w =>
      have hw := dvd_of_multiple? hm
      rw [powerOfTen_eq] at hw
      exact (Nat.pow_dvd_pow 10 hle).trans hw
    | none =>
      rcases hle.lt_or_eq with hlt | rfl
      · exact ih (Nat.le_of_lt_succ hlt)
      · rw [← powerOfTen_eq] at hdvd
        obtain ⟨w, hw⟩ := exists_multiple? hn (by rw [powerOfTen_eq]; positivity) hdvd hu
        rw [hm] at hw
        cases hw

variable (x : Double)

/-- The double zero is printed as zero. -/
theorem shortest_eq_zero (hzero : nearestDouble 0 = x.toNat) : x.shortest = 0 := by
  apply eq_zero_of_nearestDouble
  rw [nearestDouble_shortest, ← hzero]
  exact nearestDouble_of_lt (by decide)

/-- **What is printed is a multiple of every power of ten that has a multiple which rounds to the
double.** -/
theorem pow_dvd_shortest {u k : ℕ} (hu : nearestDouble u = x.toNat) (hdvd : 10 ^ k ∣ u) :
    10 ^ k ∣ x.shortest := by
  rcases Nat.eq_zero_or_pos u with rfl | hpos
  · rw [x.shortest_eq_zero hu]
    exact Nat.dvd_zero _
  · -- the power is not too great for the search to start from it
    have hdigits : x.toNat < 10 ^ (Decimal.digits x.toNat).length :=
      (Nat.length_toDigits_le_iff (by decide) Nat.length_toDigits_pos).1 le_rfl
    have hlt : 10 ^ k < 10 ^ ((Decimal.digits x.toNat).length + 1) := by
      calc 10 ^ k ≤ u := Nat.le_of_dvd hpos hdvd
        _ < 2 * x.toNat := hu ▸ lt_two_mul_nearestDouble hpos.ne'
        _ ≤ 10 ^ ((Decimal.digits x.toNat).length + 1) := by rw [pow_succ]; omega
    have hle := (Nat.pow_lt_pow_iff_right (by decide)).1 hlt
    exact pow_dvd_shortestFrom x.nearest_toNat hdvd hu (Nat.le_of_lt_succ hle)

/-- **No number that rounds to the double has fewer significant digits than what is printed.** -/
theorem significantDigits_shortest_le {u : ℕ} (hu : nearestDouble u = x.toNat) :
    Decimal.significantDigits x.shortest ≤ Decimal.significantDigits u := by
  have hshortest := x.nearestDouble_shortest
  obtain ⟨k, hdvd, hlt⟩ := Decimal.exists_pow_dvd u
  rcases Nat.lt_or_ge x.shortest (10 ^ (Decimal.significantDigits u + k)) with hless | hge
  · exact Decimal.significantDigits_le (x.pow_dvd_shortest hu hdvd) hless
  · -- the power of ten with the length of what is printed is between the two
    have hne : x.shortest ≠ 0 := by
      have hpos : 0 < 10 ^ (Decimal.significantDigits u + k) := Nat.pow_pos (by decide)
      exact (hpos.trans_le hge).ne'
    let top := Nat.log 10 x.shortest
    have htop : 10 ^ top ≤ x.shortest := Nat.pow_log_le_self 10 hne
    have hexponent : Decimal.significantDigits u + k ≤ top :=
      (Nat.le_log_iff_pow_le (by decide) hne).2 hge
    have hbetween : nearestDouble (10 ^ top) = x.toNat :=
      nearestDouble_eq_of_between hu hshortest
        (hlt.le.trans (Nat.pow_le_pow_right (by decide) hexponent)) htop
    have hone : Decimal.significantDigits x.shortest ≤ 1 := by
      refine Decimal.significantDigits_le (x.pow_dvd_shortest hbetween dvd_rfl) ?_
      rw [Nat.add_comm]
      exact Nat.lt_pow_succ_log_self (by decide) _
    have hu0 : u ≠ 0 := by
      rintro rfl
      exact hne (x.shortest_eq_zero hu)
    exact hone.trans (Decimal.significantDigits_pos hu0)

example : Decimal.significantDigits (ofUInt64 18446744073709551615).shortest = 17 := by
  decide +kernel

/-! ## What is printed -/

/-- Numbers up to `2 ^ 53` are printed as they are. -/
theorem shortest_ofUInt64 {v : UInt64} (h : v.toNat ≤ 2 ^ 53) :
    (ofUInt64 v).shortest = v.toNat := by
  have hrounds := (ofUInt64 v).nearestDouble_shortest
  rw [toNat_ofUInt64] at hrounds
  rcases h.lt_or_eq with hlt | heq
  · rw [nearestDouble_of_lt hlt] at hrounds
    rcases Nat.lt_or_ge (ofUInt64 v).shortest (2 ^ 53) with hless | hge
    · rw [← hrounds, nearestDouble_of_lt hless]
    · -- rounding does not go down below a power of two
      have hpower : nearestDouble (2 ^ 53) = 2 ^ 53 :=
        nearestDouble_of_isDouble ⟨1, 53, by decide, rfl⟩
      have hle := nearestDouble_mono hge
      omega
  · -- its successor rounds to it too, but has as many digits
    have hprinted : shortestFrom (nearestDouble (2 ^ 53))
        (Decimal.digits (nearestDouble (2 ^ 53))).length = 2 ^ 53 := by
      decide +kernel
    rw [shortest, toNat_ofUInt64, heq, hprinted]

/-- Doubles with the same text are equal. -/
theorem print_inj {x y : Double} : x.print = y.print ↔ x = y := by
  constructor
  · intro h
    have hshortest : x.shortest = y.shortest := by
      rw [← (Decimal.denotes_print x.shortest).value_eq,
        ← (Decimal.denotes_print y.shortest).value_eq]
      exact congrArg (fun text : String => Nat.ofDigitChars 10 text.toList 0) h
    apply Double.ext
    rw [← x.nearestDouble_shortest, hshortest, nearestDouble_shortest]
  · rintro rfl
    rfl

end Double

end ContainerUsage
