import Mathlib
import ContainerUsage.Proofs.Numeric.Double

/-!
# The nearest double

What rounding has to do is said without bits and quotients: `RoundsTo n d` holds of a number and the
double that is nearest to it, and if two doubles are, of the even one. There is one such double for
each number, and `nearestDouble` finds it (`roundsTo_iff`).

The numbers of 53 significant bits around a number are multiples of its `spacing`, and all other
doubles are further away (`exists_multiple_of_isDouble`). So it is enough to compare multiples of
one unit, of which the quotient tells the nearest (`dist_nearestQuotient_le`) and the even one of
two (`dist_eq_of_nearestQuotient_tie`).
-/

namespace ContainerUsage

/-- A whole number that is a double: it has at most 53 significant bits. Doubles that are no whole
numbers are left out, as none is as near to a whole number as the nearest one of these. -/
def IsDouble (d : ℕ) : Prop := ∃ m e, m < 2 ^ 53 ∧ d = m * 2 ^ e

/-- A double that is nearest to a number. If another one is as near, the two are neighbours, and the
double is an even multiple of the distance between them. -/
structure RoundsTo (n d : ℕ) : Prop where
  isDouble : IsDouble d
  nearest : ∀ other, IsDouble other → Nat.dist n d ≤ Nat.dist n other
  even : ∀ other, IsDouble other → other ≠ d → Nat.dist n other = Nat.dist n d →
    2 * Nat.dist d other ∣ d

/-- Two numbers round to the same double. -/
def SameDouble (m n : ℕ) : Prop := ∃ d, RoundsTo m d ∧ RoundsTo n d

variable {n d other : ℕ}

/-! ## Multiples of a unit -/

/-- The quotient is rounded down or up, to the side that is not the further one, and halfway to the
even one. -/
theorem nearestQuotient_cases (n unit : ℕ) :
    (nearestQuotient n unit = n / unit ∧ 2 * (n % unit) ≤ unit ∨
        nearestQuotient n unit = n / unit + 1 ∧ unit ≤ 2 * (n % unit)) ∧
      (2 * (n % unit) = unit → nearestQuotient n unit % 2 = 0) := by
  unfold nearestQuotient
  dsimp only
  split_ifs <;> omega

/-- A multiple of the unit is not between two neighbouring ones. -/
theorem mul_le_or_add_le_mul (q below unit : ℕ) :
    q * unit ≤ below * unit ∨ below * unit + unit ≤ q * unit := by
  rcases Nat.lt_or_ge below q with hlt | hle
  · have hmul := Nat.mul_le_mul_right unit hlt
    rw [Nat.succ_mul] at hmul
    exact .inr hmul
  · exact .inl (Nat.mul_le_mul_right unit hle)

/-- No multiple of the unit is nearer than the one of the quotient. -/
theorem dist_nearestQuotient_le {unit : ℕ} (h : 0 < unit) (n q : ℕ) :
    Nat.dist n (nearestQuotient n unit * unit) ≤ Nat.dist n (q * unit) := by
  have hn := Nat.div_add_mod' n unit
  have hr := Nat.mod_lt n h
  have hside := mul_le_or_add_le_mul q (n / unit) unit
  unfold Nat.dist
  rcases (nearestQuotient_cases n unit).1 with ⟨hq, hle⟩ | ⟨hq, hle⟩
  · rw [hq]
    omega
  · rw [hq, Nat.succ_mul]
    omega

/-- If another multiple of the unit is as near, it is a neighbour, and the quotient is even. -/
theorem dist_eq_of_nearestQuotient_tie {unit : ℕ} (h : 0 < unit) {q : ℕ}
    (hne : q * unit ≠ nearestQuotient n unit * unit)
    (hdist : Nat.dist n (q * unit) = Nat.dist n (nearestQuotient n unit * unit)) :
    Nat.dist (nearestQuotient n unit * unit) (q * unit) = unit ∧ 2 ∣ nearestQuotient n unit := by
  have hn := Nat.div_add_mod' n unit
  have hr := Nat.mod_lt n h
  have hside := mul_le_or_add_le_mul q (n / unit) unit
  obtain ⟨hcases, heven⟩ := nearestQuotient_cases n unit
  rw [Nat.dvd_iff_mod_eq_zero]
  unfold Nat.dist at hdist ⊢
  rcases hcases with ⟨hq, hle⟩ | ⟨hq, hle⟩
  · rw [hq] at hdist hne heven ⊢
    omega
  · rw [hq, Nat.succ_mul] at hdist hne ⊢
    rw [hq] at heven
    omega

/-! ## Doubles -/

/-- **A double is a multiple of the spacing around a number, or some such multiple is nearer.**
Doubles that are finer are less than the power of two below the number. -/
theorem exists_multiple_of_isDouble (n : ℕ) (h : IsDouble other) :
    ∃ q, q * spacing n = other ∨ Nat.dist n (q * spacing n) < Nat.dist n other := by
  obtain ⟨m, e, hm, rfl⟩ := h
  rcases Nat.lt_or_ge e (excessBits n) with hlt | hle
  · refine ⟨2 ^ 52, .inr ?_⟩
    have hbelow : 2 ^ 52 * spacing n ≤ n := two_pow_mul_spacing_le (by omega)
    have hother : m * 2 ^ e < 2 ^ 52 * spacing n := by
      calc m * 2 ^ e < 2 ^ 53 * 2 ^ e := Nat.mul_lt_mul_of_pos_right hm (Nat.two_pow_pos e)
        _ = 2 ^ (52 + (e + 1)) := by rw [← pow_add]; congr 1; omega
        _ ≤ 2 ^ (52 + excessBits n) := Nat.pow_le_pow_right (by decide) (by omega)
        _ = 2 ^ 52 * spacing n := by rw [pow_add, spacing_eq]
    unfold Nat.dist
    omega
  · refine ⟨m * 2 ^ (e - excessBits n), .inl ?_⟩
    rw [spacing_eq, Nat.mul_assoc, ← pow_add, Nat.sub_add_cancel hle]

/-- What a number is rounded to is a double. -/
theorem isDouble_nearestDouble (n : ℕ) : IsDouble (nearestDouble n) := by
  rcases (nearestQuotient_spacing_le n).lt_or_eq with hlt | heq
  · exact ⟨_, excessBits n, hlt, by rw [nearestDouble, spacing_eq]⟩
  · refine ⟨2 ^ 52, excessBits n + 1, by decide, ?_⟩
    rw [nearestDouble, heq, spacing_eq, pow_succ, pow_succ]
    ring

/-- A number is rounded to the nearest double. -/
theorem roundsTo_nearestDouble (n : ℕ) : RoundsTo n (nearestDouble n) where
  isDouble := isDouble_nearestDouble n
  nearest other hother := by
    obtain ⟨q, rfl | hlt⟩ := exists_multiple_of_isDouble n hother
    · exact dist_nearestQuotient_le (spacing_pos n) n q
    · exact (dist_nearestQuotient_le (spacing_pos n) n q).trans hlt.le
  even other hother hne hdist := by
    obtain ⟨q, rfl | hlt⟩ := exists_multiple_of_isDouble n hother
    · obtain ⟨hunit, heven⟩ := dist_eq_of_nearestQuotient_tie (spacing_pos n) hne hdist
      rw [nearestDouble, hunit]
      exact Nat.mul_dvd_mul_right heven _
    · have hle := dist_nearestQuotient_le (spacing_pos n) n q
      rw [← nearestDouble, ← hdist] at hle
      exact absurd hlt hle.not_gt

/-- Two doubles to which a number rounds are equal: they cannot both be even multiples of their
distance. -/
theorem RoundsTo.unique (h : RoundsTo n d) (h' : RoundsTo n other) : d = other := by
  by_contra hne
  have hdist : Nat.dist n d = Nat.dist n other :=
    le_antisymm (h.nearest _ h'.isDouble) (h'.nearest _ h.isDouble)
  have hd := h.even other h'.isDouble (Ne.symm hne) hdist.symm
  have hother := h'.even d h.isDouble hne hdist
  rw [Nat.dist_comm] at hother
  have hpos : 0 < Nat.dist d other := Nat.dist_pos_of_ne hne
  have hdvd : 2 * Nat.dist d other ∣ Nat.dist d other := by
    conv_rhs => unfold Nat.dist
    exact Nat.dvd_add (Nat.dvd_sub hd hother) (Nat.dvd_sub hother hd)
  have hle := Nat.le_of_dvd hpos hdvd
  omega

/-- **A number rounds to one double.** -/
theorem roundsTo_iff : RoundsTo n d ↔ nearestDouble n = d :=
  ⟨fun h => (roundsTo_nearestDouble n).unique h, fun h => h ▸ roundsTo_nearestDouble n⟩

/-- A double rounds to itself. -/
theorem nearestDouble_of_isDouble (h : IsDouble d) : nearestDouble d = d := by
  refine roundsTo_iff.1 ⟨h, fun other _ => ?_, fun other _ hne hdist => ?_⟩
  · rw [Nat.dist_self]
    exact Nat.zero_le _
  · rw [Nat.dist_self] at hdist
    exact absurd (Nat.eq_of_dist_eq_zero hdist).symm hne

/-- Two numbers have a nearest double in common exactly if `nearestDouble` gives the same for both.
-/
theorem sameDouble_iff {m n : ℕ} : SameDouble m n ↔ nearestDouble m = nearestDouble n := by
  constructor
  · rintro ⟨d, hm, hn⟩
    rw [roundsTo_iff.1 hm, roundsTo_iff.1 hn]
  · intro h
    exact ⟨_, roundsTo_nearestDouble m, h ▸ roundsTo_nearestDouble n⟩

end ContainerUsage
