import Mathlib.Tactic
import Lojban.Number.Binary64

/-!
# Integer parts of rounded quotients

A quotient of natural numbers is rounded to 53 significant bits before its integer part is taken.
With a numerator below `2 ^ 53` this does no harm: a quotient that is not a whole number falls short
of the next one by more than half a unit in its last place, so it is never rounded up to it.

Main results: `Binary64.floor_ofRatio`, `truncQuotient_eq_div`.
-/

namespace Lojban

/-- Rounding gives the integer part or the number behind it, the latter only from one half on. -/
theorem roundHalfEven_cases (n : ℕ) {d : ℕ} (hd : 0 < d) :
    roundHalfEven n d = n / d ∨
      roundHalfEven n d = n / d + 1 ∧ 2 * ((n / d + 1) * d) ≤ 2 * n + d := by
  simp only [roundHalfEven]
  split_ifs with h
  · right
    refine ⟨rfl, ?_⟩
    have hdiv := Nat.div_add_mod' n d
    have hmod := Nat.mod_lt n hd
    rw [Nat.add_mul, Nat.one_mul]
    omega
  · exact .inl rfl

theorem roundHalfEven_one (n : ℕ) : roundHalfEven n 1 = n := by
  simp [roundHalfEven, Nat.mod_one]

namespace Binary64

/-! ## The exponent of a quotient -/

/-- A quotient is scaled up far enough where the lengths of its parts say so. -/
theorem le_scaled {num : ℕ} (hnum : num ≠ 0) (den : ℕ) {e : ℤ}
    (he : e + 53 ≤ (num.log2 : ℤ) - den.log2) :
    2 ^ 52 * (scaled num den e).2 ≤ (scaled num den e).1 := by
  have hnum_le : 2 ^ num.log2 ≤ num := Nat.log2_self_le hnum
  have hden_le : den ≤ 2 ^ (den.log2 + 1) := Nat.lt_log2_self.le
  by_cases hneg : e < 0
  · simp only [scaled, if_pos hneg, Nat.pow_eq]
    calc 2 ^ 52 * den ≤ 2 ^ 52 * 2 ^ (den.log2 + 1) := Nat.mul_le_mul_left _ hden_le
      _ = 2 ^ (52 + (den.log2 + 1)) := (pow_add ..).symm
      _ ≤ 2 ^ (num.log2 + (-e).toNat) := Nat.pow_le_pow_right two_pos (by omega)
      _ = 2 ^ num.log2 * 2 ^ (-e).toNat := pow_add ..
      _ ≤ num * 2 ^ (-e).toNat := Nat.mul_le_mul_right _ hnum_le
  · simp only [scaled, if_neg hneg, Nat.pow_eq]
    calc 2 ^ 52 * (den * 2 ^ e.toNat)
        ≤ 2 ^ 52 * (2 ^ (den.log2 + 1) * 2 ^ e.toNat) :=
          Nat.mul_le_mul_left _ (Nat.mul_le_mul_right _ hden_le)
      _ = 2 ^ (52 + (den.log2 + 1 + e.toNat)) := by rw [pow_add 2 52, pow_add 2 (den.log2 + 1)]
      _ ≤ 2 ^ num.log2 := Nat.pow_le_pow_right two_pos (by omega)
      _ ≤ num := hnum_le

theorem scaled_snd_pos (num : ℕ) {den : ℕ} (hden : den ≠ 0) (e : ℤ) : 0 < (scaled num den e).2 := by
  have hpos : 0 < den := Nat.pos_of_ne_zero hden
  simp only [scaled, Nat.pow_eq]
  split_ifs <;> positivity

/-- At its exponent, a quotient has an integer part of at least 53 bits. -/
theorem le_scaled_exponentOf {num den : ℕ} (hnum : num ≠ 0) (hden : den ≠ 0) :
    2 ^ 52 * (scaled num den (exponentOf num den)).2 ≤ (scaled num den (exponentOf num den)).1 := by
  set e : ℤ := (num.log2 : ℤ) - den.log2 - (precision - 1 : ℕ) with he
  have hprecision : precision - 1 = 52 := rfl
  have hexponent : exponentOf num den =
      if (scaled num den e).1 / (scaled num den e).2 < 2 ^ 52 then e - 1 else e := rfl
  rw [hexponent]
  split_ifs with h
  · exact le_scaled hnum den (by omega)
  · exact (Nat.le_div_iff_mul_le (scaled_snd_pos num hden e)).mp (not_lt.mp h)

/-! ## Integer parts -/

/-- A quotient with 53 bits and `2 ^ k` as its unit lies more than half a unit below a whole number
`m`, if its numerator is small. -/
theorem not_rounded_up {num den m k : ℕ} (hnum : num < 2 ^ 53)
    (hscaled : 2 ^ 52 * den ≤ num * 2 ^ k) (hlt : num < m * den) :
    2 * (num * 2 ^ k) + den < 2 * (m * 2 ^ k * den) := by
  have hunit : 2 ^ 53 * den < 2 ^ 53 * (2 * 2 ^ k) := by
    calc 2 ^ 53 * den = 2 * (2 ^ 52 * den) := by ring
      _ ≤ 2 * (num * 2 ^ k) := Nat.mul_le_mul_left _ hscaled
      _ < 2 * (2 ^ 53 * 2 ^ k) := by gcongr
      _ = 2 ^ 53 * (2 * 2 ^ k) := by ring
  have hden : den < 2 * 2 ^ k := Nat.lt_of_mul_lt_mul_left hunit
  calc 2 * (num * 2 ^ k) + den < 2 * (num * 2 ^ k) + 2 * 2 ^ k := Nat.add_lt_add_left hden _
    _ = 2 * ((num + 1) * 2 ^ k) := by ring
    _ ≤ 2 * (m * den * 2 ^ k) := by gcongr; exact hlt
    _ = 2 * (m * 2 ^ k * den) := by ring

/-- With `k` binary places, a small quotient is not rounded up to a whole number. -/
theorem roundHalfEven_div_two_pow {num den k : ℕ} (hden : den ≠ 0) (hnum : num < 2 ^ 53)
    (hscaled : 2 ^ 52 * den ≤ num * 2 ^ k) :
    roundHalfEven (num * 2 ^ k) den / 2 ^ k = num / den := by
  have hpos : 0 < den := Nat.pos_of_ne_zero hden
  have hunit : 0 < 2 ^ k := by positivity
  have hcut : num * 2 ^ k / den / 2 ^ k = num / den := by
    rw [Nat.div_div_eq_div_mul, Nat.mul_div_mul_right _ _ hunit]
  rcases roundHalfEven_cases (num * 2 ^ k) hpos with h | ⟨h, hhalf⟩
  · rw [h, hcut]
  · rw [h, Nat.succ_div, hcut]
    split_ifs with hwhole
    · exfalso
      obtain ⟨m, hm⟩ := hwhole
      rw [hm, mul_comm (2 ^ k) m] at hhalf
      have hlt : num * 2 ^ k < m * den * 2 ^ k := by
        calc num * 2 ^ k < den * (num * 2 ^ k / den + 1) := Nat.lt_mul_div_succ _ hpos
          _ = m * den * 2 ^ k := by rw [hm]; ring
      exact absurd hhalf (not_rounded_up hnum hscaled (Nat.lt_of_mul_lt_mul_right hlt)).not_ge
    · rfl

/-- **A rounded quotient has the integer part of the quotient**, if its numerator is small. -/
theorem floor_ofRatio {num : ℕ} (hnum : num < 2 ^ 53) (den : ℕ) :
    (ofRatio num den).floor = num / den := by
  by_cases hzero : num = 0 ∨ den = 0
  · rw [ofRatio, if_pos hzero]
    rcases hzero with rfl | rfl
    · exact (Nat.zero_div den).symm
    · exact (Nat.div_zero num).symm
  · have hratio : ofRatio num den =
        ⟨roundHalfEven (scaled num den (exponentOf num den)).1
          (scaled num den (exponentOf num den)).2, exponentOf num den⟩ := if_neg hzero
    obtain ⟨hne, hden⟩ := not_or.mp hzero
    have hscaled := le_scaled_exponentOf hne hden
    rw [hratio]
    generalize exponentOf num den = e at hscaled ⊢
    by_cases hneg : e < 0
    · simp only [scaled, floor, Binary64.num, Binary64.den, if_pos hneg, Nat.pow_eq] at hscaled ⊢
      exact roundHalfEven_div_two_pow hden hnum hscaled
    · -- a quotient with no binary places has the denominator one
      simp only [scaled, floor, Binary64.num, Binary64.den, if_neg hneg, Nat.pow_eq] at hscaled ⊢
      have hone : den * 2 ^ e.toNat = 1 := by
        have hpos : 0 < den * 2 ^ e.toNat := by positivity
        omega
      obtain ⟨rfl, htwo⟩ := mul_eq_one.mp hone
      rw [htwo, Nat.mul_one, Nat.mul_one, roundHalfEven_one]

end Binary64

/-- The integer part of the rounded quotient of two numbers that are not negative. -/
theorem truncQuotient_eq_div {num den : ℤ} (hnum : 0 ≤ num) (hden : 0 ≤ den) (hlt : num < 2 ^ 53) :
    truncQuotient num den = num / den := by
  obtain ⟨n, rfl⟩ := Int.eq_ofNat_of_zero_le hnum
  obtain ⟨d, rfl⟩ := Int.eq_ofNat_of_zero_le hden
  have hn : n < 2 ^ 53 := by exact_mod_cast hlt
  have hsign : ((n : ℤ) < 0) = ((d : ℤ) < 0) := propext (by omega)
  rw [truncQuotient, if_pos hsign, Int.natAbs_natCast, Int.natAbs_natCast,
    Binary64.floor_ofRatio hn, Int.natCast_div]

end Lojban
