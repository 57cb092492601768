import UnitAlgebra.Decimal.Nearest
import UnitAlgebra.Proofs.Binary64.Nearest

/-!
# What decimals round to

A decimal whose value lies in the interval of a double is rounded to the double.  The bounds beyond
which no power of ten is formed never cut into such an interval.
-/

namespace UnitAlgebra
namespace Decimal

open Binary64 (Parts two_zpow_pos)

theorem ten_zpow_pos (exponent : Int) : (0 : Rat) < 10 ^ exponent :=
  zpow_pos (by norm_num) exponent

/-- The absolute value of a decimal. -/
def size (number : Decimal) : Rat :=
  number.digits * 10 ^ number.exponent

theorem length_pos (number : Nat) : 0 < length number :=
  Nat.length_toDigits_pos

theorem lt_pow_length (number : Nat) : number < 10 ^ length number :=
  (Nat.length_toDigits_le_iff (by norm_num) (length_pos number)).mp le_rfl

theorem pow_length_le {number : Nat} (positive : 0 < number) :
    10 ^ (length number - 1) ≤ number := by
  rcases Nat.eq_zero_or_pos (length number - 1) with single | several
  · rw [single, Nat.pow_zero]
    exact positive
  · by_contra beyond
    have shorter := (Nat.length_toDigits_le_iff (b := 10) (by norm_num) several).mpr
      (not_le.mp beyond)
    have := length_pos number
    rw [length] at *
    omega

theorem zpow_le_size {digits : Nat} (positive : 0 < digits) (exponent : Int) :
    (10 : Rat) ^ (exponent + length digits - 1) ≤ digits * 10 ^ exponent := by
  have bound : ((10 ^ (length digits - 1) : Nat) : Rat) ≤ digits := by
    exact_mod_cast pow_length_le positive
  have length_pos := length_pos digits
  have place_eq : exponent + length digits - 1 = ((length digits - 1 : Nat) : Int) + exponent := by
    omega
  push_cast at bound
  rw [place_eq, zpow_add₀ (by norm_num), zpow_natCast]
  exact mul_le_mul_of_nonneg_right bound (ten_zpow_pos exponent).le

theorem size_lt_zpow (digits : Nat) (exponent : Int) :
    (digits : Rat) * 10 ^ exponent < 10 ^ (exponent + length digits) := by
  have bound : (digits : Rat) < ((10 ^ length digits : Nat) : Rat) := by
    exact_mod_cast lt_pow_length digits
  push_cast at bound
  rw [Int.add_comm, zpow_add₀ (by norm_num), zpow_natCast]
  exact mul_lt_mul_of_pos_right bound (ten_zpow_pos exponent)

theorem fraction_eq (digits : Nat) (exponent : Int) :
    ((digits * 10 ^ exponent.toNat : Nat) : Rat) / (10 ^ (-exponent).toNat : Nat) =
      digits * 10 ^ exponent := by
  push_cast
  rcases Int.le_total 0 exponent with nonnegative | nonpositive
  · obtain ⟨count, rfl⟩ := Int.eq_ofNat_of_zero_le nonnegative
    have zero : (-(count : Int)).toNat = 0 := by omega
    rw [zero, pow_zero, div_one, Int.toNat_natCast, zpow_natCast]
  · obtain ⟨count, count_eq⟩ := Int.eq_ofNat_of_zero_le (Int.neg_nonneg_of_nonpos nonpositive)
    obtain rfl : exponent = -count := by omega
    have zero : (-(count : Int)).toNat = 0 := by omega
    rw [zero, pow_zero, mul_one, neg_neg, Int.toNat_natCast, zpow_neg, zpow_natCast, div_eq_mul_inv]

/-! ## Bounds of the intervals -/

section

variable {parts : Parts} {value : Rat}

theorem lt_of_attracts (attracts : parts.Attracts value) (canonical : parts.IsCanonical) :
    value < 10 ^ (309 : Int) := by
  have limit : ((2 ^ 1024 : Nat) : Rat) < (10 ^ 309 : Nat) :=
    Nat.cast_lt.mpr (by decide +kernel)
  have power_le : (2 : Rat) ^ (parts.exponent + 53) ≤ 2 ^ ((1024 : Nat) : Int) := by
    have exponent_le := canonical.exponent_le
    exact zpow_le_zpow_right₀ (by norm_num) (by omega)
  rw [zpow_natCast] at power_le
  rw [Nat.cast_pow, Nat.cast_pow] at limit
  exact (attracts.lt_zpow canonical).trans_le power_le |>.trans limit

theorem lt_value_of_attracts (attracts : parts.Attracts value) (canonical : parts.IsCanonical)
    (nonzero : parts.significand ≠ 0) : (10 : Rat) ^ (-324 : Int) < value := by
  have limit : ((2 ^ 1075 : Nat) : Rat) < (10 ^ 324 : Nat) :=
    Nat.cast_lt.mpr (by decide +kernel)
  have power_le : (2 : Rat) ^ (-(1074 : Nat) : Int) ≤ 2 ^ parts.exponent :=
    zpow_le_zpow_right₀ (by norm_num) canonical.least_le
  have limit_inv : ((10 : Rat) ^ 324)⁻¹ < (2 ^ 1075)⁻¹ := by
    rw [Nat.cast_pow, Nat.cast_pow] at limit
    exact inv_strictAnti₀ (pow_pos (by norm_num) _) limit
  have half_eq : 2 * ((2 : Rat) ^ 1075)⁻¹ = (2 ^ 1074)⁻¹ := by
    rw [pow_succ, mul_inv, mul_comm ((2 ^ 1074 : Rat)⁻¹), ← mul_assoc]
    norm_num
  have one_le : (1 : Rat) ≤ parts.significand := by
    exact_mod_cast Nat.pos_of_ne_zero nonzero
  have power_pos := two_zpow_pos parts.exponent
  have reach_le := parts.reach_le
  have bound : 2 * (2 : Rat) ^ parts.exponent ≤ 4 * value :=
    le_trans (mul_le_mul_of_nonneg_right (by linarith) power_pos.le) attracts.lower
  rw [zpow_neg, zpow_natCast] at power_le
  change (10 : Rat) ^ (-(324 : Nat) : Int) < value
  rw [zpow_neg, zpow_natCast]
  generalize ((10 : Rat) ^ 324)⁻¹ = least at limit_inv ⊢
  generalize ((2 : Rat) ^ 1075)⁻¹ = half at limit_inv half_eq
  generalize ((2 : Rat) ^ 1074)⁻¹ = unit at half_eq power_le
  linarith

theorem nearestUnsigned_eq {digits : Nat} {exponent : Int}
    (attracts : parts.Attracts (digits * 10 ^ exponent)) (canonical : parts.IsCanonical)
    (nonzero : parts.significand ≠ 0) :
    nearestUnsigned digits exponent = Parts.toFloat { parts with negative := false } := by
  have value_gt := lt_value_of_attracts attracts canonical nonzero
  have value_lt := lt_of_attracts attracts canonical
  have digits_pos : 0 < digits := by
    rcases Nat.eq_zero_or_pos digits with rfl | positive
    · rw [Nat.cast_zero, zero_mul] at value_gt
      exact absurd value_gt (ten_zpow_pos (-324)).not_gt
    · exact positive
  have one_lt : (1 : Rat) < 10 := by norm_num
  have place_lt := (zpow_lt_zpow_iff_right₀ one_lt).mp
    ((zpow_le_size digits_pos exponent).trans_lt value_lt)
  have lt_place := (zpow_lt_zpow_iff_right₀ one_lt).mp
    (value_gt.trans (size_lt_zpow digits exponent))
  have inside : ¬(digits = 0 || decide (exponent + length digits < underflowPlace)) = true := by
    change ¬(digits = 0 || decide (exponent + length digits < -330)) = true
    simp
    omega
  have bounded : ¬overflowPlace < exponent + length digits := by
    change ¬310 < exponent + length digits
    omega
  rw [nearestUnsigned, if_neg inside, if_neg bounded, Nat.pow_eq, Nat.pow_eq]
  rw [← fraction_eq] at attracts
  exact attracts.nearest_eq canonical (Nat.mul_pos digits_pos (Nat.pow_pos (by norm_num)))
    (Nat.pow_pos (by norm_num))

end

end Decimal
end UnitAlgebra
