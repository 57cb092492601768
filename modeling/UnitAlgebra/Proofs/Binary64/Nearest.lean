import Mathlib.Algebra.Order.Field.Power
import Mathlib.Algebra.Order.Field.Rat
import Mathlib.Tactic.FieldSimp
import Mathlib.Tactic.Linarith
import Mathlib.Tactic.NormNum
import Mathlib.Tactic.Positivity
import Mathlib.Tactic.Ring
import UnitAlgebra.Binary64.Nearest
import UnitAlgebra.Proofs.Binary64.Parts

/-!
# What rounds to a double

Every number in the interval that a double attracts is rounded to that double.  The interval reaches
half a unit in the last place to both sides, but only a quarter below a power of two, and includes
its bounds if the significand is even.
-/

namespace UnitAlgebra
namespace Binary64

/-! ## Rounding to integers -/

theorem roundHalfEven_eq {dividend divisor nearest : Nat}
    (lower : 2 * nearest * divisor ≤ 2 * dividend + divisor)
    (upper : 2 * dividend ≤ (2 * nearest + 1) * divisor)
    (odd : nearest % 2 = 1 → 2 * nearest * divisor < 2 * dividend + divisor ∧
      2 * dividend < (2 * nearest + 1) * divisor) (positive : 0 < divisor) :
    roundHalfEven dividend divisor = nearest := by
  have division := Nat.div_add_mod dividend divisor
  have remainder_lt := Nat.mod_lt dividend positive
  rw [roundHalfEven]
  generalize dividend / divisor = quotient at division ⊢
  generalize dividend % divisor = remainder at division remainder_lt ⊢
  subst division
  -- The quotient is the nearest integer or the one before it.
  have quotient_lt : quotient < nearest + 1 := by
    by_contra beyond
    have : divisor * (nearest + 1) ≤ divisor * quotient := Nat.mul_le_mul_left _ (by omega)
    nlinarith
  have le_quotient : nearest < quotient + 2 := by
    by_contra beyond
    have : divisor * (quotient + 2) ≤ divisor * nearest := Nat.mul_le_mul_left _ (by omega)
    nlinarith
  obtain rfl | rfl : quotient = nearest ∨ nearest = quotient + 1 := by omega
  · have small : 2 * remainder ≤ divisor := by nlinarith
    cases order : compare (2 * remainder) divisor with
    | lt => rfl
    | gt =>
        rw [Nat.compare_eq_gt] at order
        omega
    | eq =>
        rw [Nat.compare_eq_eq] at order
        have even : quotient % 2 ≠ 1 := by
          intro is_odd
          have := (odd is_odd).2
          nlinarith
        dsimp only
        omega
  · have large : divisor ≤ 2 * remainder := by nlinarith
    cases order : compare (2 * remainder) divisor with
    | gt => rfl
    | lt =>
        rw [Nat.compare_eq_lt] at order
        omega
    | eq =>
        rw [Nat.compare_eq_eq] at order
        have even : (quotient + 1) % 2 ≠ 1 := by
          intro is_odd
          have := (odd is_odd).1
          nlinarith
        dsimp only
        omega

/-! ## Binary places -/

theorem two_zpow_pos (exponent : Int) : (0 : Rat) < 2 ^ exponent :=
  zpow_pos (by norm_num) exponent

/-- A fraction whose terms are shifted against each other by a power of two. -/
theorem shifted_fraction (numerator denominator : Nat) (exponent : Int) :
    ((numerator * 2 ^ (-exponent).toNat : Nat) : Rat) / (denominator * 2 ^ exponent.toNat : Nat) =
      numerator / denominator / 2 ^ exponent := by
  push_cast
  rcases Int.le_total 0 exponent with nonnegative | nonpositive
  · obtain ⟨count, rfl⟩ := Int.eq_ofNat_of_zero_le nonnegative
    have zero : (-(count : Int)).toNat = 0 := by omega
    rw [zero, pow_zero, mul_one, Int.toNat_natCast, zpow_natCast, div_div]
  · obtain ⟨count, count_eq⟩ := Int.eq_ofNat_of_zero_le (Int.neg_nonneg_of_nonpos nonpositive)
    obtain rfl : exponent = -count := by omega
    have zero : (-(count : Int)).toNat = 0 := by omega
    rw [zero, pow_zero, mul_one, neg_neg, Int.toNat_natCast, zpow_neg, zpow_natCast, div_inv_eq_mul]
    ring

theorem two_zpow_add (exponent : Int) (count : Nat) :
    (2 : Rat) ^ (exponent + count) = 2 ^ count * 2 ^ exponent := by
  rw [zpow_add₀ (by norm_num), zpow_natCast, mul_comm]

theorem two_zpow_log2 {number : Nat} (positive : 0 < number) :
    (2 : Rat) ^ (number.log2 : Int) ≤ number ∧
      (number : Rat) < 2 ^ ((number.log2 : Int) + 1) := by
  have upper := @Nat.lt_log2_self number
  constructor
  · rw [zpow_natCast]
    exact_mod_cast Nat.log2_self_le positive.ne'
  · exact_mod_cast upper

theorem shifted_le_iff {numerator denominator : Nat} (denominator_pos : 0 < denominator)
    (exponent : Int) :
    denominator * 2 ^ exponent.toNat ≤ numerator * 2 ^ (-exponent).toNat ↔
      (2 : Rat) ^ exponent ≤ numerator / denominator := by
  have positive : (0 : Rat) < (denominator * 2 ^ exponent.toNat : Nat) := by
    exact_mod_cast Nat.mul_pos denominator_pos (Nat.two_pow_pos _)
  have quotient : (2 : Rat) ^ exponent ≤ numerator / denominator ↔
      1 ≤ (numerator : Rat) / denominator / 2 ^ exponent := (one_le_div (two_zpow_pos _)).symm
  rw [quotient, ← shifted_fraction numerator denominator exponent, one_le_div positive]
  exact Nat.cast_le.symm

theorem binaryPlace_spec {numerator denominator : Nat} (numerator_pos : 0 < numerator)
    (denominator_pos : 0 < denominator) :
    (2 : Rat) ^ binaryPlace numerator denominator ≤ numerator / denominator ∧
      (numerator : Rat) / denominator < 2 ^ (binaryPlace numerator denominator + 1) := by
  have below_cast : (0 : Rat) < denominator := by exact_mod_cast denominator_pos
  obtain ⟨numerator_ge, numerator_lt⟩ := two_zpow_log2 numerator_pos
  obtain ⟨denominator_ge, denominator_lt⟩ := two_zpow_log2 denominator_pos
  set estimate : Int := numerator.log2 - denominator.log2 with estimate_eq
  have fits : denominator * Nat.pow 2 estimate.toNat ≤ numerator * Nat.pow 2 (-estimate).toNat ↔
      (2 : Rat) ^ estimate ≤ numerator / denominator := shifted_le_iff denominator_pos estimate
  rw [binaryPlace, ← estimate_eq]
  split
  · rename_i reached
    refine ⟨fits.mp reached, ?_⟩
    rw [div_lt_iff₀ below_cast]
    calc (numerator : Rat) < 2 ^ ((numerator.log2 : Int) + 1) := numerator_lt
      _ = 2 ^ (estimate + 1) * 2 ^ (denominator.log2 : Int) := by
          rw [← zpow_add₀ (by norm_num)]
          congr 1
          omega
      _ ≤ 2 ^ (estimate + 1) * denominator :=
          mul_le_mul_of_nonneg_left denominator_ge (two_zpow_pos _).le
  · rename_i missed
    constructor
    · rw [le_div_iff₀ below_cast]
      calc (2 : Rat) ^ (estimate - 1) * denominator ≤
            2 ^ (estimate - 1) * 2 ^ ((denominator.log2 : Int) + 1) :=
              mul_le_mul_of_nonneg_left denominator_lt.le (two_zpow_pos _).le
        _ = 2 ^ (numerator.log2 : Int) := by
            rw [← zpow_add₀ (by norm_num)]
            congr 1
            omega
        _ ≤ numerator := numerator_ge
    · rw [sub_add_cancel]
      exact not_le.mp (fits.not.mp missed)

theorem binaryPlace_eq {numerator denominator : Nat} {place : Int}
    (numerator_pos : 0 < numerator) (denominator_pos : 0 < denominator)
    (lower : (2 : Rat) ^ place ≤ numerator / denominator)
    (upper : (numerator : Rat) / denominator < 2 ^ (place + 1)) :
    binaryPlace numerator denominator = place := by
  obtain ⟨place_le, lt_place⟩ := binaryPlace_spec numerator_pos denominator_pos
  have one_lt : (1 : Rat) < 2 := by norm_num
  have first := (zpow_lt_zpow_iff_right₀ one_lt).mp (place_le.trans_lt upper)
  have second := (zpow_lt_zpow_iff_right₀ one_lt).mp (lower.trans_lt lt_place)
  omega

/-! ## The interval of a double -/

/-- How many quarters of a unit in the last place the interval of a double reaches down. -/
def Parts.reach (parts : Parts) : Nat :=
  if parts.significand = 2 ^ 52 ∧ -1074 < parts.exponent then 1 else 2

/-- The numbers that are rounded to a positive double. -/
structure Parts.Attracts (parts : Parts) (value : Rat) : Prop where
  /-- The number is not below the interval. -/
  lower : (4 * parts.significand - parts.reach) * 2 ^ parts.exponent ≤ 4 * value
  /-- The number is not above the interval. -/
  upper : 4 * value ≤ (4 * parts.significand + 2) * 2 ^ parts.exponent
  /-- The bounds belong to even significands. -/
  odd : parts.significand % 2 = 1 →
    (4 * parts.significand - parts.reach) * 2 ^ parts.exponent < 4 * value ∧
      4 * value < (4 * parts.significand + 2) * 2 ^ parts.exponent

theorem Parts.reach_le (parts : Parts) : (parts.reach : Rat) ≤ 2 := by
  rw [reach]
  split <;> norm_num

theorem roundHalfEven_shifted {numerator denominator nearest : Nat} {exponent : Int}
    (denominator_pos : 0 < denominator)
    (lower : (2 * nearest - 1) * 2 ^ exponent ≤ 2 * ((numerator : Rat) / denominator))
    (upper : 2 * ((numerator : Rat) / denominator) ≤ (2 * nearest + 1) * 2 ^ exponent)
    (odd : nearest % 2 = 1 →
      (2 * nearest - 1) * 2 ^ exponent < 2 * ((numerator : Rat) / denominator) ∧
        2 * ((numerator : Rat) / denominator) < (2 * nearest + 1) * 2 ^ exponent) :
    roundHalfEven (numerator * 2 ^ (-exponent).toNat) (denominator * 2 ^ exponent.toNat) =
      nearest := by
  have divisor_pos : 0 < denominator * 2 ^ exponent.toNat :=
    Nat.mul_pos denominator_pos (Nat.two_pow_pos _)
  have quotient_eq := shifted_fraction numerator denominator exponent
  generalize numerator * 2 ^ (-exponent).toNat = dividend at quotient_eq ⊢
  generalize denominator * 2 ^ exponent.toNat = divisor at quotient_eq divisor_pos ⊢
  have divisor_cast : (0 : Rat) < divisor := by exact_mod_cast divisor_pos
  have power_pos := two_zpow_pos exponent
  have value_eq : (numerator : Rat) / denominator = dividend / divisor * 2 ^ exponent := by
    rw [quotient_eq, div_mul_cancel₀ _ power_pos.ne']
  have dividend_eq : (dividend : Rat) / divisor * divisor = dividend :=
    div_mul_cancel₀ _ divisor_cast.ne'
  rw [value_eq, ← mul_assoc] at lower upper odd
  refine roundHalfEven_eq ?_ ?_ (fun is_odd => ⟨?_, ?_⟩) divisor_pos
  · have bound :=
      mul_le_mul_of_nonneg_right (le_of_mul_le_mul_right lower power_pos) divisor_cast.le
    rw [mul_assoc, dividend_eq] at bound
    have cast_bound : (2 * nearest * divisor : Rat) ≤ 2 * dividend + divisor := by linarith
    exact_mod_cast cast_bound
  · have bound :=
      mul_le_mul_of_nonneg_right (le_of_mul_le_mul_right upper power_pos) divisor_cast.le
    rw [mul_assoc, dividend_eq] at bound
    exact_mod_cast bound
  · have bound := mul_lt_mul_of_pos_right
      (lt_of_mul_lt_mul_right (odd is_odd).1 power_pos.le) divisor_cast
    rw [mul_assoc, dividend_eq] at bound
    have cast_bound : (2 * nearest * divisor : Rat) < 2 * dividend + divisor := by linarith
    exact_mod_cast cast_bound
  · have bound := mul_lt_mul_of_pos_right
      (lt_of_mul_lt_mul_right (odd is_odd).2 power_pos.le) divisor_cast
    rw [mul_assoc, dividend_eq] at bound
    exact_mod_cast bound

section

variable {parts : Parts} {numerator denominator : Nat}

/-- Inside its binade, a number is rounded to the double whose interval it lies in. -/
theorem Parts.Attracts.roundHalfEven_eq (attracts : parts.Attracts (numerator / denominator))
    (denominator_pos : 0 < denominator) :
    roundHalfEven (numerator * 2 ^ (-parts.exponent).toNat)
      (denominator * 2 ^ parts.exponent.toNat) = parts.significand := by
  obtain ⟨lower, upper, odd⟩ := attracts
  have power_pos := two_zpow_pos parts.exponent
  have reach_le := mul_le_mul_of_nonneg_right parts.reach_le power_pos.le
  refine roundHalfEven_shifted denominator_pos ?_ ?_ fun is_odd => ⟨?_, ?_⟩
  · linarith
  · linarith
  · have := (odd is_odd).1
    linarith
  · have := (odd is_odd).2
    linarith

theorem exponentOf_eq {place : Int} (numerator_pos : 0 < numerator)
    (denominator_pos : 0 < denominator) (least_le : -1074 ≤ place)
    (lower : (2 : Rat) ^ (place + 52) ≤ numerator / denominator)
    (upper : (numerator : Rat) / denominator < 2 ^ (place + 53)) :
    exponentOf numerator denominator = place := by
  have place_eq := binaryPlace_eq numerator_pos denominator_pos lower
    (by rwa [show place + 52 + 1 = place + 53 by omega])
  rw [exponentOf, place_eq]
  change max (-1074) (place + 52 - 52) = place
  omega

theorem exponentOf_eq_least (numerator_pos : 0 < numerator) (denominator_pos : 0 < denominator)
    (upper : (numerator : Rat) / denominator < 2 ^ (-1074 + 53 : Int)) :
    exponentOf numerator denominator = -1074 := by
  obtain ⟨place_le, -⟩ := binaryPlace_spec numerator_pos denominator_pos
  have place_lt := (zpow_lt_zpow_iff_right₀ (by norm_num)).mp (place_le.trans_lt upper)
  rw [exponentOf]
  change max (-1074) (binaryPlace numerator denominator - 52) = -1074
  omega

theorem Parts.Attracts.lt_zpow {value : Rat} (attracts : parts.Attracts value)
    (canonical : parts.IsCanonical) :
    value < 2 ^ (parts.exponent + 53) := by
  have significand_le : (parts.significand : Rat) ≤ 2 ^ 53 - 1 := by
    have := canonical.significand_lt
    have succ_le : parts.significand + 1 ≤ 2 ^ 53 := this
    have cast_le : ((parts.significand + 1 : Nat) : Rat) ≤ (2 ^ 53 : Nat) := by
      exact_mod_cast succ_le
    push_cast at cast_le
    linarith
  have power_pos := two_zpow_pos parts.exponent
  have bound := mul_le_mul_of_nonneg_right significand_le power_pos.le
  have power_eq : (2 : Rat) ^ (parts.exponent + 53) = 2 ^ 53 * 2 ^ parts.exponent :=
    two_zpow_add parts.exponent 53
  rw [power_eq]
  linarith [attracts.upper]

theorem pack_eq {significand : Nat} {exponent : Int}
    (bounded : significand + (exponent + 1074).toNat * 2 ^ 52 ≤ 2047 * 2 ^ 52) :
    pack significand exponent = significand + (exponent + 1074).toNat * 2 ^ 52 := by
  have shifted : exponent - leastExponent = exponent + 1074 := by
    change exponent - -1074 = _
    omega
  rw [pack, shifted]
  exact Nat.min_eq_left bounded

/-- Just below a power of two a number is rounded up to it from the binade before. -/
theorem Parts.Attracts.below_binade (attracts : parts.Attracts (numerator / denominator))
    (canonical : parts.IsCanonical) (numerator_pos : 0 < numerator)
    (denominator_pos : 0 < denominator) (normal : -1074 < parts.exponent)
    (below : (numerator : Rat) / denominator < 2 ^ (parts.exponent + 52)) :
    parts.significand = 2 ^ 52 ∧ exponentOf numerator denominator = parts.exponent - 1 ∧
      roundHalfEven (numerator * 2 ^ (-(parts.exponent - 1)).toNat)
        (denominator * 2 ^ (parts.exponent - 1).toNat) = 2 ^ 53 := by
  obtain ⟨lower, upper, odd⟩ := attracts
  have power_pos := two_zpow_pos parts.exponent
  have binade_eq : (2 : Rat) ^ (parts.exponent + 52) = 2 ^ 52 * 2 ^ parts.exponent :=
    two_zpow_add parts.exponent 52
  have half_eq : (2 : Rat) ^ (parts.exponent - 1) = 2 ^ parts.exponent / 2 :=
    zpow_sub_one₀ (by norm_num) _
  have significand_eq : parts.significand = 2 ^ 52 := by
    have hidden : 2 ^ 52 ≤ parts.significand := by
      rcases canonical.normal with least | hidden
      · omega
      · exact hidden
    have reach_le := parts.reach_le
    have scaled : (4 * parts.significand - parts.reach : Rat) * 2 ^ parts.exponent <
        4 * 2 ^ 52 * 2 ^ parts.exponent := by
      rw [binade_eq] at below
      linarith
    have bound := lt_of_mul_lt_mul_right scaled power_pos.le
    have cast_lt : (parts.significand : Rat) < 2 ^ 52 + 1 := by linarith
    have significand_lt : parts.significand < 2 ^ 52 + 1 := by exact_mod_cast cast_lt
    omega
  have reach_eq : parts.reach = 1 := if_pos ⟨significand_eq, normal⟩
  rw [significand_eq, reach_eq] at lower
  push_cast at lower
  refine ⟨significand_eq, exponentOf_eq numerator_pos denominator_pos (by omega) ?_ ?_, ?_⟩
  · have place_eq : (2 : Rat) ^ (parts.exponent - 1 + 52) = 2 ^ 51 * 2 ^ parts.exponent := by
      rw [show parts.exponent - 1 + 52 = parts.exponent + 51 by omega]
      exact two_zpow_add parts.exponent 51
    rw [place_eq]
    linarith
  · rwa [show parts.exponent - 1 + 53 = parts.exponent + 52 by omega]
  · refine roundHalfEven_shifted denominator_pos ?_ ?_ fun is_odd => absurd is_odd (by norm_num)
    · rw [half_eq]
      push_cast
      linarith
    · rw [half_eq]
      rw [binade_eq] at below
      push_cast
      linarith

theorem Parts.Attracts.nearestBits_eq (attracts : parts.Attracts (numerator / denominator))
    (canonical : parts.IsCanonical) (numerator_pos : 0 < numerator)
    (denominator_pos : 0 < denominator) :
    nearestBits numerator denominator =
      parts.significand + (parts.exponent + 1074).toNat * 2 ^ 52 := by
  have packed := @pack_eq parts.significand parts.exponent (by
    obtain ⟨significand_lt, least_le, exponent_le, normal⟩ := canonical
    omega)
  have inside : exponentOf numerator denominator = parts.exponent →
      nearestBits numerator denominator =
        parts.significand + (parts.exponent + 1074).toNat * 2 ^ 52 := by
    intro exponent_eq
    rw [nearestBits, exponent_eq]
    exact (congrArg (pack · _) (attracts.roundHalfEven_eq denominator_pos)).trans packed
  have upper := attracts.lt_zpow canonical
  rcases Int.le_iff_eq_or_lt.mp canonical.least_le with least | normal
  · refine inside ?_
    rw [← least] at upper
    rw [← least]
    exact exponentOf_eq_least numerator_pos denominator_pos upper
  · rcases le_or_gt ((2 : Rat) ^ (parts.exponent + 52)) (numerator / denominator) with
      reached | below
    · exact inside (exponentOf_eq numerator_pos denominator_pos canonical.least_le reached upper)
    · obtain ⟨significand_eq, exponent_eq, rounded⟩ :=
        attracts.below_binade canonical numerator_pos denominator_pos normal below
      have exponent_le := canonical.exponent_le
      rw [nearestBits, exponent_eq]
      refine (congrArg (pack · _) rounded).trans ?_
      rw [pack_eq (by omega), significand_eq]
      omega

theorem Parts.Attracts.nearest_eq (attracts : parts.Attracts (numerator / denominator))
    (canonical : parts.IsCanonical) (numerator_pos : 0 < numerator)
    (denominator_pos : 0 < denominator) :
    nearest numerator denominator = Parts.toFloat { parts with negative := false } := by
  have positive : Parts.IsCanonical { parts with negative := false } :=
    ⟨canonical.significand_lt, canonical.least_le, canonical.exponent_le, canonical.normal⟩
  have pattern_eq : Parts.pattern { parts with negative := false } =
      parts.significand + (parts.exponent + 1074).toNat * 2 ^ 52 := by
    rw [Parts.pattern, Bool.toNat_false, Nat.zero_mul, Nat.zero_add]
  rw [nearest, if_neg numerator_pos.ne', attracts.nearestBits_eq canonical numerator_pos
    denominator_pos, ← positive.ofBits_pattern, pattern_eq]

end

end Binary64
end UnitAlgebra
