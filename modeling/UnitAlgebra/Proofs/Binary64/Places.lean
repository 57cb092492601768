import Mathlib.Data.Rat.Floor
import UnitAlgebra.Proofs.Binary64.PowerOfTen

/-!
# Rounding to places and the range of doubles

Rounding to places multiplies a double by a power of ten, rounds to an integer and divides again.
The power and the product are tested for the range, but the quotient is not, and it may leave the
range where the integer has been rounded up.  A number overshoots if it does.  With a power that is
not too small no number overshoots: the greatest product is rounded down, to an integer.
-/

namespace UnitAlgebra
namespace Binary64

open Float.Model (UnpackedFloat)

/-! ## Integral doubles -/

/-- The integer nearest to a number, and a half is rounded up. -/
def nearestInteger (number : Rat) : Nat :=
  ⌊number + 1 / 2⌋₊

theorem nearestInteger_mono {number number' : Rat} (number_le : number ≤ number') :
    nearestInteger number ≤ nearestInteger number' :=
  Nat.floor_mono (by linarith)

theorem nearestInteger_natCast (integer : Nat) : nearestInteger integer = integer := by
  rw [nearestInteger, Nat.floor_eq_iff (by positivity)]
  constructor <;> linarith

theorem quotient_halfAway (negative : Bool) (dividend : Nat) {divisor : Nat}
    (positive : 0 < divisor) :
    Rounding.quotient .halfAway negative dividend divisor =
      nearestInteger (dividend / divisor) := by
  have divisor_pos : (0 : Rat) < divisor := by exact_mod_cast positive
  have remainder_lt := Nat.mod_lt dividend positive
  have division := Nat.div_add_mod dividend divisor
  rw [Rounding.quotient, Rounding.movesAway]
  generalize dividend / divisor = quotient at division ⊢
  generalize dividend % divisor = remainder at division remainder_lt ⊢
  have fraction_eq : (dividend : Rat) / divisor = quotient + remainder / divisor := by
    rw [← division]
    push_cast
    field_simp
  symm
  rw [nearestInteger, Nat.floor_eq_iff (by positivity), fraction_eq]
  by_cases half : divisor ≤ 2 * remainder
  · have lower : (1 : Rat) / 2 ≤ remainder / divisor := by
      rw [div_le_div_iff₀ (by norm_num) divisor_pos]
      exact_mod_cast (by omega : 1 * divisor ≤ remainder * 2)
    have upper : (remainder : Rat) / divisor < 1 := by
      rw [div_lt_one divisor_pos]
      exact_mod_cast remainder_lt
    rw [if_pos (decide_eq_true half)]
    push_cast
    constructor <;> linarith
  · have lower : (0 : Rat) ≤ remainder / divisor := by positivity
    have upper : (remainder : Rat) / divisor < 1 / 2 := by
      rw [div_lt_div_iff₀ divisor_pos (by norm_num)]
      exact_mod_cast (by omega : remainder * 2 < 1 * divisor)
    rw [if_neg (by simpa using half)]
    push_cast
    constructor <;> linarith

theorem Parts.attracts_size (parts : Parts) : parts.Attracts parts.size := by
  have power_pos := two_zpow_pos parts.exponent
  have reach_pos : (0 : Rat) < parts.reach := by
    rw [reach]
    split <;> norm_num
  have reach_part := mul_pos reach_pos power_pos
  rw [size]
  exact ⟨by linarith, by linarith, fun _ => ⟨by linarith, by linarith⟩⟩

theorem exists_nearest_eq {integer : Nat} (integer_lt : integer < 2 ^ 53) :
    ∃ parts : Parts, parts.IsCanonical ∧ parts.negative = false ∧ parts.size = integer ∧
      nearest integer 1 = parts.toFloat := by
  rcases Nat.eq_zero_or_pos integer with rfl | integer_pos
  · have zero_read : Parts.ofFloat? 0 = some ⟨false, 0, -1074⟩ := by decide +kernel
    exact ⟨_, (Parts.isCanonical_of_ofBits? zero_read).1, rfl,
      (Parts.size_eq_zero.mpr rfl).trans Nat.cast_zero.symm, (toFloat_of_ofFloat? zero_read).symm⟩
  · have log_le : integer.log2 ≤ 52 := by
      have := (Nat.log2_lt integer_pos.ne').mpr integer_lt
      omega
    obtain ⟨count, count_eq⟩ : ∃ count, integer.log2 + count = 52 := ⟨52 - integer.log2, by omega⟩
    have lower : 2 ^ 52 ≤ integer * 2 ^ count := by
      rw [← count_eq, Nat.pow_add]
      exact Nat.mul_le_mul_right _ (Nat.log2_self_le integer_pos.ne')
    have upper : integer * 2 ^ count < 2 ^ 53 := by
      rw [show 53 = integer.log2 + 1 + count by omega, Nat.pow_add]
      exact Nat.mul_lt_mul_of_pos_right Nat.lt_log2_self (Nat.two_pow_pos count)
    have canonical : Parts.IsCanonical ⟨false, integer * 2 ^ count, -count⟩ :=
      ⟨upper, by dsimp only; omega, by dsimp only; omega, .inr lower⟩
    have size_eq : Parts.size ⟨false, integer * 2 ^ count, -count⟩ = integer := by
      rw [Parts.size, zpow_neg, zpow_natCast]
      push_cast
      field_simp
    have attracts := Parts.attracts_size ⟨false, integer * 2 ^ count, -count⟩
    rw [size_eq, ← div_one (integer : Rat), ← Nat.cast_one] at attracts
    exact ⟨_, canonical, rfl, size_eq, attracts.nearest_eq canonical integer_pos Nat.one_pos⟩

/-- A finite double is rounded to an integral one of its sign. -/
theorem Parts.IsCanonical.exists_toIntegral {parts : Parts} (canonical : parts.IsCanonical) :
    ∃ integral : Parts, integral.IsCanonical ∧ integral.size = nearestInteger parts.size ∧
      toIntegral .halfAway parts.toFloat = integral.toFloat := by
  rw [toIntegral, canonical.ofFloat?_toFloat]
  dsimp only
  by_cases whole : 0 ≤ parts.exponent
  · rw [if_pos whole]
    obtain ⟨count, count_eq⟩ := Int.eq_ofNat_of_zero_le whole
    have size_eq : parts.size = (parts.significand * 2 ^ count : Nat) := by
      rw [Parts.size, count_eq]
      push_cast
      rfl
    exact ⟨parts, canonical, by rw [size_eq, nearestInteger_natCast], rfl⟩
  · obtain ⟨count, count_eq⟩ := Int.eq_ofNat_of_zero_le (by omega : 0 ≤ -parts.exponent)
    have count_pos : 0 < count := by omega
    have power_pos := Nat.two_pow_pos count
    have size_eq : parts.size = (parts.significand : Rat) / (2 ^ count : Nat) := by
      rw [Parts.size, show parts.exponent = -(count : Int) by omega, zpow_neg, zpow_natCast]
      push_cast
      rfl
    rw [if_neg whole, count_eq, Int.toNat_natCast]
    change ∃ integral : Parts, _ ∧ _ ∧
      (if parts.negative = true then
        -nearest (Rounding.quotient .halfAway parts.negative parts.significand (2 ^ count)) 1
      else nearest (Rounding.quotient .halfAway parts.negative parts.significand (2 ^ count)) 1) = _
    rw [quotient_halfAway _ _ power_pos, ← size_eq]
    have small : nearestInteger parts.size < 2 ^ 53 := by
      have size_le : parts.size ≤ (2 ^ 52 : Nat) := by
        have two_le : 2 ≤ 2 ^ count := Nat.le_self_pow count_pos.ne' 2
        have significand_le : parts.significand ≤ 2 ^ 52 * 2 ^ count := by
          have := canonical.significand_lt
          omega
        rw [size_eq, div_le_iff₀ (by exact_mod_cast power_pos)]
        exact_mod_cast significand_le
      have bound := nearestInteger_mono size_le
      rw [nearestInteger_natCast] at bound
      omega
    obtain ⟨integral, integral_canonical, positive, integral_size, integral_eq⟩ :=
      exists_nearest_eq small
    rw [integral_eq]
    split
    · refine ⟨{ integral with negative := !integral.negative }, ?_, integral_size,
        integral_canonical.neg_toFloat⟩
      exact ⟨integral_canonical.significand_lt, integral_canonical.least_le,
        integral_canonical.exponent_le, integral_canonical.normal⟩
    · exact ⟨integral, integral_canonical, integral_size, rfl⟩

/-! ## Overshooting -/

/-- A number whose product with a power is in range, and whose rounded product divided by the power
is not. -/
def Overshoots (power number : Rat) : Prop :=
  number * power < overflowBound ∧
    overflowBound ≤ nearestInteger (rounded (number * power)) / power

theorem Rounds.exists_parts {negative : Bool} {number : Rat} {value : Float}
    (rounds : Rounds negative number value) (finite : value.isFinite = true) :
    ∃ parts : Parts, parts.IsCanonical ∧ parts.size = rounded number ∧ parts.toFloat = value := by
  obtain ⟨parts, read⟩ := exists_parts_of_isFinite finite
  refine ⟨parts, (Parts.isCanonical_of_ofBits? read).1, ?_, toFloat_of_ofFloat? read⟩
  rw [← size_of_ofFloat? read, rounds.size_eq finite]

theorem beq_zero_of_isMultiplier {value : Float}
    (multiplier : Scalar.isMultiplier value = true) : (value == 0) = false := by
  obtain ⟨parts, canonical, positive, nonzero, rfl⟩ := exists_parts_of_isMultiplier multiplier
  change UnpackedFloat.beq parts.toFloat.toModel.unpack (0 : Float).toModel.unpack = false
  rw [unpack_of_ofFloat? canonical.ofFloat?_toFloat, Parts.unpacked, dif_neg nonzero, positive]
  rfl

/-- A finite double is rounded to a finite one exactly if it does not overshoot. -/
theorem Parts.IsCanonical.isFinite_roundToPlaces_iff {parts : Parts}
    (canonical : parts.IsCanonical) {places : Int}
    (multiplier : Scalar.isMultiplier (powerOfTen places) = true) :
    (roundToPlaces places parts.toFloat).isFinite = true ↔
      ¬Overshoots (Binary64.size (powerOfTen places)) parts.size := by
  have usable : (!(powerOfTen places).isFinite || powerOfTen places == 0) = false := by
    rw [beq_zero_of_isMultiplier multiplier, (Bool.and_eq_true_iff.mp multiplier).1]
    rfl
  rw [roundToPlaces]
  dsimp only
  rw [usable, if_neg Bool.false_ne_true]
  obtain ⟨power, power_canonical, positive, nonzero, power_eq⟩ :=
    exists_parts_of_isMultiplier multiplier
  rw [← power_eq, size_of_ofFloat? power_canonical.ofFloat?_toFloat]
  have power_nonneg := power.size_nonneg
  have shifts := canonical.rounds_mul power_canonical
  have shifts_iff := shifts.isFinite_iff (mul_nonneg parts.size_nonneg power_nonneg)
  by_cases inside : parts.size * power.size < overflowBound
  · have finite := shifts_iff.mpr inside
    obtain ⟨shifted, shifted_canonical, shifted_size, shifted_eq⟩ := shifts.exists_parts finite
    obtain ⟨integral, integral_canonical, integral_size, integral_eq⟩ :=
      shifted_canonical.exists_toIntegral
    have divides := integral_canonical.rounds_div power_canonical nonzero
    rw [if_pos finite, ← shifted_eq, integral_eq,
      divides.isFinite_iff (div_nonneg integral.size_nonneg power_nonneg), integral_size,
      shifted_size, Overshoots, ← not_le]
    exact ⟨fun below both => below both.2, fun not_both beyond => not_both ⟨inside, beyond⟩⟩
  · rw [if_neg fun finite => inside (shifts_iff.mp finite)]
    exact iff_of_true (isFinite_of_ofFloat? canonical.ofFloat?_toFloat) fun both => inside both.1

theorem roundToPlaces_of_power {places : Int} (value : Float)
    (outside : (powerOfTen places).isFinite = false ∨ powerOfTen places = 0) :
    roundToPlaces places value = value := by
  rw [roundToPlaces]
  rcases outside with infinite | zero
  · rw [infinite]
    rfl
  · rw [zero]
    rfl

section

variable {power number number' : Rat}

/-- With a power up to one, what overshoots is beyond a bound. -/
theorem Overshoots.mono (overshoots : Overshoots power number) (power_pos : 0 < power)
    (power_le : power ≤ 1) (nonneg : 0 ≤ number) (number_le : number ≤ number')
    (inside : number' < overflowBound) : Overshoots power number' := by
  refine ⟨?_, overshoots.2.trans ?_⟩
  · exact (mul_le_of_le_one_right (nonneg.trans number_le) power_le).trans_lt inside
  · have product_le := mul_le_mul_of_nonneg_right number_le power_pos.le
    have integer_le := nearestInteger_mono
      (rounded_mono (mul_nonneg nonneg power_pos.le) product_le)
    exact div_le_div_of_nonneg_right (by exact_mod_cast integer_le) power_pos.le

end

/-! ## The greatest double -/

/-- The greatest finite double. -/
def greatest : Rat :=
  (2 ^ 53 - 1 : Nat) * 2 ^ (971 : Int)

theorem greatest_lt : greatest < overflowBound := by
  obtain ⟨unit, unit_pos, bound_eq, double_eq, -⟩ := exists_unit
  rw [greatest, bound_eq, double_eq, ← mul_assoc]
  exact mul_lt_mul_of_pos_right (by norm_num) unit_pos

theorem le_greatest {significand : Nat} {place : Int} (significand_lt : significand < 2 ^ 53)
    (place_le : place ≤ 971) : significand * 2 ^ place ≤ greatest :=
  mul_le_mul (by exact_mod_cast Nat.le_pred_of_lt significand_lt)
    (zpow_le_zpow_right₀ (by norm_num) place_le) (two_zpow_pos _).le (Nat.cast_nonneg _)

theorem Parts.IsCanonical.size_le_greatest {parts : Parts} (canonical : parts.IsCanonical) :
    parts.size ≤ greatest :=
  le_greatest canonical.significand_lt canonical.exponent_le

theorem rounded_le_greatest {number : Rat} (nonneg : 0 ≤ number)
    (inside : number < overflowBound) : rounded number ≤ greatest := by
  rcases nonneg.eq_or_lt with rfl | positive
  · rw [rounded_zero]
    exact mul_nonneg (Nat.cast_nonneg _) (two_zpow_pos _).le
  have place_le : lastPlace number ≤ 971 := by
    by_contra beyond
    have lower := (lastPlace_spec positive).2.resolve_left (by omega)
    have := (zpow_lt_zpow_iff_right₀ (by norm_num)).mp
      (lower.trans_lt (inside.trans overflowBound_lt))
    omega
  rcases (roundedSignificand_le positive).lt_or_eq with short | carry
  · exact le_greatest short place_le
  · -- A carry gives the power of two that begins the next binade.
    have below := (rounded_lt_iff positive.le).mpr inside
    have power_eq : (2 : Rat) ^ (lastPlace number + (53 : Nat)) = rounded number := by
      rw [rounded, carry, two_zpow_add]
      push_cast
      rfl
    have carry_eq : rounded number = (2 ^ 52 : Nat) * 2 ^ (lastPlace number + 1) := by
      rw [rounded, carry, zpow_add_one₀ two_ne_zero]
      push_cast
      ring
    rw [← power_eq] at below
    have place_lt := (zpow_lt_zpow_iff_right₀ (by norm_num)).mp below
    rw [carry_eq]
    exact le_greatest (by norm_num) (by omega)

theorem nearestInteger_significand (significand : Nat) {place : Int} (whole : 0 ≤ place) :
    (nearestInteger (significand * 2 ^ place) : Rat) = significand * 2 ^ place := by
  obtain ⟨count, rfl⟩ := Int.eq_ofNat_of_zero_le whole
  have cast_eq : (significand * 2 ^ (count : Int) : Rat) = (significand * 2 ^ count : Nat) := by
    push_cast
    rfl
  rw [cast_eq, nearestInteger_natCast]

theorem not_overshoots_of_one_le {power number : Rat} (one_le : 1 ≤ power) (nonneg : 0 ≤ number) :
    ¬Overshoots power number := by
  rintro ⟨inside, beyond⟩
  have product_nonneg : 0 ≤ number * power := mul_nonneg nonneg (by linarith)
  have integer_le : (nearestInteger (rounded (number * power)) : Rat) ≤ greatest := by
    calc (nearestInteger (rounded (number * power)) : Rat) ≤ nearestInteger greatest := by
          exact_mod_cast nearestInteger_mono (rounded_le_greatest product_nonneg inside)
      _ = greatest := nearestInteger_significand _ (by norm_num)
  have quotient_le := div_le_self (Nat.cast_nonneg (nearestInteger (rounded (number * power))))
    one_le
  exact absurd (beyond.trans (quotient_le.trans integer_le)) greatest_lt.not_ge

/-- The greatest double times a power of two that is not too small is an integer. -/
theorem rounded_greatest_mul_two_zpow {place : Int} (least_le : -971 ≤ place) :
    rounded (greatest * 2 ^ place) = (2 ^ 53 - 1 : Nat) * 2 ^ (971 + place) := by
  rw [greatest, mul_assoc, ← zpow_add₀ two_ne_zero]
  exact rounded_of_significand (by omega) (by norm_num)

/-- The greatest double times another significand loses more than a half in the last place. -/
theorem rounded_greatest_mul {significand : Nat} {place : Int} (least_le : -1023 ≤ place)
    (lower : 2 ^ 52 < significand) (upper : significand < 2 ^ 53) :
    rounded (greatest * (significand * 2 ^ place)) =
      (significand - 1 : Nat) * 2 ^ (1024 + place) := by
  have lower_cast : (2 : Rat) ^ 52 + 1 ≤ significand := by exact_mod_cast lower
  have upper_cast : (significand : Rat) < 2 ^ 53 := by exact_mod_cast upper
  have pred_eq : ((significand - 1 : Nat) : Rat) = significand - 1 := by
    rw [Nat.cast_sub (by omega), Nat.cast_one]
  obtain ⟨unit, unit_eq⟩ : ∃ unit : Rat, 2 ^ (971 + place) = unit := ⟨_, rfl⟩
  have unit_pos : 0 < unit := unit_eq ▸ two_zpow_pos _
  have power_eq {exponent : Int} (count : Nat) (exponent_eq : exponent = 971 + place + count) :
      (2 : Rat) ^ exponent = 2 ^ count * unit := by
    rw [exponent_eq, two_zpow_add, unit_eq]
  have product_eq :
      greatest * (significand * 2 ^ place) = (2 ^ 53 - 1 : Nat) * significand * unit := by
    rw [greatest, ← unit_eq, zpow_add₀ two_ne_zero]
    ring
  have near : IsNearest (significand - 1)
      (greatest * (significand * 2 ^ place) / 2 ^ (1024 + place)) := by
    have scaled_eq : greatest * (significand * 2 ^ place) / 2 ^ (1024 + place) =
        significand - significand / 2 ^ 53 := by
      rw [product_eq, power_eq 53 (by omega), mul_div_mul_right _ _ unit_pos.ne']
      push_cast
      ring
    rw [scaled_eq]
    constructor <;> rw [pred_eq]
    · linarith
    · linarith
    · exact fun _ => ⟨by linarith, by linarith⟩
  refine rounded_eq ?_ (by omega) (.inr ?_) ?_ near
  · rw [product_eq]
    exact mul_pos (mul_pos (by norm_num) (by linarith)) unit_pos
  · rw [product_eq, power_eq 105 (by omega)]
    exact mul_le_mul_of_nonneg_right (by push_cast; linarith) unit_pos.le
  · rw [product_eq, power_eq 106 (by omega)]
    exact mul_lt_mul_of_pos_right (by push_cast; linarith) unit_pos

/-- The greatest double times a power that is not too small is rounded down, to an integer. -/
theorem nearestInteger_rounded_greatest_le {power : Parts} (canonical : power.IsCanonical)
    (large : 2 ^ (-971 : Int) ≤ power.size) :
    (nearestInteger (rounded (greatest * power.size)) : Rat) ≤ greatest * power.size := by
  have significand_lt : (power.significand : Rat) < 2 ^ 53 := by
    exact_mod_cast canonical.significand_lt
  have exponent_ge : -1023 ≤ power.exponent := by
    have bound : (2 : Rat) ^ (-971 : Int) < 2 ^ (power.exponent + (53 : Nat)) := by
      rw [two_zpow_add]
      exact large.trans_lt (mul_lt_mul_of_pos_right significand_lt (two_zpow_pos _))
    have := (zpow_lt_zpow_iff_right₀ (by norm_num)).mp bound
    omega
  have hidden : 2 ^ 52 ≤ power.significand := canonical.normal.resolve_left (by omega)
  rcases hidden.eq_or_lt with least | above
  · have size_eq : power.size = 2 ^ (power.exponent + (52 : Nat)) := by
      rw [Parts.size, ← least, two_zpow_add]
      push_cast
      rfl
    rw [size_eq, rounded_greatest_mul_two_zpow (by omega), nearestInteger_significand _ (by omega),
      greatest, mul_assoc, ← zpow_add₀ two_ne_zero]
  · have power_eq : (2 : Rat) ^ (1024 + power.exponent) =
        2 ^ 53 * (2 ^ (971 : Int) * 2 ^ power.exponent) := by
      rw [← zpow_add₀ two_ne_zero, show 1024 + power.exponent =
        971 + power.exponent + (53 : Nat) by omega, two_zpow_add]
    have unit_pos := mul_pos (two_zpow_pos 971) (two_zpow_pos power.exponent)
    rw [Parts.size, rounded_greatest_mul exponent_ge above canonical.significand_lt,
      nearestInteger_significand _ (by omega), power_eq, greatest,
      mul_mul_mul_comm, ← mul_assoc]
    refine mul_le_mul_of_nonneg_right ?_ unit_pos.le
    rw [Nat.cast_sub (by omega)]
    push_cast
    linarith

theorem not_overshoots_of_large {power : Parts} {number : Rat} (canonical : power.IsCanonical)
    (large : 2 ^ (-971 : Int) ≤ power.size) (nonneg : 0 ≤ number) (number_le : number ≤ greatest) :
    ¬Overshoots power.size number := by
  rintro ⟨-, beyond⟩
  have power_pos := (two_zpow_pos _).trans_le large
  have product_le := mul_le_mul_of_nonneg_right number_le power_pos.le
  have integer_le : (nearestInteger (rounded (number * power.size)) : Rat) ≤
      greatest * power.size := by
    refine le_trans ?_ (nearestInteger_rounded_greatest_le canonical large)
    exact_mod_cast nearestInteger_mono
      (rounded_mono (mul_nonneg nonneg power_pos.le) product_le)
  rw [le_div_iff₀ power_pos] at beyond
  have bound := le_of_mul_le_mul_right (beyond.trans integer_le) power_pos
  exact absurd bound greatest_lt.not_ge

end Binary64
end UnitAlgebra
