import Mathlib.Data.Nat.Cast.Order.Field
import UnitAlgebra.Proofs.Binary64.Rounded

/-!
# Products and quotients of doubles

The product and the quotient of two finite doubles are what the exact product and quotient are
rounded to, with the sign of the one times that of the other, and an infinity where that is beyond
the doubles.  The logical model finds them by shifting a mantissa to its last place, with two bits
that say where the rest lies.
-/

namespace UnitAlgebra
namespace Binary64

open Float.Model (UnpackedFloat Format totalExponent)
open Float.Model.UnpackedFloat

/-! ## Mantissas -/

/-- A mantissa and two bits that stand for a fraction: its quotient, and where the rest lies. -/
structure StandsFor (extended : ExtendedMantissa) (dividend divisor : Nat) : Prop where
  /-- The mantissa is the quotient. -/
  mantissa_eq : extended.mantissa = dividend / divisor
  /-- The first bit tells whether the rest is at least a half. -/
  roundBit_eq : extended.roundBit = decide (divisor ≤ 2 * (dividend % divisor))
  /-- The second bit tells whether the rest is neither nothing nor a half. -/
  stickyBit_eq : extended.stickyBit = decide (2 * (dividend % divisor) % divisor ≠ 0)

section

variable {extended : ExtendedMantissa} {dividend divisor : Nat}

/-- Two bits are enough to round a fraction half to even. -/
theorem StandsFor.roundedMantissa_eq (stands : StandsFor extended dividend divisor)
    (positive : 0 < divisor) : extended.roundedMantissa = roundHalfEven dividend divisor := by
  obtain ⟨mantissa, roundBit, stickyBit⟩ := extended
  obtain ⟨rfl, rfl, rfl⟩ := stands
  have remainder_lt := Nat.mod_lt dividend positive
  rw [ExtendedMantissa.roundedMantissa, roundHalfEven]
  dsimp only
  generalize dividend / divisor = quotient
  generalize dividend % divisor = remainder at remainder_lt ⊢
  cases order : compare (2 * remainder) divisor with
  | lt =>
      rw [Nat.compare_eq_lt] at order
      rw [Nat.mod_eq_of_lt order, decide_eq_false order.not_ge]
      cases decide (2 * remainder ≠ 0) <;> rfl
  | eq =>
      rw [Nat.compare_eq_eq] at order
      rw [order, Nat.mod_self]
      simp only [le_refl, decide_true, ne_eq, not_true, decide_false]
      rfl
  | gt =>
      rw [Nat.compare_eq_gt] at order
      have rest : 2 * remainder % divisor ≠ 0 := by
        rw [Nat.mod_eq_sub_mod order.le, Nat.mod_eq_of_lt (by omega)]
        omega
      rw [decide_eq_true order.le, decide_eq_true rest]
      rfl

theorem StandsFor.shiftRightOne (stands : StandsFor extended dividend divisor)
    (positive : 0 < divisor) : StandsFor extended.shiftRightOne dividend (divisor * 2) := by
  obtain ⟨mantissa, roundBit, stickyBit⟩ := extended
  obtain ⟨rfl, rfl, rfl⟩ := stands
  have remainder_lt := Nat.mod_lt dividend positive
  have split : dividend % (divisor * 2) = dividend % divisor + divisor * (dividend / divisor % 2) :=
    Nat.mod_mul
  have twice : 2 * (dividend % (divisor * 2)) % (divisor * 2) = 2 * (dividend % divisor) := by
    rw [split, Nat.mul_add, ← Nat.mul_assoc, Nat.mul_comm 2 divisor, Nat.add_mul_mod_self_left]
    exact Nat.mod_eq_of_lt (by omega)
  refine ⟨Nat.div_div_eq_div_mul _ _ _, ?_, ?_⟩
  · dsimp only [ExtendedMantissa.shiftRightOne]
    rw [split]
    rcases Nat.mod_two_eq_zero_or_one (dividend / divisor) with even | odd
    · rw [even, decide_eq_false (by omega)]
      rfl
    · rw [odd, decide_eq_true (by omega)]
      rfl
  · dsimp only [ExtendedMantissa.shiftRightOne]
    rw [twice, ← Bool.decide_or]
    refine decide_eq_decide.mpr ⟨?_, fun nonzero => ?_⟩
    · rintro (half | rest)
      · omega
      · exact fun zero => rest (by rw [zero, Nat.zero_mod])
    · rcases Nat.lt_or_ge (2 * (dividend % divisor)) divisor with below | half
      · exact .inr (by rwa [Nat.mod_eq_of_lt below])
      · exact .inl half

theorem StandsFor.shiftRight (stands : StandsFor extended dividend divisor)
    (positive : 0 < divisor) (count : Nat) :
    StandsFor (extended >>> count) dividend (divisor * 2 ^ count) := by
  change StandsFor (Nat.repeat ExtendedMantissa.shiftRightOne count extended) _ _
  induction count with
  | zero => rwa [Nat.pow_zero, Nat.mul_one]
  | succ count induction =>
      rw [Nat.pow_succ, ← Nat.mul_assoc]
      exact induction.shiftRightOne (Nat.mul_pos positive (Nat.two_pow_pos count))

end

theorem standsFor_exact (mantissa : Nat) :
    StandsFor (.ofMantissaAndAccuracy mantissa .exact) mantissa 1 := by
  refine ⟨(Nat.div_one mantissa).symm, ?_, ?_⟩
  · rw [Nat.mod_one]
    rfl
  · rw [Nat.mod_one]
    rfl

theorem standsFor_fraction (dividend : Nat) {divisor : Nat} (positive : 0 < divisor) :
    StandsFor (.ofMantissaAndAccuracy (dividend / divisor)
      (accuracyOfFraction (dividend % divisor) divisor)) dividend divisor := by
  have remainder_lt := Nat.mod_lt dividend positive
  rw [accuracyOfFraction]
  split
  · rename_i exact
    refine ⟨rfl, ?_, ?_⟩
    · rw [exact, decide_eq_false (by omega)]
      rfl
    · rw [exact, Nat.mul_zero, Nat.zero_mod]
      rfl
  · rename_i inexact
    cases order : compare (2 * (dividend % divisor)) divisor with
    | lt =>
        rw [Nat.compare_eq_lt] at order
        refine ⟨rfl, (decide_eq_false order.not_ge).symm, (decide_eq_true ?_).symm⟩
        rw [Nat.mod_eq_of_lt order]
        omega
    | eq =>
        rw [Nat.compare_eq_eq] at order
        refine ⟨rfl, (decide_eq_true order.ge).symm, (decide_eq_false ?_).symm⟩
        rw [order, Nat.mod_self]
        exact not_not.mpr rfl
    | gt =>
        rw [Nat.compare_eq_gt] at order
        refine ⟨rfl, (decide_eq_true order.le).symm, (decide_eq_true ?_).symm⟩
        rw [Nat.mod_eq_sub_mod order.le, Nat.mod_eq_of_lt (by omega)]
        omega

/-! ## Rounding to a double -/

/-- The absolute value of a finite double. -/
def Parts.size (parts : Parts) : Rat :=
  parts.significand * 2 ^ parts.exponent

/-- A double that a number is rounded to: what the number is rounded to, or an infinity beyond. -/
inductive Rounds (negative : Bool) (value : Rat) : Float → Prop where
  /-- The number is rounded to a finite double. -/
  | finite {parts : Parts} (canonical : parts.IsCanonical) (negative_eq : parts.negative = negative)
      (size_eq : parts.size = rounded value) : Rounds negative value parts.toFloat
  /-- What the number is rounded to is beyond the doubles. -/
  | infinite {result : Float} (unpack_eq : result.toModel.unpack = .infinity (signOf negative))
      (beyond : 2 ^ (1024 : Int) ≤ rounded value) : Rounds negative value result

theorem shiftToTargetExponent_of_lt {mantissa : Nat} {exponent : Int}
    (mantissa_lt : mantissa < 2 ^ 53) (least_le : -1074 ≤ exponent) :
    shiftToTargetExponent Format.binary64 mantissa exponent .exact =
      (⟨mantissa, false, false⟩, exponent) := by
  have log_le : mantissa.log2 ≤ 52 := by
    rcases Nat.eq_zero_or_pos mantissa with rfl | positive
    · decide
    · have := (Nat.log2_lt positive.ne').mpr mantissa_lt
      omega
  have target_le :
      Format.binary64.targetExponent (totalExponent mantissa exponent) ≤ exponent := by
    change max ((mantissa.log2 : Int) + 1 + exponent - 53) (-1074) ≤ exponent
    omega
  rw [shiftToTargetExponent, shiftToExponent, Int.toNat_of_nonpos (by omega)]
  exact congrArg (Prod.mk _) (Int.add_zero exponent)

theorem shiftToTargetExponent_carry {exponent : Int} (least_le : -1074 ≤ exponent) :
    shiftToTargetExponent Format.binary64 (2 ^ 53) exponent .exact =
      (⟨2 ^ 52, false, false⟩, exponent + 1) := by
  have target_eq :
      Format.binary64.targetExponent (totalExponent (2 ^ 53) exponent) = exponent + 1 := by
    change max (((2 ^ 53 : Nat).log2 : Int) + 1 + exponent - 53) (-1074) = exponent + 1
    rw [Nat.log2_two_pow]
    omega
  have amount : (exponent + 1 - exponent).toNat = 1 := by omega
  rw [shiftToTargetExponent, target_eq, shiftToExponent, amount]
  rfl

section

variable {mantissa dividend divisor : Nat} {exponent : Int} {accuracy : Accuracy} {value : Rat}

/-- The logical model shifts to the last place of the number. -/
theorem targetExponent_eq (positive : 0 < value) (lower : mantissa * 2 ^ exponent ≤ value)
    (upper : value < (mantissa + 1) * 2 ^ exponent) (long : exponent ≤ -1074 ∨ 2 ^ 52 ≤ mantissa) :
    Format.binary64.targetExponent (totalExponent mantissa exponent) = lastPlace value := by
  have power_pos := two_zpow_pos exponent
  change max ((mantissa.log2 : Int) + 1 + exponent - 53) (-1074) = lastPlace value
  rcases Nat.eq_zero_or_pos mantissa with rfl | mantissa_pos
  · have tiny : exponent ≤ -1074 := long.resolve_right (by norm_num)
    rw [Nat.cast_zero, zero_add, one_mul] at upper
    have power_le : (2 : Rat) ^ exponent ≤ 2 ^ (-1074 + 53 : Int) :=
      zpow_le_zpow_right₀ (by norm_num) (by omega)
    rw [lastPlace_eq_least positive (upper.trans_le power_le), Nat.log2_zero]
    omega
  · have log_lower : (2 : Rat) ^ (exponent + mantissa.log2) ≤ value := by
      rw [two_zpow_add]
      refine le_trans (mul_le_mul_of_nonneg_right ?_ power_pos.le) lower
      exact_mod_cast Nat.log2_self_le mantissa_pos.ne'
    have log_upper : value < (2 : Rat) ^ (exponent + (mantissa.log2 + 1 : Nat)) := by
      rw [two_zpow_add]
      refine upper.trans_le (mul_le_mul_of_nonneg_right ?_ power_pos.le)
      exact_mod_cast @Nat.lt_log2_self mantissa
    rcases le_or_gt ((mantissa.log2 : Int) + 1 + exponent - 53) (-1074) with tiny | normal
    · have power_le : (2 : Rat) ^ (exponent + (mantissa.log2 + 1 : Nat)) ≤ 2 ^ (-1074 + 53 : Int) :=
        zpow_le_zpow_right₀ (by norm_num) (by omega)
      rw [lastPlace_eq_least positive (log_upper.trans_le power_le)]
      omega
    · rw [max_eq_left normal.le]
      refine (lastPlace_eq normal.le ?_ ?_).symm
      · rwa [show (mantissa.log2 : Int) + 1 + exponent - 53 + 52 = exponent + mantissa.log2 by
          omega]
      · rwa [show (mantissa.log2 : Int) + 1 + exponent - 53 + 53 =
          exponent + (mantissa.log2 + 1 : Nat) by omega]

theorem mantissa_eq_div (stands : StandsFor (.ofMantissaAndAccuracy mantissa accuracy) dividend
    divisor) : mantissa = dividend / divisor := by
  have own := stands.mantissa_eq
  cases accuracy with
  | exact => exact own
  | inexact order => cases order <;> exact own

/-- Shifted to the last place, the mantissa is rounded as the number is. -/
theorem exists_shiftToTargetExponent (divisor_pos : 0 < divisor) (dividend_pos : 0 < dividend)
    (stands : StandsFor (.ofMantissaAndAccuracy mantissa accuracy) dividend divisor)
    (value_eq : value = dividend / divisor * 2 ^ exponent)
    (long : exponent ≤ -1074 ∨ 2 ^ 52 ≤ mantissa) :
    ∃ extended : ExtendedMantissa,
      shiftToTargetExponent Format.binary64 mantissa exponent accuracy =
        (extended, lastPlace value) ∧ extended.roundedMantissa = roundedSignificand value := by
  have power_pos := two_zpow_pos exponent
  have divisor_cast : (0 : Rat) < divisor := by exact_mod_cast divisor_pos
  have positive : 0 < value := by
    rw [value_eq]
    exact mul_pos (div_pos (by exact_mod_cast dividend_pos) divisor_cast) power_pos
  have quotient_eq := mantissa_eq_div stands
  have lower : mantissa * 2 ^ exponent ≤ value := by
    rw [value_eq, quotient_eq]
    exact mul_le_mul_of_nonneg_right Nat.cast_div_le power_pos.le
  have upper : value < (mantissa + 1) * 2 ^ exponent := by
    rw [value_eq, quotient_eq]
    refine mul_lt_mul_of_pos_right ?_ power_pos
    rw [div_lt_iff₀ divisor_cast]
    rw [mul_comm]
    exact_mod_cast Nat.lt_mul_div_succ dividend divisor_pos
  have reaches : exponent ≤ lastPlace value := by
    rcases long with tiny | long
    · exact tiny.trans (least_le_lastPlace value)
    · have bound : (2 : Rat) ^ (exponent + (52 : Nat)) ≤ value := by
        rw [two_zpow_add]
        exact le_trans (mul_le_mul_of_nonneg_right (by exact_mod_cast long) power_pos.le) lower
      have := (zpow_lt_zpow_iff_right₀ (by norm_num)).mp
        (bound.trans_lt (lastPlace_spec positive).1)
      omega
  obtain ⟨count, count_eq⟩ := Int.eq_ofNat_of_zero_le (Int.sub_nonneg_of_le reaches)
  have place_eq : lastPlace value = exponent + count := by omega
  have shifted := stands.shiftRight divisor_pos count
  have shifted_pos : 0 < divisor * 2 ^ count := Nat.mul_pos divisor_pos (Nat.two_pow_pos count)
  have scaled_eq : value / 2 ^ lastPlace value = dividend / (divisor * 2 ^ count : Nat) := by
    rw [place_eq, two_zpow_add, value_eq]
    push_cast
    field_simp
  have near := isNearest_roundHalfEven dividend shifted_pos
  rw [← scaled_eq] at near
  refine ⟨ExtendedMantissa.ofMantissaAndAccuracy mantissa accuracy >>> count, ?_, ?_⟩
  · rw [shiftToTargetExponent, targetExponent_eq positive lower upper long, shiftToExponent,
      count_eq, place_eq]
    rfl
  · rw [shifted.roundedMantissa_eq shifted_pos]
    exact near.unique (isNearest_roundedSignificand positive.le)

/-- A significand and an exponent in their range are a double, or an infinity beyond. -/
theorem rounds_pack {significand : Nat} {place : Int} (negative : Bool)
    (significand_lt : significand < 2 ^ 53) (least_le : -1074 ≤ place)
    (normal : place = -1074 ∨ 2 ^ 52 ≤ significand)
    (size_eq : significand * 2 ^ place = rounded value) :
    Rounds negative value (.ofModel (.pack (Parts.unpacked ⟨negative, significand, place⟩))) := by
  rcases le_or_gt place 971 with inside | beyond
  · have canonical : Parts.IsCanonical ⟨negative, significand, place⟩ :=
      ⟨significand_lt, least_le, inside, normal⟩
    exact .finite canonical rfl size_eq
  · have hidden : 2 ^ 52 ≤ significand := normal.resolve_left (by omega)
    have nonzero : significand ≠ 0 := by omega
    refine .infinite ?_ ?_
    · have pack_eq : UnpackedFloat.pack Format.binary64
          (Parts.unpacked ⟨negative, significand, place⟩) =
            packedInfinity Format.binary64 (signOf negative) := by
        rw [Parts.unpacked, dif_neg nonzero]
        refine if_pos ?_
        change 2 ^ 11 ≤ (place + 1023 + 52).toNat + 1
        omega
      change UnpackedFloat.unpack Format.binary64 (UnpackedFloat.pack _ _) = _
      rw [pack_eq]
      cases negative <;> rfl
    · have hidden_cast : (2 : Rat) ^ 52 ≤ significand := by exact_mod_cast hidden
      have power_le : (2 : Rat) ^ (1024 : Int) ≤ 2 ^ (place + (52 : Nat)) :=
        zpow_le_zpow_right₀ (by norm_num) (by omega)
      rw [two_zpow_add] at power_le
      rw [← size_eq]
      exact power_le.trans (mul_le_mul_of_nonneg_right hidden_cast (two_zpow_pos place).le)

theorem rounds_roundWithAccuracy (negative : Bool) (divisor_pos : 0 < divisor)
    (dividend_pos : 0 < dividend)
    (stands : StandsFor (.ofMantissaAndAccuracy mantissa accuracy) dividend divisor)
    (value_eq : value = dividend / divisor * 2 ^ exponent)
    (long : exponent ≤ -1074 ∨ 2 ^ 52 ≤ mantissa) :
    Rounds negative value (.ofModel (.pack
      (roundWithAccuracy Format.binary64 (signOf negative) mantissa exponent accuracy))) := by
  obtain ⟨extended, shift_eq, rounded_eq⟩ :=
    exists_shiftToTargetExponent divisor_pos dividend_pos stands value_eq long
  have positive : 0 < value := by
    rw [value_eq]
    exact mul_pos (div_pos (by exact_mod_cast dividend_pos) (by exact_mod_cast divisor_pos))
      (two_zpow_pos exponent)
  have least_le := least_le_lastPlace value
  rw [roundWithAccuracy, shift_eq]
  dsimp only
  rw [rounded_eq]
  rcases (roundedSignificand_le positive).lt_or_eq with short | carry
  · rw [shiftToTargetExponent_of_lt short least_le]
    refine rounds_pack negative short least_le ?_ rfl
    exact (lastPlace_spec positive).2.imp_right le_roundedSignificand
  · rw [carry, shiftToTargetExponent_carry least_le]
    have short : 2 ^ 52 < 2 ^ 53 := by norm_num
    refine rounds_pack negative short (by omega) (.inr le_rfl) ?_
    rw [rounded, carry, zpow_add_one₀ two_ne_zero]
    push_cast
    ring

end

/-! ## Products and quotients -/

theorem rounds_zero (negative : Bool) :
    Rounds negative 0 (.ofModel (.pack (.zero (signOf negative)))) :=
  rounds_pack negative (show 0 < 2 ^ 53 by norm_num) le_rfl (.inl rfl)
    (by rw [rounded_zero, Nat.cast_zero, zero_mul])

namespace Parts

variable {left right : Parts}

theorem size_eq_zero {parts : Parts} : parts.size = 0 ↔ parts.significand = 0 := by
  rw [size, mul_eq_zero, Nat.cast_eq_zero]
  exact or_iff_left (two_zpow_pos _).ne'

theorem IsCanonical.rounds_mul (canonical : left.IsCanonical) (canonical' : right.IsCanonical) :
    Rounds (left.negative ^^ right.negative) (left.size * right.size)
      (left.toFloat * right.toFloat) := by
  have sign_eq : signOf left.negative * signOf right.negative =
      signOf (left.negative ^^ right.negative) := by
    cases left.negative <;> cases right.negative <;> rfl
  have vanishes (product_eq : left.size * right.size = 0) :
      Rounds (left.negative ^^ right.negative) (left.size * right.size)
        (.ofModel (.pack (.zero (signOf left.negative * signOf right.negative)))) := by
    rw [product_eq, sign_eq]
    exact rounds_zero _
  change Rounds _ _ (.ofModel (.pack (UnpackedFloat.mul Format.binary64
    left.toFloat.toModel.unpack right.toFloat.toModel.unpack)))
  rw [unpack_of_ofFloat? canonical.ofFloat?_toFloat, unpack_of_ofFloat? canonical'.ofFloat?_toFloat,
    unpacked, unpacked]
  by_cases zero : left.significand = 0
  · have product_eq : left.size * right.size = 0 := by rw [size_eq_zero.mpr zero, zero_mul]
    rw [dif_pos zero]
    by_cases zero' : right.significand = 0
    · rw [dif_pos zero']
      exact vanishes product_eq
    · rw [dif_neg zero']
      exact vanishes product_eq
  by_cases zero' : right.significand = 0
  · rw [dif_neg zero, dif_pos zero']
    exact vanishes (by rw [size_eq_zero.mpr zero', mul_zero])
  rw [dif_neg zero, dif_neg zero']
  change Rounds _ _ (.ofModel (.pack (roundWithAccuracy Format.binary64 _ _ _ .exact)))
  rw [sign_eq]
  refine rounds_roundWithAccuracy _ Nat.one_pos
    (Nat.mul_pos (Nat.pos_of_ne_zero zero) (Nat.pos_of_ne_zero zero')) (standsFor_exact _) ?_ ?_
  · rw [size, size, zpow_add₀ two_ne_zero]
    push_cast
    ring
  · rcases canonical.normal with least | hidden
    · rcases canonical'.normal with least' | hidden'
      · exact .inl (by omega)
      · exact .inr (hidden'.trans (Nat.le_mul_of_pos_left _ (Nat.pos_of_ne_zero zero)))
    · exact .inr (hidden.trans (Nat.le_mul_of_pos_right _ (Nat.pos_of_ne_zero zero')))

/-- A quotient has enough digits, or an exponent that is small enough. -/
theorem exists_divCore (nonzero : left.significand ≠ 0) (nonzero' : right.significand ≠ 0) :
    ∃ (count : Nat) (exponent : Int), left.exponent - right.exponent = exponent + count ∧
      divCore Format.binary64 left.significand left.exponent right.significand right.exponent =
        (left.significand * 2 ^ count / right.significand, exponent,
          accuracyOfFraction (left.significand * 2 ^ count % right.significand)
            right.significand) ∧
      (exponent ≤ -1074 ∨ 2 ^ 52 ≤ left.significand * 2 ^ count / right.significand) := by
  obtain ⟨exponent, exponent_eq⟩ : ∃ exponent : Int, min (left.exponent - right.exponent)
      (Format.binary64.targetExponent (totalExponent left.significand left.exponent -
        totalExponent right.significand right.exponent)) = exponent := ⟨_, rfl⟩
  obtain ⟨count, count_eq⟩ :=
    Int.eq_ofNat_of_zero_le (show 0 ≤ left.exponent - right.exponent - exponent by omega)
  refine ⟨count, exponent, by omega, ?_, ?_⟩
  · rw [divCore, exponent_eq, count_eq, Int.toNat_natCast, Nat.shiftLeft_eq]
  · change min _ (max ((left.significand.log2 + 1 + left.exponent -
      (right.significand.log2 + 1 + right.exponent) : Int) - 53) (-1074)) = _ at exponent_eq
    refine or_iff_not_imp_left.mpr fun normal => ?_
    have count_ge : right.significand.log2 + 53 ≤ left.significand.log2 + count := by omega
    rw [Nat.le_div_iff_mul_le (Nat.pos_of_ne_zero nonzero')]
    calc 2 ^ 52 * right.significand ≤ 2 ^ 52 * 2 ^ (right.significand.log2 + 1) :=
          Nat.mul_le_mul_left _ Nat.lt_log2_self.le
      _ = 2 ^ (right.significand.log2 + 53) := by
          rw [← Nat.pow_add]
          congr 1
          omega
      _ ≤ 2 ^ (left.significand.log2 + count) := Nat.pow_le_pow_right (by norm_num) count_ge
      _ = 2 ^ left.significand.log2 * 2 ^ count := Nat.pow_add _ _ _
      _ ≤ left.significand * 2 ^ count :=
          Nat.mul_le_mul_right _ (Nat.log2_self_le nonzero)

theorem IsCanonical.rounds_div (canonical : left.IsCanonical) (canonical' : right.IsCanonical)
    (nonzero' : right.significand ≠ 0) :
    Rounds (left.negative ^^ right.negative) (left.size / right.size)
      (left.toFloat / right.toFloat) := by
  have sign_eq : signOf left.negative / signOf right.negative =
      signOf (left.negative ^^ right.negative) := by
    cases left.negative <;> cases right.negative <;> rfl
  change Rounds _ _ (.ofModel (.pack (UnpackedFloat.div Format.binary64
    left.toFloat.toModel.unpack right.toFloat.toModel.unpack)))
  rw [unpack_of_ofFloat? canonical.ofFloat?_toFloat, unpack_of_ofFloat? canonical'.ofFloat?_toFloat,
    unpacked, unpacked, dif_neg nonzero']
  by_cases zero : left.significand = 0
  · rw [dif_pos zero, size_eq_zero.mpr zero, zero_div]
    change Rounds _ _ (.ofModel (.pack (.zero (signOf left.negative / signOf right.negative))))
    rw [sign_eq]
    exact rounds_zero _
  rw [dif_neg zero]
  obtain ⟨count, exponent, place_eq, core_eq, long⟩ := exists_divCore zero nonzero'
  change Rounds _ _ (.ofModel (.pack (roundWithAccuracy Format.binary64 _
    (divCore _ _ _ _ _).1 (divCore _ _ _ _ _).2.1 (divCore _ _ _ _ _).2.2)))
  rw [sign_eq, core_eq]
  refine rounds_roundWithAccuracy _ (Nat.pos_of_ne_zero nonzero')
    (Nat.mul_pos (Nat.pos_of_ne_zero zero) (Nat.two_pow_pos count))
    (standsFor_fraction _ (Nat.pos_of_ne_zero nonzero')) ?_ long
  have exponent_eq : left.exponent = right.exponent + exponent + count := by omega
  rw [size, size, exponent_eq, two_zpow_add, zpow_add₀ two_ne_zero]
  push_cast
  have power_ne := (two_zpow_pos right.exponent).ne'
  have divisor_ne : (right.significand : Rat) ≠ 0 := by exact_mod_cast nonzero'
  field_simp

end Parts

/-! ## The range of the results -/

theorem Parts.size_nonneg (parts : Parts) : 0 ≤ parts.size :=
  mul_nonneg (Nat.cast_nonneg _) (two_zpow_pos _).le

theorem Parts.IsCanonical.size_lt {parts : Parts} (canonical : parts.IsCanonical) :
    parts.size < 2 ^ (1024 : Int) := by
  have significand_lt : (parts.significand : Rat) < 2 ^ 53 := by
    exact_mod_cast canonical.significand_lt
  calc parts.size < 2 ^ 53 * 2 ^ parts.exponent :=
        mul_lt_mul_of_pos_right significand_lt (two_zpow_pos _)
    _ = 2 ^ (parts.exponent + (53 : Nat)) := (two_zpow_add _ _).symm
    _ ≤ 2 ^ (1024 : Int) :=
        zpow_le_zpow_right₀ (by norm_num) (by have := canonical.exponent_le; omega)

/-- The absolute value of a double; NaN and the infinities have none, and are given zero. -/
def size (value : Float) : Rat :=
  (Parts.ofFloat? value).elim 0 Parts.size

theorem size_of_ofFloat? {value : Float} {parts : Parts}
    (read : Parts.ofFloat? value = some parts) : size value = parts.size := by
  rw [size, read, Option.elim_some]

theorem size_nonneg (value : Float) : 0 ≤ size value := by
  rw [size]
  cases Parts.ofFloat? value with
  | none => exact le_rfl
  | some parts => exact parts.size_nonneg

namespace Rounds

variable {negative : Bool} {value : Rat} {result : Float}

theorem isFinite_iff (rounds : Rounds negative value result) (nonneg : 0 ≤ value) :
    result.isFinite = true ↔ value < overflowBound := by
  rw [← rounded_lt_iff nonneg]
  cases rounds with
  | finite canonical _ size_eq =>
      rw [← size_eq]
      exact iff_of_true (isFinite_of_ofFloat? canonical.ofFloat?_toFloat) canonical.size_lt
  | infinite unpack_eq beyond =>
      refine iff_of_false (fun finite => ?_) beyond.not_gt
      change result.toModel.unpack.isFinite = true at finite
      rw [unpack_eq] at finite
      cases finite

theorem size_eq (rounds : Rounds negative value result) (finite : result.isFinite = true) :
    size result = rounded value := by
  cases rounds with
  | finite canonical _ size_eq => rw [size_of_ofFloat? canonical.ofFloat?_toFloat, size_eq]
  | infinite unpack_eq _ =>
      change result.toModel.unpack.isFinite = true at finite
      rw [unpack_eq] at finite
      cases finite

end Rounds

end Binary64
end UnitAlgebra
