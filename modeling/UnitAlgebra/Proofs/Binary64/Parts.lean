import Mathlib.Algebra.Order.Field.Rat
import UnitAlgebra.Binary64.Parts

/-!
# Doubles and their parts

A double is finite exactly if it has parts, and its parts determine it.  The logical model of
doubles unpacks a bit pattern into the same parts, so multiplication and division by one, division
of a double by itself, negation and comparison are settled on parts.
-/

namespace UnitAlgebra
namespace Binary64

open Float.Model (UnpackedFloat Format totalExponent)
open Float.Model.UnpackedFloat

/-! ## Bit patterns -/

theorem toNat_append {front_width back_width : Nat} (front : BitVec front_width)
    (back : BitVec back_width) :
    (front ++ back).toNat = front.toNat * 2 ^ back_width + back.toNat := by
  rw [BitVec.toNat_append, ← Nat.shiftLeft_add_eq_or_of_lt back.isLt, Nat.shiftLeft_eq]

theorem toNat_packComponents (sign : Sign) (exponent : BitVec 11) (mantissa : BitVec 52) :
    (packComponents Format.binary64 sign exponent mantissa).toNat =
      (sign.toBitVec.toNat * 2 ^ 11 + exponent.toNat) * 2 ^ 52 + mantissa.toNat := by
  rw [packComponents, toNat_append, toNat_append]

theorem log2_eq {number place : Nat} (lower : 2 ^ place ≤ number)
    (upper : number < 2 ^ (place + 1)) : number.log2 = place := by
  have nonzero : number ≠ 0 := by
    have := Nat.two_pow_pos place
    omega
  exact (Nat.log2_eq_iff nonzero).mpr ⟨lower, upper⟩

section

variable (bits : BitVec Format.binary64.numBits)

theorem toNat_unpackExponent : (unpackExponent bits).toNat = bits.toNat / 2 ^ 52 % 2 ^ 11 := by
  simp [unpackExponent, BitVec.extractLsb_toNat, Nat.shiftRight_eq_div_pow]

theorem toNat_unpackMantissa : (unpackMantissa bits).toNat = bits.toNat % 2 ^ 52 := by
  simp [unpackMantissa, BitVec.extractLsb_toNat, Nat.shiftRight_eq_div_pow]

theorem toNat_unpackSign : (unpackSign bits).toNat = bits.toNat / 2 ^ 63 % 2 := by
  delta unpackSign
  simp [ BitVec.extractLsb_toNat, Nat.shiftRight_eq_div_pow]

theorem unpackExponent_eq_special :
    unpackExponent bits = -1#11 ↔ bits.toNat / 2 ^ 52 % 2 ^ 11 = 2047 := by
  rw [← toNat_unpackExponent, ← BitVec.toNat_inj]
  rfl

theorem unpackExponent_eq_zero :
    unpackExponent bits = 0#11 ↔ bits.toNat / 2 ^ 52 % 2 ^ 11 = 0 := by
  rw [← toNat_unpackExponent, ← BitVec.toNat_inj]
  rfl

theorem unpackMantissa_eq_zero : unpackMantissa bits = 0#52 ↔ bits.toNat % 2 ^ 52 = 0 := by
  rw [← toNat_unpackMantissa, ← BitVec.toNat_inj]
  rfl

theorem packComponents_unpack :
    packComponents Format.binary64 (Sign.ofBitVec (unpackSign bits)) (unpackExponent bits)
      (unpackMantissa bits) = bits := by
  have sign_eq : (Sign.ofBitVec (unpackSign bits)).toBitVec = unpackSign bits := by
    rcases BitVec.eq_zero_or_eq_one (unpackSign bits) with zero | one
    · rw [zero]
      rfl
    · rw [one]
      rfl
  have bound : bits.toNat < 2 ^ 64 := bits.isLt
  apply BitVec.eq_of_toNat_eq
  rw [toNat_packComponents, sign_eq, toNat_unpackSign, toNat_unpackExponent, toNat_unpackMantissa]
  omega

end

/-- The sign that a sign bit stands for. -/
def signOf (negative : Bool) : Sign :=
  if negative then .negative else .positive

theorem toNat_signOf (negative : Bool) : (signOf negative).toBitVec.toNat = negative.toNat := by
  cases negative <;> rfl

theorem ofBitVec_unpackSign (bits : BitVec Format.binary64.numBits) :
    Sign.ofBitVec (unpackSign bits) = signOf (bits.toNat / 2 ^ 63 == 1) := by
  have bound : bits.toNat < 2 ^ 64 := bits.isLt
  have value := toNat_unpackSign bits
  rcases BitVec.eq_zero_or_eq_one (unpackSign bits) with zero | one
  · rw [zero] at value ⊢
    have positive : bits.toNat / 2 ^ 63 = 0 := by
      simp at value
      omega
    rw [positive]
    rfl
  · rw [one] at value ⊢
    have negative : bits.toNat / 2 ^ 63 = 1 := by
      simp at value
      omega
    rw [negative]
    rfl

/-! ## Parts of bit patterns -/

namespace Parts

/-- What a bit pattern unpacks to in the logical model. -/
def unpacked (parts : Parts) : UnpackedFloat :=
  if zero : parts.significand = 0 then
    .zero (signOf parts.negative)
  else
    .finite (signOf parts.negative) parts.significand parts.exponent (Nat.pos_of_ne_zero zero)

/-- The bit pattern that has given parts. -/
def pattern (parts : Parts) : Nat :=
  parts.negative.toNat * 2 ^ 63 + (parts.significand + (parts.exponent + 1074).toNat * 2 ^ 52)

/-- The parts that a finite double can have: only the least exponent comes without a hidden bit. -/
structure IsCanonical (parts : Parts) : Prop where
  /-- The significand has at most 53 binary digits. -/
  significand_lt : parts.significand < 2 ^ 53
  /-- The exponent is not below that of subnormal doubles. -/
  least_le : -1074 ≤ parts.exponent
  /-- The exponent is not above that of the greatest double. -/
  exponent_le : parts.exponent ≤ 971
  /-- The significand has 53 binary digits unless the exponent is the least one. -/
  normal : parts.exponent = -1074 ∨ 2 ^ 52 ≤ parts.significand

theorem ofBits?_eq (bits : UInt64) : ofBits? bits =
    if bits.toNat / 2 ^ 52 % 2 ^ 11 = 2047 then none
    else if bits.toNat / 2 ^ 52 % 2 ^ 11 = 0 then
      some ⟨bits.toNat / 2 ^ 63 == 1, bits.toNat % 2 ^ 52, -1074⟩
    else some ⟨bits.toNat / 2 ^ 63 == 1, 2 ^ 52 + bits.toNat % 2 ^ 52,
      -1074 + (bits.toNat / 2 ^ 52 % 2 ^ 11 - 1 : Nat)⟩ :=
  rfl

theorem isCanonical_of_ofBits? {bits : UInt64} {parts : Parts} (read : ofBits? bits = some parts) :
    parts.IsCanonical ∧ bits.toNat = parts.pattern := by
  have bound : bits.toNat < 2 ^ 64 := bits.toNat_lt
  have sign_eq : (bits.toNat / 2 ^ 63 == 1).toNat = bits.toNat / 2 ^ 63 := by
    rcases Nat.lt_or_ge bits.toNat (2 ^ 63) with positive | negative
    · rw [show bits.toNat / 2 ^ 63 = 0 by omega]
      rfl
    · rw [show bits.toNat / 2 ^ 63 = 1 by omega]
      rfl
  rw [ofBits?_eq] at read
  split at read
  · cases read
  · split at read
    all_goals
      obtain rfl := Option.some.inj read
      refine ⟨⟨?_, ?_, ?_, ?_⟩, ?_⟩
    case isTrue.refine_5 | isFalse.refine_5 =>
      rw [pattern, sign_eq]
      dsimp only
      omega
    all_goals
      dsimp only
      omega

theorem ofBits?_of_toNat {bits : UInt64} {parts : Parts} (canonical : parts.IsCanonical)
    (bits_eq : bits.toNat = parts.pattern) : ofBits? bits = some parts := by
  obtain ⟨significand_lt, least_le, exponent_le, normal⟩ := canonical
  obtain ⟨negative, significand, exponent⟩ := parts
  rw [pattern] at bits_eq
  dsimp only at significand_lt least_le exponent_le normal bits_eq
  have bit_lt := Bool.toNat_lt negative
  have sign_eq : (bits.toNat / 2 ^ 63 == 1) = negative := by
    have quotient : bits.toNat / 2 ^ 63 = negative.toNat := by omega
    rw [quotient]
    cases negative <;> rfl
  rw [ofBits?_eq, sign_eq]
  by_cases hidden : 2 ^ 52 ≤ significand
  · rw [if_neg (by omega), if_neg (by omega)]
    congr 2 <;> omega
  · rw [if_neg (by omega), if_pos (by omega)]
    congr 2 <;> omega

theorem IsCanonical.pattern_lt {parts : Parts} (canonical : parts.IsCanonical) :
    parts.pattern < 2 ^ 64 := by
  obtain ⟨significand_lt, least_le, exponent_le, normal⟩ := canonical
  have bit_lt := Bool.toNat_lt parts.negative
  rw [pattern]
  omega

private theorem finite_congr {sign : Sign} {mantissa significand : Nat} {exponent place : Int}
    {mantissa_pos : 0 < mantissa} {significand_pos : 0 < significand}
    (mantissa_eq : mantissa = significand) (exponent_eq : exponent = place) :
    UnpackedFloat.finite sign mantissa exponent mantissa_pos =
      .finite sign significand place significand_pos := by
  subst mantissa_eq exponent_eq
  rfl

theorem unpack_eq {bits : UInt64} {parts : Parts} (read : ofBits? bits = some parts) :
    UnpackedFloat.unpack Format.binary64 bits.toBitVec = parts.unpacked := by
  have exponent_eq := toNat_unpackExponent bits.toBitVec
  have mantissa_eq := toNat_unpackMantissa bits.toBitVec
  rw [ofBits?_eq] at read
  split at read
  · cases read
  · rename_i ordinary
    delta UnpackedFloat.unpack
    dsimp only
    rw [ofBitVec_unpackSign, if_neg ((unpackExponent_eq_special _).not.mpr ordinary)]
    split at read
    · rename_i least
      obtain rfl := Option.some.inj read
      rw [if_pos ((unpackExponent_eq_zero _).mpr least), unpacked]
      dsimp only
      by_cases zero : bits.toNat % 2 ^ 52 = 0
      · rw [dif_pos ((unpackMantissa_eq_zero _).mpr zero), dif_pos zero]
        rfl
      · rw [dif_neg ((unpackMantissa_eq_zero _).not.mpr zero), dif_neg zero]
        refine finite_congr mantissa_eq ?_
        have field_zero : (@unpackExponent Format.binary64 bits.toBitVec).toNat = 0 :=
          exponent_eq.trans least
        rw [field_zero]
        rfl
    · rename_i normal
      obtain rfl := Option.some.inj read
      rw [if_neg ((unpackExponent_eq_zero _).not.mpr normal), unpacked, dif_neg (by simp)]
      refine finite_congr ?_ ?_
      · rw [toNat_append, mantissa_eq]
        rfl
      · rw [exponent_eq]
        change _ - ((1023 : Int) + 52) = -1074 + (bits.toBitVec.toNat / 2 ^ 52 % 2 ^ 11 - 1 : Nat)
        have positive : 0 < bits.toBitVec.toNat / 2 ^ 52 % 2 ^ 11 := Nat.pos_of_ne_zero normal
        omega

theorem IsCanonical.toNat_pack {parts : Parts} (canonical : parts.IsCanonical) :
    (UnpackedFloat.pack Format.binary64 parts.unpacked).toNat = parts.pattern := by
  obtain ⟨significand_lt, least_le, exponent_le, normal⟩ := canonical
  rw [unpacked, pattern]
  by_cases zero : parts.significand = 0
  · have least : parts.exponent = -1074 := by omega
    rw [dif_pos zero]
    delta UnpackedFloat.pack
    dsimp only
    rw [packedZero, toNat_packComponents, toNat_signOf, zero, least]
    change (_ * 2 ^ 11 + 0) * 2 ^ 52 + 0 = _ + (0 + 0 * 2 ^ 52)
    omega
  · have biased : (parts.exponent + (Format.binary64.exponentBias : Int) + (52 : Nat)).toNat =
        (parts.exponent + 1075).toNat := by
      change (parts.exponent + 1023 + 52).toNat = _
      omega
    rw [dif_neg zero]
    delta UnpackedFloat.pack
    dsimp only
    rw [biased]
    rw [if_neg (by omega)]
    change (if parts.significand.log2 + 1 = 53 then _ else _ : BitVec 64).toNat = _
    by_cases hidden : 2 ^ 52 ≤ parts.significand
    · rw [if_pos (by rw [log2_eq hidden significand_lt]), toNat_packComponents, toNat_signOf,
        BitVec.toNat_ofNat, BitVec.toNat_ofNat]
      omega
    · have log_lt : parts.significand.log2 < 52 := (Nat.log2_lt zero).mpr (by omega)
      rw [if_neg (by omega), toNat_packComponents, toNat_signOf, BitVec.toNat_ofNat,
        BitVec.toNat_ofNat]
      omega

end Parts

/-! ## Doubles -/

theorem eq_of_toNat_toBits {left right : Float}
    (same_bits : left.toBits.toNat = right.toBits.toNat) : left = right := by
  obtain ⟨⟨left_bits, left_valid⟩⟩ := left
  obtain ⟨⟨right_bits, right_valid⟩⟩ := right
  obtain rfl : left_bits = right_bits := UInt64.toNat.inj same_bits
  rfl

/-- The double of parts. -/
def Parts.toFloat (parts : Parts) : Float :=
  .ofModel (.pack parts.unpacked)

theorem Parts.IsCanonical.toNat_toFloat {parts : Parts} (canonical : parts.IsCanonical) :
    parts.toFloat.toBits.toNat = parts.pattern :=
  canonical.toNat_pack

theorem Parts.IsCanonical.ofFloat?_toFloat {parts : Parts} (canonical : parts.IsCanonical) :
    ofFloat? parts.toFloat = some parts :=
  ofBits?_of_toNat canonical canonical.toNat_toFloat

theorem Parts.IsCanonical.ofBits_pattern {parts : Parts} (canonical : parts.IsCanonical) :
    Float.ofBits (UInt64.ofNat parts.pattern) = parts.toFloat := by
  have bits_eq : (UInt64.ofNat parts.pattern).toNat = parts.pattern :=
    UInt64.toNat_ofNat_of_lt' canonical.pattern_lt
  rw [Float.ofBits, Float.Model.ofBits, unpack_eq (ofBits?_of_toNat canonical bits_eq)]
  rfl

section

variable {value : Float} {parts : Parts}

theorem toFloat_of_ofFloat? (read : Parts.ofFloat? value = some parts) :
    parts.toFloat = value := by
  obtain ⟨canonical, bits_eq⟩ := Parts.isCanonical_of_ofBits? read
  apply eq_of_toNat_toBits
  rw [canonical.toNat_toFloat, bits_eq]

theorem unpack_of_ofFloat? (read : Parts.ofFloat? value = some parts) :
    value.toModel.unpack = parts.unpacked :=
  Parts.unpack_eq read

theorem special_of_ofFloat?_eq_none (no_parts : Parts.ofFloat? value = none) :
    value.toBits.toNat / 2 ^ 52 % 2 ^ 11 = 2047 := by
  by_contra ordinary
  rw [Parts.ofFloat?, Parts.ofBits?_eq, if_neg ordinary] at no_parts
  split at no_parts
  · cases no_parts
  · cases no_parts

theorem exists_parts_of_isFinite (finite : value.isFinite = true) :
    ∃ parts, Parts.ofFloat? value = some parts := by
  cases read : Parts.ofFloat? value with
  | some parts => exact ⟨parts, rfl⟩
  | none =>
      have special := special_of_ofFloat?_eq_none read
      change (UnpackedFloat.unpack Format.binary64 value.toBits.toBitVec).isFinite = true at finite
      delta UnpackedFloat.unpack at finite
      dsimp only at finite
      rw [if_pos ((unpackExponent_eq_special _).mpr special)] at finite
      split at finite
      · cases finite
      · cases finite

theorem isFinite_of_ofFloat? (read : Parts.ofFloat? value = some parts) :
    value.isFinite = true := by
  change value.toModel.unpack.isFinite = true
  rw [unpack_of_ofFloat? read, Parts.unpacked]
  by_cases zero : parts.significand = 0
  · rw [dif_pos zero]
    rfl
  · rw [dif_neg zero]
    rfl

theorem beq_self_of_ofFloat? (read : Parts.ofFloat? value = some parts) :
    (value == value) = true := by
  change UnpackedFloat.beq value.toModel.unpack value.toModel.unpack = true
  rw [unpack_of_ofFloat? read, Parts.unpacked]
  by_cases zero : parts.significand = 0
  · rw [dif_pos zero]
    cases parts.negative <;> rfl
  · rw [dif_neg zero]
    have same : (compare parts.exponent parts.exponent).then
        (compare parts.significand parts.significand) = .eq := by simp
    cases parts.negative
    · change (some ((compare parts.exponent parts.exponent).then
        (compare parts.significand parts.significand)) == some .eq) = true
      rw [same]
      rfl
    · change (some ((compare parts.exponent parts.exponent).then
        (compare parts.significand parts.significand)).swap == some .eq) = true
      rw [same]
      rfl

theorem beq_of_significand_eq_zero {other : Float} {other_parts : Parts}
    (read : Parts.ofFloat? value = some parts) (zero : parts.significand = 0)
    (other_read : Parts.ofFloat? other = some other_parts)
    (other_zero : other_parts.significand = 0) : (other == value) = true := by
  change UnpackedFloat.beq other.toModel.unpack value.toModel.unpack = true
  rw [unpack_of_ofFloat? read, unpack_of_ofFloat? other_read, Parts.unpacked, Parts.unpacked,
    dif_pos zero, dif_pos other_zero]
  rfl

end

theorem Parts.IsCanonical.neg_toFloat {parts : Parts} (canonical : parts.IsCanonical) :
    -parts.toFloat = toFloat { parts with negative := !parts.negative } := by
  change Float.ofModel (.pack (UnpackedFloat.neg parts.toFloat.toModel.unpack)) = _
  rw [unpack_of_ofFloat? canonical.ofFloat?_toFloat, toFloat]
  refine congrArg (fun unpacked => Float.ofModel (.pack unpacked)) ?_
  rw [unpacked, unpacked]
  by_cases zero : parts.significand = 0
  · rw [dif_pos zero, dif_pos zero]
    cases parts.negative <;> rfl
  · rw [dif_neg zero, dif_neg zero]
    cases parts.negative <;> rfl

/-! ## Multiplication by one -/

theorem shiftRight_mul_two_pow (mantissa count : Nat) :
    (ExtendedMantissa.mk (mantissa * 2 ^ count) false false) >>> count =
      ⟨mantissa, false, false⟩ := by
  change Nat.repeat ExtendedMantissa.shiftRightOne count _ = _
  induction count generalizing mantissa with
  | zero => simp [Nat.repeat]
  | succ count induction =>
      rw [Nat.repeat, Nat.pow_succ, Nat.mul_comm (2 ^ count), ← Nat.mul_assoc, induction]
      simp [ExtendedMantissa.shiftRightOne]

namespace Parts

variable {parts : Parts}

theorem IsCanonical.targetExponent_eq (canonical : parts.IsCanonical)
    (nonzero : parts.significand ≠ 0) :
    Format.binary64.targetExponent (totalExponent parts.significand parts.exponent) =
      parts.exponent := by
  obtain ⟨significand_lt, least_le, exponent_le, normal⟩ := canonical
  change max ((parts.significand.log2 : Int) + 1 + parts.exponent - 53) (-1074) = _
  have log_lt : parts.significand.log2 < 53 := (Nat.log2_lt nonzero).mpr significand_lt
  rcases normal with least | hidden
  · omega
  · rw [log2_eq hidden significand_lt]
    omega

theorem totalExponent_mul_two_pow (nonzero : parts.significand ≠ 0) (count : Nat) :
    totalExponent (parts.significand * 2 ^ count) (parts.exponent - count) =
      totalExponent parts.significand parts.exponent := by
  have lower := Nat.log2_self_le nonzero
  have upper := @Nat.lt_log2_self parts.significand
  have log_eq : (parts.significand * 2 ^ count).log2 = parts.significand.log2 + count := by
    apply log2_eq
    · rw [Nat.pow_add]
      exact Nat.mul_le_mul_right _ lower
    · rw [Nat.add_right_comm, Nat.pow_add]
      exact Nat.mul_lt_mul_of_pos_right upper (Nat.two_pow_pos count)
  rw [totalExponent, totalExponent, log_eq]
  omega

theorem IsCanonical.shift_eq (canonical : parts.IsCanonical) (nonzero : parts.significand ≠ 0)
    (count : Nat) :
    shiftToTargetExponent Format.binary64 (parts.significand * 2 ^ count) (parts.exponent - count)
      .exact = (⟨parts.significand, false, false⟩, parts.exponent) := by
  have amount : (parts.exponent - (parts.exponent - count)).toNat = count := by omega
  rw [shiftToTargetExponent, totalExponent_mul_two_pow nonzero,
    canonical.targetExponent_eq nonzero, shiftToExponent]
  simp only [amount, ExtendedMantissa.ofMantissaAndAccuracy, shiftRight_mul_two_pow]
  congr 1
  omega

/-- Rounding a double that is written with more digits gives it back. -/
theorem IsCanonical.roundWithAccuracy_eq (canonical : parts.IsCanonical)
    (nonzero : parts.significand ≠ 0) (sign : Sign) (count : Nat) :
    roundWithAccuracy Format.binary64 sign (parts.significand * 2 ^ count) (parts.exponent - count)
      .exact = .finite sign parts.significand parts.exponent (Nat.pos_of_ne_zero nonzero) := by
  have again := canonical.shift_eq nonzero 0
  rw [Nat.pow_zero, Nat.mul_one, Int.natCast_zero, Int.sub_zero] at again
  have rounded : (ExtendedMantissa.mk parts.significand false false).roundedMantissa =
      parts.significand := rfl
  rw [roundWithAccuracy, canonical.shift_eq nonzero]
  dsimp only
  rw [rounded, again]
  exact dif_neg nonzero

end Parts

/-- What a double unpacks to without having parts: an infinity, or the one pattern of a NaN. -/
theorem pack_unpack_of_special {value : Float} (no_parts : Parts.ofFloat? value = none) :
    ((∃ sign, value.toModel.unpack = .infinity sign) ∨ value.toModel.unpack = .notANumber) ∧
      Float.ofModel (.pack value.toModel.unpack) = value := by
  have special := special_of_ofFloat?_eq_none no_parts
  obtain ⟨⟨bits, valid⟩⟩ := value
  have exponent_eq := (unpackExponent_eq_special bits.toBitVec).mpr special
  have whole := packComponents_unpack bits.toBitVec
  rw [exponent_eq] at whole
  have unpack_eq : (⟨bits, valid⟩ : Float.Model).unpack =
      if @unpackMantissa Format.binary64 bits.toBitVec = 0#_ then
        .infinity (Sign.ofBitVec (@unpackSign Format.binary64 bits.toBitVec))
      else .notANumber := if_pos exponent_eq
  rw [unpack_eq]
  by_cases empty : @unpackMantissa Format.binary64 bits.toBitVec = 0#_
  · rw [if_pos empty]
    refine ⟨.inl ⟨_, rfl⟩, eq_of_toNat_toBits ?_⟩
    rw [empty] at whole
    exact congrArg BitVec.toNat whole
  · rw [if_neg empty]
    refine ⟨.inr rfl, eq_of_toNat_toBits ?_⟩
    exact congrArg BitVec.toNat (valid.eq_packedNaN exponent_eq empty).symm

/-! ## Products and quotients -/

theorem ofFloat?_one : Parts.ofFloat? 1 = some ⟨false, 2 ^ 52, -52⟩ := by decide +kernel

theorem unpacked_one :
    Parts.unpacked ⟨false, 2 ^ 52, -52⟩ = .finite .positive (2 ^ 52) (-52) (Nat.two_pow_pos 52) :=
  dif_neg (by simp)

/-- What keeps infinities, the NaN and all parts keeps every double. -/
theorem ofModel_pack_of_kept (step : UnpackedFloat → UnpackedFloat)
    (infinity_kept : ∀ sign, step (.infinity sign) = .infinity sign)
    (notANumber_kept : step .notANumber = .notANumber)
    (parts_kept : ∀ {parts : Parts}, parts.IsCanonical → step parts.unpacked = parts.unpacked)
    (value : Float) : Float.ofModel (.pack (step value.toModel.unpack)) = value := by
  cases read : Parts.ofFloat? value with
  | none =>
      obtain ⟨⟨sign, infinite⟩ | nan, packed⟩ := pack_unpack_of_special read
      · rw [infinite, infinity_kept, ← infinite, packed]
      · rw [nan, notANumber_kept, ← nan, packed]
  | some parts =>
      rw [unpack_of_ofFloat? read, parts_kept (Parts.isCanonical_of_ofBits? read).1]
      exact toFloat_of_ofFloat? read

theorem mul_one_eq (value : Float) : value * 1 = value := by
  have sign_mul : ∀ sign : Sign, sign * Sign.positive = sign := by
    intro sign
    cases sign <;> rfl
  change Float.ofModel (.pack (UnpackedFloat.mul Format.binary64 value.toModel.unpack
    (1 : Float).toModel.unpack)) = value
  rw [unpack_of_ofFloat? ofFloat?_one, unpacked_one]
  refine ofModel_pack_of_kept (UnpackedFloat.mul Format.binary64 ·
    (.finite .positive (2 ^ 52) (-52) (Nat.two_pow_pos 52))) ?_ rfl ?_ value
  · intro sign
    exact congrArg UnpackedFloat.infinity (sign_mul sign)
  · intro parts canonical
    rw [Parts.unpacked]
    by_cases zero : parts.significand = 0
    · rw [dif_pos zero]
      exact congrArg UnpackedFloat.zero (sign_mul _)
    · rw [dif_neg zero]
      change roundWithAccuracy Format.binary64 (signOf parts.negative * .positive) _ _ _ = _
      rw [sign_mul]
      exact canonical.roundWithAccuracy_eq zero _ 52

theorem mul_comm_eq (left right : Float) : left * right = right * left := by
  have sign_comm : ∀ first second : Sign, first * second = second * first := by
    intro first second
    cases first <;> cases second <;> rfl
  change Float.ofModel (.pack (UnpackedFloat.mul Format.binary64 left.toModel.unpack
    right.toModel.unpack)) = Float.ofModel (.pack (UnpackedFloat.mul Format.binary64
      right.toModel.unpack left.toModel.unpack))
  refine congrArg (fun product => Float.ofModel (.pack product)) ?_
  cases left.toModel.unpack <;> cases right.toModel.unpack <;> dsimp only [UnpackedFloat.mul] <;>
    simp only [sign_comm, Nat.mul_comm, Int.add_comm]

/-- A significand divided by itself is one with all bits that the format has room for. -/
theorem divCore_self {significand : Nat} (positive : 0 < significand) (exponent : Int) :
    divCore Format.binary64 significand exponent significand exponent =
      (2 ^ 53, -53, .exact) := by
  have least : min (exponent - exponent) (Format.binary64.targetExponent
      (totalExponent significand exponent - totalExponent significand exponent)) = -53 := by
    rw [Int.sub_self, Int.sub_self]
    rfl
  have amount : (exponent - exponent - -53).toNat = 53 := by omega
  have exact : accuracyOfFraction 0 significand = .exact := rfl
  rw [divCore, least, amount, Nat.shiftLeft_eq, Nat.mul_div_cancel_left _ positive,
    Nat.mul_mod_right, exact]

theorem significand_ne_zero {value : Float} {parts : Parts}
    (read : Parts.ofFloat? value = some parts) (positive : 0 < value) : parts.significand ≠ 0 := by
  intro zero
  have zero_read : Parts.ofFloat? 0 = some ⟨false, 0, -1074⟩ := by decide +kernel
  replace positive : UnpackedFloat.lt (0 : Float).toModel.unpack value.toModel.unpack = true :=
    of_decide_eq_true positive
  rw [unpack_of_ofFloat? zero_read, unpack_of_ofFloat? read, Parts.unpacked, Parts.unpacked,
    dif_pos rfl, dif_pos zero] at positive
  cases positive

theorem div_self_eq {value : Float} (finite : value.isFinite = true) (positive : 0 < value) :
    value / value = 1 := by
  obtain ⟨parts, read⟩ := exists_parts_of_isFinite finite
  have nonzero := significand_ne_zero read positive
  have sign_div : ∀ sign : Sign, sign / sign = .positive := by
    intro sign
    cases sign <;> rfl
  have one_canonical := (Parts.isCanonical_of_ofBits? ofFloat?_one).1
  have rounded : roundWithAccuracy Format.binary64 .positive (2 ^ 53) (-53) .exact =
      Parts.unpacked ⟨false, 2 ^ 52, -52⟩ := by
    rw [unpacked_one]
    exact one_canonical.roundWithAccuracy_eq (by simp) .positive 1
  have quotient_eq : UnpackedFloat.div Format.binary64 parts.unpacked parts.unpacked =
      Parts.unpacked ⟨false, 2 ^ 52, -52⟩ := by
    rw [Parts.unpacked, dif_neg nonzero]
    change roundWithAccuracy Format.binary64 (signOf parts.negative / signOf parts.negative)
      (divCore _ _ _ _ _).1 (divCore _ _ _ _ _).2.1 (divCore _ _ _ _ _).2.2 = _
    rw [divCore_self (Nat.pos_of_ne_zero nonzero), sign_div]
    exact rounded
  change Float.ofModel (.pack (UnpackedFloat.div Format.binary64 value.toModel.unpack
    value.toModel.unpack)) = 1
  rw [unpack_of_ofFloat? read, quotient_eq]
  exact toFloat_of_ofFloat? ofFloat?_one

/-- Division by one gives the digits of a double, at most one of them more. -/
theorem Parts.IsCanonical.exists_divCore_one {parts : Parts} (canonical : parts.IsCanonical)
    (nonzero : parts.significand ≠ 0) :
    ∃ count : Nat, divCore Format.binary64 parts.significand parts.exponent (2 ^ 52) (-52) =
      (parts.significand * 2 ^ count, parts.exponent - count, .exact) := by
  have own := canonical.targetExponent_eq nonzero
  obtain ⟨count, least⟩ : ∃ count : Nat, min (parts.exponent - -52)
      (Format.binary64.targetExponent (totalExponent parts.significand parts.exponent -
        totalExponent (2 ^ 52) (-52))) = parts.exponent - count := by
    have one_total : totalExponent (2 ^ 52) (-52) = 1 := by decide +kernel
    rw [one_total]
    change max (_ - 53) (-1074) = _ at own
    change ∃ count : Nat, min _ (max (_ - 53) (-1074)) = _
    by_cases lowest : parts.exponent = -1074
    · exact ⟨0, by omega⟩
    · exact ⟨1, by omega⟩
  have amount : (parts.exponent - -52 - (parts.exponent - count)).toNat = count + 52 := by omega
  have exact : accuracyOfFraction 0 (2 ^ 52) = .exact := rfl
  refine ⟨count, ?_⟩
  rw [divCore, least, amount, Nat.shiftLeft_eq, Nat.pow_add, ← Nat.mul_assoc,
    Nat.mul_div_cancel _ (Nat.two_pow_pos 52), Nat.mul_mod_left, exact]

theorem div_one_eq (value : Float) : value / 1 = value := by
  have sign_div : ∀ sign : Sign, sign / Sign.positive = sign := by
    intro sign
    cases sign <;> rfl
  change Float.ofModel (.pack (UnpackedFloat.div Format.binary64 value.toModel.unpack
    (1 : Float).toModel.unpack)) = value
  rw [unpack_of_ofFloat? ofFloat?_one, unpacked_one]
  refine ofModel_pack_of_kept (UnpackedFloat.div Format.binary64 ·
    (.finite .positive (2 ^ 52) (-52) (Nat.two_pow_pos 52))) ?_ rfl ?_ value
  · intro sign
    exact congrArg UnpackedFloat.infinity (sign_div sign)
  · intro parts canonical
    rw [Parts.unpacked]
    by_cases zero : parts.significand = 0
    · rw [dif_pos zero]
      exact congrArg UnpackedFloat.zero (sign_div _)
    · rw [dif_neg zero]
      obtain ⟨count, core_eq⟩ := canonical.exists_divCore_one zero
      change roundWithAccuracy Format.binary64 (signOf parts.negative / .positive)
        (divCore _ _ _ _ _).1 (divCore _ _ _ _ _).2.1 (divCore _ _ _ _ _).2.2 = _
      rw [core_eq, sign_div]
      exact canonical.roundWithAccuracy_eq zero _ count

end Binary64
end UnitAlgebra
