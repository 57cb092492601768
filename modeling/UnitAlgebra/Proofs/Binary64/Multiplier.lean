import UnitAlgebra.Proofs.Binary64.Arithmetic
import UnitAlgebra.Proofs.PhysicalValue

/-!
# Multipliers

A multiplier is a finite double above zero.  A product or a quotient of two multipliers is a
multiplier exactly if the exact result is in range; otherwise it is zero or infinite.  Zero,
infinity and NaN never become a multiplier again.
-/

namespace UnitAlgebra

open Float.Model (UnpackedFloat Format)

namespace Binary64

/-- A number that is rounded to a double above zero. -/
structure InRange (value : Rat) : Prop where
  /-- The number is not rounded to zero. -/
  lower : underflowBound < value
  /-- The number is not rounded to infinity. -/
  upper : value < overflowBound

/-- What the logical model has for a factor that does not come back: zero, infinity or NaN. -/
def IsSpecial (unpacked : UnpackedFloat) : Prop :=
  unpacked = .zero .positive ∨ unpacked = .infinity .positive ∨ unpacked = .notANumber

/-- A double that a factor does not come back from. -/
def IsLost (value : Float) : Prop :=
  IsSpecial value.toModel.unpack

theorem size_one : size 1 = 1 := by
  rw [size_of_ofFloat? ofFloat?_one, Parts.size]
  norm_num

section

variable {value : Float} {parts : Parts}

/-- Multipliers are the doubles with a positive significand and no sign. -/
theorem isMultiplier_of_ofFloat? (read : Parts.ofFloat? value = some parts)
    (positive : parts.negative = false) (nonzero : parts.significand ≠ 0) :
    Scalar.isMultiplier value = true := by
  have unpack_eq := unpack_of_ofFloat? read
  rw [Parts.unpacked, dif_neg nonzero, positive] at unpack_eq
  have above : UnpackedFloat.lt (0 : Float).toModel.unpack value.toModel.unpack = true := by
    rw [unpack_eq]
    rfl
  have less : 0 < value := decide_eq_true above
  exact Bool.and_eq_true_iff.mpr ⟨isFinite_of_ofFloat? read, decide_eq_true less⟩

theorem exists_parts_of_isMultiplier (multiplier : Scalar.isMultiplier value = true) :
    ∃ parts : Parts, parts.IsCanonical ∧ parts.negative = false ∧ parts.significand ≠ 0 ∧
      parts.toFloat = value := by
  obtain ⟨finite, above⟩ := Bool.and_eq_true_iff.mp multiplier
  replace above : 0 < value := of_decide_eq_true above
  obtain ⟨parts, read⟩ := exists_parts_of_isFinite finite
  have nonzero := significand_ne_zero read above
  refine ⟨parts, (Parts.isCanonical_of_ofBits? read).1, ?_, nonzero, toFloat_of_ofFloat? read⟩
  cases sign : parts.negative with
  | false => rfl
  | true =>
      replace above : UnpackedFloat.lt (0 : Float).toModel.unpack value.toModel.unpack = true :=
        of_decide_eq_true above
      rw [unpack_of_ofFloat? read, Parts.unpacked, dif_neg nonzero, sign] at above
      cases above

theorem size_pos (multiplier : Scalar.isMultiplier value = true) : 0 < size value := by
  obtain ⟨parts, canonical, -, nonzero, rfl⟩ := exists_parts_of_isMultiplier multiplier
  rw [size_of_ofFloat? canonical.ofFloat?_toFloat]
  exact parts.size_nonneg.lt_of_ne fun zero => nonzero (Parts.size_eq_zero.mp zero.symm)

theorem IsLost.not_isMultiplier (lost : IsLost value) : Scalar.isMultiplier value ≠ true := by
  intro multiplier
  obtain ⟨parts, canonical, positive, nonzero, rfl⟩ := exists_parts_of_isMultiplier multiplier
  have unpack_eq := unpack_of_ofFloat? canonical.ofFloat?_toFloat
  rw [Parts.unpacked, dif_neg nonzero] at unpack_eq
  rcases lost with own | own | own <;> cases own.symm.trans unpack_eq

/-- A positive number is rounded to a multiplier if it is in range, and is lost otherwise. -/
theorem Rounds.isMultiplier_or_isLost {number : Rat} (rounds : Rounds false number value)
    (positive : 0 < number) :
    Scalar.isMultiplier value = true ∧ InRange number ∨ IsLost value ∧ ¬InRange number := by
  have finite_iff := rounds.isFinite_iff positive.le
  have size_eq := rounds.size_eq
  cases rounds with
  | @finite parts canonical positive' size_eq' =>
      have read := canonical.ofFloat?_toFloat
      by_cases zero : parts.significand = 0
      · refine .inr ⟨.inl ?_, fun inside => ?_⟩
        · rw [unpack_of_ofFloat? read, Parts.unpacked, dif_pos zero, positive']
          rfl
        · have remains := (rounded_pos_iff positive.le).mpr inside.lower
          rw [← size_eq', Parts.size_eq_zero.mpr zero] at remains
          exact absurd remains (lt_irrefl 0)
      · refine .inl ⟨isMultiplier_of_ofFloat? read positive' zero, ?_,
          finite_iff.mp (isFinite_of_ofFloat? read)⟩
        rw [← rounded_pos_iff positive.le, ← size_eq']
        exact parts.size_nonneg.lt_of_ne fun own => zero (Parts.size_eq_zero.mp own.symm)
  | infinite unpack_eq beyond =>
      refine .inr ⟨.inr (.inl unpack_eq), fun inside => ?_⟩
      exact absurd ((rounded_lt_iff positive.le).mpr inside.upper) beyond.not_gt

end

/-! ## One ratio -/

section

variable {factor ratio : Float}

theorem rounds_apply (operator : Operator) (factor_multiplier : Scalar.isMultiplier factor = true)
    (ratio_multiplier : Scalar.isMultiplier ratio = true) :
    Rounds false (operator.operation.apply (size factor) (size ratio))
      (operator.operation.apply factor ratio) := by
  obtain ⟨parts, canonical, positive, -, rfl⟩ := exists_parts_of_isMultiplier factor_multiplier
  obtain ⟨parts', canonical', positive', nonzero', rfl⟩ :=
    exists_parts_of_isMultiplier ratio_multiplier
  rw [size_of_ofFloat? canonical.ofFloat?_toFloat, size_of_ofFloat? canonical'.ofFloat?_toFloat]
  cases operator
  · have rounds := canonical.rounds_mul canonical'
    rwa [positive, positive'] at rounds
  · have rounds := canonical.rounds_div canonical' nonzero'
    rwa [positive, positive'] at rounds

theorem apply_pos (operator : Operator) {number number' : Rat} (positive : 0 < number)
    (positive' : 0 < number') : 0 < operator.operation.apply number number' := by
  cases operator
  · exact mul_pos positive positive'
  · exact div_pos positive positive'

/-- A factor with a ratio is a multiplier if the exact result is in range, and is lost otherwise. -/
theorem isMultiplier_or_isLost_apply (operator : Operator)
    (factor_multiplier : Scalar.isMultiplier factor = true)
    (ratio_multiplier : Scalar.isMultiplier ratio = true) :
    Scalar.isMultiplier (operator.operation.apply factor ratio) = true ∧
        InRange (operator.operation.apply (size factor) (size ratio)) ∨
      IsLost (operator.operation.apply factor ratio) ∧
        ¬InRange (operator.operation.apply (size factor) (size ratio)) :=
  (rounds_apply operator factor_multiplier ratio_multiplier).isMultiplier_or_isLost
    (apply_pos operator (size_pos factor_multiplier) (size_pos ratio_multiplier))

theorem isMultiplier_apply (operator : Operator)
    (factor_multiplier : Scalar.isMultiplier factor = true)
    (ratio_multiplier : Scalar.isMultiplier ratio = true)
    (inside : InRange (operator.operation.apply (size factor) (size ratio))) :
    Scalar.isMultiplier (operator.operation.apply factor ratio) = true ∧
      size (operator.operation.apply factor ratio) =
        rounded (operator.operation.apply (size factor) (size ratio)) := by
  rcases isMultiplier_or_isLost_apply operator factor_multiplier ratio_multiplier with
    ⟨multiplier, -⟩ | ⟨-, outside⟩
  · refine ⟨multiplier, ?_⟩
    exact (rounds_apply operator factor_multiplier ratio_multiplier).size_eq
      (Bool.and_eq_true_iff.mp multiplier).1
  · exact absurd inside outside

/-! ## What is lost -/

theorem isLost_pack {unpacked : UnpackedFloat} (special : IsSpecial unpacked) :
    IsLost (.ofModel (.pack unpacked)) := by
  rcases special with rfl | rfl | rfl
  · exact .inl rfl
  · exact .inr (.inl rfl)
  · exact .inr (.inr rfl)

/-- A number without a sign, as the logical model has it. -/
def HasNoSign (unpacked : UnpackedFloat) : Prop :=
  IsSpecial unpacked ∨
    ∃ significand exponent nonzero, unpacked = .finite .positive significand exponent nonzero

theorem hasNoSign_of_isMultiplier {value : Float}
    (multiplier : Scalar.isMultiplier value = true) : HasNoSign value.toModel.unpack := by
  obtain ⟨parts, canonical, positive, nonzero, rfl⟩ := exists_parts_of_isMultiplier multiplier
  rw [unpack_of_ofFloat? canonical.ofFloat?_toFloat, Parts.unpacked, dif_neg nonzero, positive]
  exact .inr ⟨_, _, _, rfl⟩

/-- Whether the logical model has zero or infinity without a sign, or NaN. -/
def passesSpecial : UnpackedFloat → Bool
  | .zero .positive => true
  | .infinity .positive => true
  | .notANumber => true
  | _ => false

theorem isSpecial_of_passes {unpacked : UnpackedFloat} (passed : passesSpecial unpacked = true) :
    IsSpecial unpacked := by
  unfold passesSpecial at passed
  split at passed
  · exact .inl rfl
  · exact .inr (.inl rfl)
  · exact .inr (.inr rfl)
  · cases passed

theorem IsSpecial.mul {left right : UnpackedFloat} (special : IsSpecial left)
    (unsigned : HasNoSign right) : IsSpecial (UnpackedFloat.mul Format.binary64 left right) := by
  rcases special with rfl | rfl | rfl <;>
    rcases unsigned with (rfl | rfl | rfl) | ⟨_, _, _, rfl⟩ <;>
    exact isSpecial_of_passes rfl

theorem IsSpecial.div {left right : UnpackedFloat} (special : IsSpecial left)
    (unsigned : HasNoSign right) : IsSpecial (UnpackedFloat.div Format.binary64 left right) := by
  rcases special with rfl | rfl | rfl <;>
    rcases unsigned with (rfl | rfl | rfl) | ⟨_, _, _, rfl⟩ <;>
    exact isSpecial_of_passes rfl

theorem IsSpecial.div_right {left right : UnpackedFloat} (unsigned : HasNoSign left)
    (special : IsSpecial right) : IsSpecial (UnpackedFloat.div Format.binary64 left right) := by
  rcases special with rfl | rfl | rfl <;>
    rcases unsigned with (rfl | rfl | rfl) | ⟨_, _, _, rfl⟩ <;>
    exact isSpecial_of_passes rfl

theorem isLost_apply (operator : Operator) (factor_unsigned : HasNoSign factor.toModel.unpack)
    (ratio_unsigned : HasNoSign ratio.toModel.unpack) (lost : IsLost factor ∨ IsLost ratio) :
    IsLost (operator.operation.apply factor ratio) := by
  cases operator
  · rcases lost with lost | lost
    · exact isLost_pack (lost.mul ratio_unsigned)
    · change IsLost (factor * ratio)
      rw [mul_comm_eq]
      exact isLost_pack (lost.mul factor_unsigned)
  · rcases lost with lost | lost
    · exact isLost_pack (lost.div ratio_unsigned)
    · exact isLost_pack (IsSpecial.div_right factor_unsigned lost)

end

/-! ## Bounds of numbers -/

/-- A number that is at most a power of two away from one in both directions. -/
structure IsWithin (count : Nat) (number : Rat) : Prop where
  /-- The number is not below the inverse of the power. -/
  lower : 2 ^ (-count : Int) ≤ number
  /-- The number is not above the power. -/
  upper : number ≤ 2 ^ (count : Int)

namespace IsWithin

variable {count count' : Nat} {number number' : Rat}

theorem pos (within : IsWithin count number) : 0 < number :=
  (two_zpow_pos _).trans_le within.lower

theorem inRange (within : IsWithin count number) (count_le : count ≤ 1023) : InRange number where
  lower := (zpow_lt_zpow_right₀ (by norm_num) (by omega)).trans_le within.lower
  upper := by
    refine (rounded_lt_iff within.pos.le).mp ?_
    calc rounded number ≤ rounded (2 ^ (count : Int)) := rounded_mono within.pos.le within.upper
      _ = 2 ^ (count : Int) := rounded_two_zpow (by omega)
      _ < 2 ^ (1024 : Int) := zpow_lt_zpow_right₀ (by norm_num) (by omega)

theorem rounded (within : IsWithin count number) (count_le : count ≤ 1023) :
    IsWithin count (rounded number) where
  lower := by
    rw [← @rounded_two_zpow (-count : Int) (by omega)]
    exact rounded_mono (two_zpow_pos _).le within.lower
  upper := by
    rw [← @rounded_two_zpow (count : Int) (by omega)]
    exact rounded_mono within.pos.le within.upper

theorem mul (within : IsWithin count number) (within' : IsWithin count' number') :
    IsWithin (count + count') (number * number') where
  lower := by
    rw [Nat.cast_add, neg_add, zpow_add₀ two_ne_zero]
    exact mul_le_mul within.lower within'.lower (two_zpow_pos _).le within.pos.le
  upper := by
    rw [Nat.cast_add, zpow_add₀ two_ne_zero]
    exact mul_le_mul within.upper within'.upper within'.pos.le (two_zpow_pos _).le

theorem inv (within : IsWithin count number) : IsWithin count number⁻¹ where
  lower := by
    rw [zpow_neg]
    exact inv_anti₀ within.pos within.upper
  upper := by
    have bound := inv_anti₀ (two_zpow_pos _) within.lower
    rwa [← zpow_neg, neg_neg] at bound

theorem apply (operator : Operator) (within : IsWithin count number)
    (within' : IsWithin count' number') :
    IsWithin (count + count') (operator.operation.apply number number') := by
  cases operator
  · exact within.mul within'
  · change IsWithin _ (number / number')
    rw [div_eq_mul_inv]
    exact within.mul within'.inv

end IsWithin

end Binary64
end UnitAlgebra
