import UnitAlgebra.Proofs.Binary64.Multiplier
import UnitAlgebra.Quantity.Rounding

/-!
# The size of a power of ten

Repeated squaring rounds every product, and each factor of the power takes part in one rounding at
most.  So the computed power lies between the powers of a base that is a part in `2 ^ 53` smaller
and of one that is as much larger, or is infinite where the latter is beyond the doubles.
-/

namespace UnitAlgebra
namespace Binary64

open Float.Model (UnpackedFloat Format)

/-- A multiplier between two bounds, or an infinity if the upper bound is beyond the doubles. -/
inductive Between (low high : Rat) (value : Float) : Prop where
  /-- The double is finite. -/
  | finite (multiplier : Scalar.isMultiplier value = true) (low_le : low ≤ size value)
      (le_high : size value ≤ high)
  /-- The double is infinite. -/
  | infinite (unpack_eq : value.toModel.unpack = .infinity .positive)
      (le_high : overflowBound ≤ high)

/-- What a number keeps at least when it is rounded. -/
def keptPart : Rat :=
  1 - 1 / 2 ^ 53

/-- What a number becomes at most when it is rounded. -/
def grownPart : Rat :=
  1 + 1 / 2 ^ 53

theorem keptPart_pos : 0 < keptPart := by
  norm_num [keptPart]

theorem grownPart_pos : 0 < grownPart := by
  norm_num [grownPart]

theorem one_lt_overflowBound : 1 < overflowBound := by
  have within : IsWithin 0 1 := ⟨le_rfl, le_rfl⟩
  exact (within.inRange (by omega)).upper

/-- A number from one on is rounded to a double that is larger or smaller by a small part only. -/
theorem Rounds.between {number : Rat} {value : Float} (rounds : Rounds false number value)
    (one_le : 1 ≤ number) : Between (number * keptPart) (number * grownPart) value := by
  have normal : 2 ^ (-1022 : Int) ≤ number :=
    le_trans (zpow_le_one_of_nonpos₀ (by norm_num) (by norm_num)) one_le
  obtain ⟨lower, upper⟩ := abs_le.mp (abs_rounded_sub_le normal)
  have kept : number * keptPart ≤ rounded number := by
    rw [keptPart]
    linarith
  have grown : rounded number ≤ number * grownPart := by
    rw [grownPart]
    linarith
  cases rounds with
  | finite canonical positive size_eq =>
      have read := canonical.ofFloat?_toFloat
      rw [← size_eq, ← size_of_ofFloat? read] at kept grown
      refine .finite (isMultiplier_of_ofFloat? read positive fun zero => ?_) kept grown
      rw [size_of_ofFloat? read, Parts.size_eq_zero.mpr zero] at kept
      exact absurd kept (mul_pos (by linarith) keptPart_pos).not_ge
  | infinite unpack_eq beyond =>
      refine .infinite unpack_eq (overflowBound_lt.le.trans (beyond.trans grown))

section

variable {low high low' high' : Rat} {left right : Float}

theorem Between.mono (between : Between low high left) (low_le : low' ≤ low)
    (high_le : high ≤ high') : Between low' high' left := by
  cases between with
  | finite multiplier lower upper =>
      exact .finite multiplier (low_le.trans lower) (upper.trans high_le)
  | infinite unpack_eq upper => exact .infinite unpack_eq (upper.trans high_le)

theorem Between.one_le (between : Between low high left) (one_le : 1 ≤ low) : 1 ≤ high := by
  cases between with
  | finite _ lower upper => exact one_le.trans (lower.trans upper)
  | infinite _ upper => exact one_lt_overflowBound.le.trans upper

theorem Between.unpack_infinite_mul (between : Between low high left)
    (infinite : right.toModel.unpack = .infinity .positive) :
    (right * left).toModel.unpack = .infinity .positive := by
  have product_eq : UnpackedFloat.mul Format.binary64 right.toModel.unpack left.toModel.unpack =
      .infinity .positive := by
    rw [infinite]
    cases between with
    | finite multiplier _ _ =>
        obtain ⟨parts, canonical, positive, nonzero, rfl⟩ :=
          exists_parts_of_isMultiplier multiplier
        rw [unpack_of_ofFloat? canonical.ofFloat?_toFloat, Parts.unpacked, dif_neg nonzero,
          positive]
        rfl
    | infinite unpack_eq _ =>
        rw [unpack_eq]
        rfl
  change UnpackedFloat.unpack Format.binary64 (UnpackedFloat.pack Format.binary64
    (UnpackedFloat.mul Format.binary64 right.toModel.unpack left.toModel.unpack)) = _
  rw [product_eq]
  rfl

theorem Between.mul (left_between : Between low high left)
    (right_between : Between low' high' right) (one_le : 1 ≤ low) (one_le' : 1 ≤ low') :
    Between (low * low' * keptPart) (high * high' * grownPart) (left * right) := by
  have one_le_high := left_between.one_le one_le
  have one_le_high' := right_between.one_le one_le'
  have one_le_grown : 1 ≤ grownPart := by norm_num [grownPart]
  have one_le_product : 1 ≤ low * low' := one_le_mul_of_one_le_of_one_le one_le one_le'
  -- An infinite factor has an upper bound beyond the doubles, which is kept by other factors.
  have beyond {first second : Rat} (reaches : overflowBound ≤ first) (one_le_second : 1 ≤ second) :
      overflowBound ≤ first * second * grownPart := by
    have first_nonneg := overflowBound_pos.le.trans reaches
    exact reaches.trans ((le_mul_of_one_le_right first_nonneg one_le_second).trans
      (le_mul_of_one_le_right (mul_nonneg first_nonneg (by linarith)) one_le_grown))
  cases left_between with
  | finite multiplier lower upper =>
      cases right_between with
      | finite multiplier' lower' upper' =>
          have product_ge : low * low' ≤ size left * size right :=
            mul_le_mul lower lower' (by linarith) (size_nonneg left)
          have product_le : size left * size right ≤ high * high' :=
            mul_le_mul upper upper' (size_nonneg right) (by linarith)
          have rounds := rounds_apply .times multiplier multiplier'
          exact (rounds.between (one_le_product.trans product_ge)).mono
            (mul_le_mul_of_nonneg_right product_ge keptPart_pos.le)
            (mul_le_mul_of_nonneg_right product_le grownPart_pos.le)
      | infinite unpack_eq upper' =>
          rw [mul_comm_eq, mul_comm high high']
          exact .infinite ((Between.finite multiplier lower upper).unpack_infinite_mul unpack_eq)
            (beyond upper' one_le_high)
  | infinite unpack_eq upper =>
      exact .infinite (right_between.unpack_infinite_mul unpack_eq) (beyond upper one_le_high')

end

/-! ## Repeated squaring -/

section

variable {low high kept grown : Rat} {result base : Float}

/-- A base that is at most one rounding away from each of two bounds. -/
def BaseBetween (kept grown : Rat) (base : Float) : Prop :=
  Between (kept / keptPart) (grown / grownPart) base

theorem one_le_div_keptPart (one_le_kept : 1 ≤ kept) : 1 ≤ kept / keptPart := by
  rw [one_le_div keptPart_pos]
  exact le_trans (by norm_num [keptPart]) one_le_kept

/-- The square of a base uses up the roundings that its bounds leave. -/
theorem BaseBetween.square (base_between : BaseBetween kept grown base) (one_le_kept : 1 ≤ kept) :
    BaseBetween (kept * kept) (grown * grown) (base * base) := by
  have one_le := one_le_div_keptPart one_le_kept
  refine (Between.mul base_between base_between one_le one_le).mono (le_of_eq ?_) (le_of_eq ?_)
  · rw [div_mul_div_comm, ← div_div, div_mul_cancel₀ _ keptPart_pos.ne']
  · rw [div_mul_div_comm, ← div_div, div_mul_cancel₀ _ grownPart_pos.ne']

theorem Between.mul_base (result_between : Between low high result)
    (base_between : BaseBetween kept grown base) (one_le : 1 ≤ low) (one_le_kept : 1 ≤ kept) :
    Between (low * kept) (high * grown) (result * base) := by
  refine (result_between.mul base_between one_le (one_le_div_keptPart one_le_kept)).mono
    (le_of_eq ?_) (le_of_eq ?_)
  · rw [mul_assoc, div_mul_cancel₀ _ keptPart_pos.ne']
  · rw [mul_assoc, div_mul_cancel₀ _ grownPart_pos.ne']

theorem between_powerLoop (count : Nat) (result_between : Between low high result)
    (base_between : BaseBetween kept grown base) (one_le : 1 ≤ low) (one_le_kept : 1 ≤ kept) :
    Between (low * kept ^ count) (high * grown ^ count) (powerLoop result base count) := by
  induction count using Nat.strong_induction_on generalizing result base low high kept grown with
  | h count induction =>
      rw [powerLoop]
      split
      · rename_i zero
        rwa [zero, pow_zero, pow_zero, mul_one, mul_one]
      · have smaller : count / 2 < count := by omega
        have squared := base_between.square one_le_kept
        have one_le_square := one_le_mul_of_one_le_of_one_le one_le_kept one_le_kept
        rcases Nat.mod_two_eq_zero_or_one count with even | odd
        · have count_eq : count = 2 * (count / 2) := by omega
          have powers (number : Rat) : number ^ count = (number * number) ^ (count / 2) := by
            rw [← pow_two, ← pow_mul, ← count_eq]
          rw [if_neg (by omega), powers, powers]
          exact induction _ smaller result_between squared one_le one_le_square
        · have count_eq : count = 2 * (count / 2) + 1 := by omega
          have powers (factor number : Rat) :
              factor * number ^ count = factor * number * (number * number) ^ (count / 2) := by
            rw [← pow_two, ← pow_mul, mul_assoc, ← pow_succ', ← count_eq]
          rw [if_pos odd, powers, powers]
          exact induction _ smaller (result_between.mul_base base_between one_le one_le_kept)
            squared (one_le_mul_of_one_le_of_one_le one_le one_le_kept) one_le_square

end

/-- The computed power lies between those of numbers a little smaller and larger than ten. -/
theorem between_powerOfTen (count : Nat) :
    Between ((10 * keptPart) ^ count) ((10 * grownPart) ^ count) (powerLoop 1 10 count) := by
  have one_between : Between 1 1 1 :=
    .finite Scalar.isMultiplier_one (by decide +kernel) (by decide +kernel)
  have ten_between : BaseBetween (10 * keptPart) (10 * grownPart) 10 := by
    rw [BaseBetween, mul_div_cancel_right₀ _ keptPart_pos.ne',
      mul_div_cancel_right₀ _ grownPart_pos.ne']
    exact .finite (by decide +kernel) (by decide +kernel) (by decide +kernel)
  have bounds := between_powerLoop count one_between ten_between le_rfl (by norm_num [keptPart])
  rwa [one_mul, one_mul] at bounds

theorem powerLoop_infinite {count : Nat} (count_ge : 309 ≤ count) :
    (powerLoop 1 10 count).toModel.unpack = .infinity .positive := by
  have one_le : 1 ≤ 10 * keptPart := by norm_num [keptPart]
  have bound : 2 ^ (1024 : Int) ≤ (10 * keptPart) ^ 309 := by decide +kernel
  cases between_powerOfTen count with
  | finite multiplier lower _ =>
      obtain ⟨parts, canonical, -, -, parts_eq⟩ := exists_parts_of_isMultiplier multiplier
      rw [← parts_eq, size_of_ofFloat? canonical.ofFloat?_toFloat] at lower
      have reached := (bound.trans (pow_le_pow_right₀ one_le count_ge)).trans lower
      exact absurd canonical.size_lt reached.not_gt
  | infinite unpack_eq _ => exact unpack_eq

theorem powerLoop_finite {count : Nat} (count_le : count ≤ 308) :
    Scalar.isMultiplier (powerLoop 1 10 count) = true ∧ 1 ≤ size (powerLoop 1 10 count) ∧
      size (powerLoop 1 10 count) ≤ (10 * grownPart) ^ count := by
  have one_le : 1 ≤ 10 * grownPart := by norm_num [grownPart]
  have bound : (10 * grownPart) ^ 308 < overflowBound := by decide +kernel
  cases between_powerOfTen count with
  | finite multiplier lower upper =>
      exact ⟨multiplier, (one_le_pow₀ (by norm_num [keptPart])).trans lower, upper⟩
  | infinite _ beyond =>
      have reached := beyond.trans (pow_le_pow_right₀ one_le count_le)
      exact absurd bound reached.not_gt

section

variable {places : Int}

theorem powerOfTen_of_nonneg (nonneg : 0 ≤ places)
    (finite : (powerOfTen places).isFinite = true) :
    Scalar.isMultiplier (powerOfTen places) = true ∧ 1 ≤ size (powerOfTen places) := by
  rw [powerOfTen, if_neg nonneg.not_gt] at finite ⊢
  rcases Nat.lt_or_ge 308 places.natAbs with beyond | inside
  · change (powerLoop 1 10 places.natAbs).toModel.unpack.isFinite = true at finite
    rw [powerLoop_infinite beyond] at finite
    cases finite
  · obtain ⟨multiplier, one_le, -⟩ := powerLoop_finite inside
    exact ⟨multiplier, one_le⟩

theorem powerOfTen_eq_zero (beyond : places < -308) : powerOfTen places = 0 := by
  rw [powerOfTen, if_pos (by omega)]
  change Float.ofModel (.pack (UnpackedFloat.div Format.binary64 (1 : Float).toModel.unpack
    (powerLoop 1 10 places.natAbs).toModel.unpack)) = 0
  rw [powerLoop_infinite (by omega)]
  decide +kernel

theorem powerOfTen_of_neg (negative : places < 0) (inside : -308 ≤ places) :
    Scalar.isMultiplier (powerOfTen places) = true ∧
      size (powerOfTen places) = rounded (1 / size (powerLoop 1 10 places.natAbs)) := by
  obtain ⟨multiplier, one_le, -⟩ := @powerLoop_finite places.natAbs (by omega)
  obtain ⟨parts, canonical, -, -, parts_eq⟩ := exists_parts_of_isMultiplier multiplier
  have size_lt : size (powerLoop 1 10 places.natAbs) < 2 ^ (1024 : Int) := by
    rw [← parts_eq, size_of_ofFloat? canonical.ofFloat?_toFloat]
    exact canonical.size_lt
  have size_pos := zero_lt_one.trans_le one_le
  have reciprocal_inRange : InRange (1 / size (powerLoop 1 10 places.natAbs)) := by
    refine ⟨?_, ((div_le_one size_pos).mpr one_le).trans_lt one_lt_overflowBound⟩
    rw [lt_div_iff₀ size_pos]
    calc underflowBound * size (powerLoop 1 10 places.natAbs)
        < 2 ^ (-1075 : Int) * 2 ^ (1024 : Int) := mul_lt_mul_of_pos_left size_lt (two_zpow_pos _)
      _ ≤ 1 := by
          rw [← zpow_add₀ two_ne_zero]
          exact zpow_le_one_of_nonpos₀ (by norm_num) (by norm_num)
  rw [powerOfTen, if_pos negative]
  rw [← size_one] at reciprocal_inRange ⊢
  exact isMultiplier_apply .over Scalar.isMultiplier_one multiplier reciprocal_inRange

theorem powerOfTen_le_one (negative : places < 0) (inside : -308 ≤ places) :
    size (powerOfTen places) ≤ 1 := by
  obtain ⟨-, one_le, -⟩ := @powerLoop_finite places.natAbs (by omega)
  have size_pos := zero_lt_one.trans_le one_le
  rw [(powerOfTen_of_neg negative inside).2]
  refine (rounded_mono (by positivity) ((div_le_one size_pos).mpr one_le)).trans_eq ?_
  exact @rounded_two_zpow 0 (by norm_num)

/-- Up to 292 digits, the reciprocal keeps the greatest double above the last place one. -/
theorem le_size_powerOfTen (negative : places < 0) (inside : -292 ≤ places) :
    2 ^ (-971 : Int) ≤ size (powerOfTen places) := by
  have bound : (10 * grownPart) ^ 292 ≤ 2 ^ (971 : Int) := by decide +kernel
  obtain ⟨-, one_le, size_le⟩ := @powerLoop_finite places.natAbs (by omega)
  have size_pos := zero_lt_one.trans_le one_le
  have power_le : size (powerLoop 1 10 places.natAbs) ≤ 2 ^ (971 : Int) :=
    size_le.trans ((pow_le_pow_right₀ (by norm_num [grownPart]) (by omega)).trans bound)
  rw [(powerOfTen_of_neg negative (by omega)).2, ← @rounded_two_zpow (-971) (by norm_num)]
  refine rounded_mono (two_zpow_pos _).le ?_
  rw [zpow_neg, ← one_div]
  exact one_div_le_one_div_of_le size_pos power_le

end

end Binary64
end UnitAlgebra
