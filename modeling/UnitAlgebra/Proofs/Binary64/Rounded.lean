import UnitAlgebra.Proofs.Binary64.Nearest

/-!
# Rounding to significands of 53 digits

A number is rounded to the nearest multiple of its last place, half to even, where the last place is
chosen so that a significand of 53 binary digits reaches it.  There is no upper bound on the place
here: a result from `2 ^ 1024` on is what overflows.  Rounding keeps the order of numbers and leaves
every number alone that has such a significand.
-/

namespace UnitAlgebra
namespace Binary64

/-! ## The nearest integer -/

/-- An integer that a number is rounded to: no other is nearer, and of two it is the even one. -/
structure IsNearest (integer : Nat) (value : Rat) : Prop where
  /-- The number is at most a half below the integer. -/
  lower : 2 * (integer : Rat) - 1 ≤ 2 * value
  /-- The number is at most a half above the integer. -/
  upper : 2 * value ≤ 2 * integer + 1
  /-- Numbers halfway to a neighbour belong to even integers. -/
  odd : integer % 2 = 1 → 2 * (integer : Rat) - 1 < 2 * value ∧ 2 * value < 2 * integer + 1

section

variable {integer integer' : Nat} {value value' : Rat}

/-- The bounds of an integer that a fraction is rounded to, without division. -/
theorem isNearest_of_mul_le {dividend divisor : Nat} (positive : 0 < divisor)
    (lower : 2 * integer * divisor ≤ 2 * dividend + divisor)
    (upper : 2 * dividend ≤ (2 * integer + 1) * divisor)
    (odd : integer % 2 = 1 → 2 * integer * divisor < 2 * dividend + divisor ∧
      2 * dividend < (2 * integer + 1) * divisor) :
    IsNearest integer (dividend / divisor) := by
  have divisor_pos : (0 : Rat) < divisor := by exact_mod_cast positive
  have value_eq : (dividend : Rat) / divisor * divisor = dividend :=
    div_mul_cancel₀ _ divisor_pos.ne'
  refine ⟨le_of_mul_le_mul_right ?_ divisor_pos, le_of_mul_le_mul_right ?_ divisor_pos,
    fun is_odd => ⟨lt_of_mul_lt_mul_right ?_ divisor_pos.le,
      lt_of_mul_lt_mul_right ?_ divisor_pos.le⟩⟩
  · have cast_le : (2 * integer * divisor : Rat) ≤ 2 * dividend + divisor := by
      exact_mod_cast lower
    rw [mul_assoc 2 (_ / _), value_eq]
    linarith
  · have cast_le : (2 * dividend : Rat) ≤ (2 * integer + 1) * divisor := by exact_mod_cast upper
    rwa [mul_assoc, value_eq]
  · have cast_lt : (2 * integer * divisor : Rat) < 2 * dividend + divisor := by
      exact_mod_cast (odd is_odd).1
    rw [mul_assoc 2 (_ / _), value_eq]
    linarith
  · have cast_lt : (2 * dividend : Rat) < (2 * integer + 1) * divisor := by
      exact_mod_cast (odd is_odd).2
    rwa [mul_assoc, value_eq]

theorem isNearest_roundHalfEven (dividend : Nat) {divisor : Nat} (positive : 0 < divisor) :
    IsNearest (roundHalfEven dividend divisor) (dividend / divisor) := by
  have division := Nat.div_add_mod dividend divisor
  have remainder_lt := Nat.mod_lt dividend positive
  rw [roundHalfEven]
  generalize dividend / divisor = quotient at division ⊢
  generalize dividend % divisor = remainder at division remainder_lt ⊢
  subst division
  -- The bounds of every integer are multiples of the divisor.
  have lower_eq (integer : Nat) : 2 * integer * divisor = 2 * (divisor * integer) := by ring
  have upper_eq (integer : Nat) :
      (2 * integer + 1) * divisor = 2 * (divisor * integer) + divisor := by ring
  have next_eq : divisor * (quotient + 1) = divisor * quotient + divisor := Nat.mul_succ _ _
  cases order : compare (2 * remainder) divisor with
  | lt =>
      rw [Nat.compare_eq_lt] at order
      refine isNearest_of_mul_le positive ?_ ?_ fun _ => ⟨?_, ?_⟩ <;>
        simp only [lower_eq, upper_eq] <;> omega
  | gt =>
      rw [Nat.compare_eq_gt] at order
      refine isNearest_of_mul_le positive ?_ ?_ fun _ => ⟨?_, ?_⟩ <;>
        simp only [lower_eq, upper_eq, next_eq] <;> omega
  | eq =>
      rw [Nat.compare_eq_eq] at order
      dsimp only
      rcases Nat.mod_two_eq_zero_or_one quotient with even | odd
      · rw [even, Nat.add_zero]
        refine isNearest_of_mul_le positive ?_ ?_ fun is_odd => absurd is_odd (by omega) <;>
          simp only [lower_eq, upper_eq] <;> omega
      · rw [odd]
        refine isNearest_of_mul_le positive ?_ ?_ fun is_odd => absurd is_odd (by omega) <;>
          simp only [lower_eq, upper_eq, next_eq] <;> omega

theorem IsNearest.mono (near : IsNearest integer value) (near' : IsNearest integer' value')
    (value_le : value ≤ value') : integer ≤ integer' := by
  by_contra beyond
  have cast_le : (integer' : Rat) + 1 ≤ integer := by exact_mod_cast not_le.mp beyond
  have lower := near.lower
  have upper := near'.upper
  -- Both numbers lie halfway between the integers, one of which is odd.
  have step_eq : integer = integer' + 1 := by
    have cast_eq : (integer : Rat) = (integer' + 1 : Nat) := by
      push_cast
      linarith
    exact_mod_cast cast_eq
  rcases Nat.mod_two_eq_zero_or_one integer' with even | odd
  · have := (near.odd (by omega)).1
    linarith
  · have := (near'.odd odd).2
    linarith

theorem IsNearest.unique (near : IsNearest integer value) (near' : IsNearest integer' value) :
    integer = integer' :=
  Nat.le_antisymm (near.mono near' le_rfl) (near'.mono near le_rfl)

theorem isNearest_natCast (integer : Nat) : IsNearest integer integer :=
  ⟨by linarith, by linarith, fun _ => ⟨by linarith, by linarith⟩⟩

end

/-! ## The last place -/

/-- The exponent of the last place of a number. -/
def lastPlace (value : Rat) : Int :=
  exponentOf value.num.toNat value.den

/-- How many units in the last place a number is rounded to. -/
def roundedSignificand (value : Rat) : Nat :=
  let scaled := value / 2 ^ lastPlace value
  roundHalfEven scaled.num.toNat scaled.den

/-- The number that a number is rounded to, without an upper bound on its size. -/
def rounded (value : Rat) : Rat :=
  roundedSignificand value * 2 ^ lastPlace value

section

variable {value value' : Rat} {place : Int}

theorem toNat_div_den (nonneg : 0 ≤ value) : ((value.num.toNat : Rat)) / value.den = value := by
  have num_nonneg := Rat.num_nonneg.mpr nonneg
  have num_eq : ((value.num.toNat : Nat) : Rat) = (value.num : Rat) := by
    exact_mod_cast Int.toNat_of_nonneg num_nonneg
  rw [num_eq, Rat.num_div_den]

theorem toNat_num_pos (positive : 0 < value) : 0 < value.num.toNat := by
  have := Rat.num_pos.mpr positive
  omega

theorem least_le_lastPlace (value : Rat) : -1074 ≤ lastPlace value :=
  le_max_left _ _

theorem isNearest_roundedSignificand (nonneg : 0 ≤ value) :
    IsNearest (roundedSignificand value) (value / 2 ^ lastPlace value) := by
  have scaled_nonneg : 0 ≤ value / 2 ^ lastPlace value :=
    div_nonneg nonneg (two_zpow_pos _).le
  have near := isNearest_roundHalfEven (value / 2 ^ lastPlace value).num.toNat
    (value / 2 ^ lastPlace value).den_pos
  rwa [toNat_div_den scaled_nonneg] at near

theorem lastPlace_eq (least_le : -1074 ≤ place) (lower : 2 ^ (place + 52) ≤ value)
    (upper : value < 2 ^ (place + 53)) : lastPlace value = place := by
  have positive := (two_zpow_pos _).trans_le lower
  rw [← toNat_div_den positive.le] at lower upper
  exact exponentOf_eq (toNat_num_pos positive) value.den_pos least_le lower upper

theorem lastPlace_eq_least (positive : 0 < value) (upper : value < 2 ^ (-1074 + 53 : Int)) :
    lastPlace value = -1074 := by
  rw [← toNat_div_den positive.le] at upper
  exact exponentOf_eq_least (toNat_num_pos positive) value.den_pos upper

/-- A number is below the bound of its significand, and above the smallest one that is normal. -/
theorem lastPlace_spec (positive : 0 < value) :
    value < 2 ^ (lastPlace value + 53) ∧
      (lastPlace value = -1074 ∨ 2 ^ (lastPlace value + 52) ≤ value) := by
  obtain ⟨place_le, lt_place⟩ := binaryPlace_spec (toNat_num_pos positive) value.den_pos
  rw [toNat_div_den positive.le] at place_le lt_place
  have place_eq : lastPlace value =
      max (-1074) (binaryPlace value.num.toNat value.den - 52) := rfl
  rw [place_eq]
  rcases le_total (binaryPlace value.num.toNat value.den - 52) (-1074) with subnormal | normal
  · rw [max_eq_left subnormal]
    exact ⟨lt_place.trans_le (zpow_le_zpow_right₀ (by norm_num) (by omega)), .inl rfl⟩
  · rw [max_eq_right normal, sub_add_cancel]
    refine ⟨?_, .inr place_le⟩
    rwa [show binaryPlace value.num.toNat value.den - 52 + 53 =
      binaryPlace value.num.toNat value.den + 1 by omega]

theorem roundedSignificand_le (positive : 0 < value) : roundedSignificand value ≤ 2 ^ 53 := by
  have power_pos := two_zpow_pos (lastPlace value)
  refine (isNearest_roundedSignificand positive.le).mono (isNearest_natCast (2 ^ 53)) ?_
  have upper := (lastPlace_spec positive).1.le
  rw [show lastPlace value + 53 = lastPlace value + (53 : Nat) by rfl, two_zpow_add] at upper
  rw [div_le_iff₀ power_pos]
  exact_mod_cast upper

theorem le_roundedSignificand (lower : 2 ^ (lastPlace value + 52) ≤ value) :
    2 ^ 52 ≤ roundedSignificand value := by
  have power_pos := two_zpow_pos (lastPlace value)
  have nonneg := (two_zpow_pos _).le.trans lower
  refine (isNearest_natCast (2 ^ 52)).mono (isNearest_roundedSignificand nonneg) ?_
  rw [show lastPlace value + 52 = lastPlace value + (52 : Nat) by rfl, two_zpow_add] at lower
  rw [le_div_iff₀ power_pos]
  exact_mod_cast lower

/-- A place whose significands reach a number is the last place of the number. -/
theorem rounded_eq {significand : Nat} (positive : 0 < value) (least_le : -1074 ≤ place)
    (normal : place = -1074 ∨ 2 ^ (place + 52) ≤ value) (upper : value < 2 ^ (place + 53))
    (near : IsNearest significand (value / 2 ^ place)) :
    rounded value = significand * 2 ^ place := by
  have place_eq : lastPlace value = place := by
    rcases normal with rfl | lower
    · exact lastPlace_eq_least positive upper
    · exact lastPlace_eq least_le lower upper
  have own := isNearest_roundedSignificand positive.le
  rw [place_eq] at own
  rw [rounded, place_eq, own.unique near]

theorem rounded_zero : rounded 0 = 0 := by
  have significand_eq : roundedSignificand 0 = 0 := by decide +kernel
  rw [rounded, significand_eq, Nat.cast_zero, zero_mul]

theorem rounded_nonneg (value : Rat) : 0 ≤ rounded value :=
  mul_nonneg (Nat.cast_nonneg _) (two_zpow_pos _).le

theorem rounded_of_significand {significand : Nat} (least_le : -1074 ≤ place)
    (significand_lt : significand < 2 ^ 53) :
    rounded (significand * 2 ^ place) = significand * 2 ^ place := by
  rcases Nat.eq_zero_or_pos significand with rfl | significand_pos
  · rw [Nat.cast_zero, zero_mul, rounded_zero]
  have power_pos := two_zpow_pos place
  generalize value_eq : (significand : Rat) * 2 ^ place = value
  have positive : 0 < value := by
    rw [← value_eq]
    exact mul_pos (by exact_mod_cast significand_pos) power_pos
  have value_lt : value < 2 ^ (place + (53 : Nat)) := by
    rw [← value_eq, two_zpow_add]
    exact mul_lt_mul_of_pos_right (by exact_mod_cast significand_lt) power_pos
  -- The last place of the number is not above that of the significand, so it reaches the number.
  have place_le : lastPlace value ≤ place := by
    rcases (lastPlace_spec positive).2 with least | lower
    · omega
    · have := (zpow_lt_zpow_iff_right₀ (by norm_num)).mp (lower.trans_lt value_lt)
      omega
  obtain ⟨count, count_eq⟩ := Int.eq_ofNat_of_zero_le (Int.sub_nonneg_of_le place_le)
  have place_eq : place = lastPlace value + count := by omega
  have whole : value / 2 ^ lastPlace value = (significand * 2 ^ count : Nat) := by
    rw [div_eq_iff (two_zpow_pos _).ne']
    calc value = significand * 2 ^ (lastPlace value + count) := by rw [← place_eq, value_eq]
      _ = (significand * 2 ^ count : Nat) * 2 ^ lastPlace value := by
          rw [two_zpow_add]
          push_cast
          ring
  have near := isNearest_roundedSignificand positive.le
  rw [whole] at near
  rw [rounded, near.unique (isNearest_natCast _), ← whole, div_mul_cancel₀ _ (two_zpow_pos _).ne']

theorem rounded_two_zpow (least_le : -1074 ≤ place) : rounded (2 ^ place) = 2 ^ place := by
  have own := rounded_of_significand least_le (show 1 < 2 ^ 53 by norm_num)
  rwa [Nat.cast_one, one_mul] at own

theorem lastPlace_mono (positive : 0 < value) (value_le : value ≤ value') :
    lastPlace value ≤ lastPlace value' := by
  rcases (lastPlace_spec positive).2 with least | lower
  · exact least.le.trans (least_le_lastPlace _)
  · have upper := (lastPlace_spec (positive.trans_le value_le)).1
    have := (zpow_lt_zpow_iff_right₀ (by norm_num)).mp ((lower.trans value_le).trans_lt upper)
    omega

theorem rounded_mono (nonneg : 0 ≤ value) (value_le : value ≤ value') :
    rounded value ≤ rounded value' := by
  rcases nonneg.eq_or_lt with rfl | positive
  · rw [rounded_zero]
    exact rounded_nonneg value'
  have positive' := positive.trans_le value_le
  have near := isNearest_roundedSignificand positive.le
  have near' := isNearest_roundedSignificand positive'.le
  rcases (lastPlace_mono positive value_le).eq_or_lt with same | below
  · rw [same] at near
    have significand_le := near.mono near' (div_le_div_of_nonneg_right value_le (two_zpow_pos _).le)
    rw [rounded, rounded, same]
    exact mul_le_mul_of_nonneg_right (by exact_mod_cast significand_le) (two_zpow_pos _).le
  · -- A power of two lies between the numbers, and between what they are rounded to.
    have lower' : 2 ^ (lastPlace value' + 52) ≤ value' :=
      (lastPlace_spec positive').2.resolve_left (by have := least_le_lastPlace value; omega)
    calc rounded value ≤ (2 ^ 53 : Nat) * 2 ^ lastPlace value :=
          mul_le_mul_of_nonneg_right (by exact_mod_cast roundedSignificand_le positive)
            (two_zpow_pos _).le
      _ = 2 ^ (lastPlace value + (53 : Nat)) := by
          rw [two_zpow_add]
          push_cast
          rfl
      _ ≤ 2 ^ (lastPlace value' + (52 : Nat)) :=
          zpow_le_zpow_right₀ (by norm_num) (by omega)
      _ = (2 ^ 52 : Nat) * 2 ^ lastPlace value' := by
          rw [two_zpow_add]
          push_cast
          rfl
      _ ≤ rounded value' :=
          mul_le_mul_of_nonneg_right (by exact_mod_cast le_roundedSignificand lower')
            (two_zpow_pos _).le

/-! ## The range of doubles -/

/-- From this number on, numbers are rounded to `2 ^ 1024`, which no double is. -/
def overflowBound : Rat :=
  2 ^ (1024 : Int) - 2 ^ (970 : Int)

/-- Up to this number, numbers are rounded to zero. -/
def underflowBound : Rat :=
  2 ^ (-1075 : Int)

/-- The powers of two around the bound in units of half a last place, which keep them small. -/
theorem exists_unit : ∃ unit : Rat, 0 < unit ∧ overflowBound = (2 ^ 54 - 1) * unit ∧
    (2 : Rat) ^ (971 : Int) = 2 * unit ∧ (2 : Rat) ^ (971 + 52 : Int) = 2 ^ 53 * unit ∧
    (2 : Rat) ^ (1024 : Int) = 2 ^ 54 * unit := by
  have double_eq : (2 : Rat) ^ (971 : Int) = 2 ^ 1 * 2 ^ (970 : Int) := two_zpow_add 970 1
  have binade_eq : (2 : Rat) ^ (971 + 52 : Int) = 2 ^ 53 * 2 ^ (970 : Int) := two_zpow_add 970 53
  have power_eq : (2 : Rat) ^ (1024 : Int) = 2 ^ 54 * 2 ^ (970 : Int) := two_zpow_add 970 54
  rw [pow_one] at double_eq
  refine ⟨2 ^ (970 : Int), two_zpow_pos 970, ?_, double_eq, binade_eq, power_eq⟩
  rw [overflowBound, power_eq, sub_mul, one_mul]

theorem overflowBound_pos : 0 < overflowBound := by
  obtain ⟨unit, unit_pos, bound_eq, -⟩ := exists_unit
  rw [bound_eq]
  exact mul_pos (by norm_num) unit_pos

theorem overflowBound_lt : overflowBound < 2 ^ (1024 : Int) :=
  sub_lt_self _ (two_zpow_pos 970)

theorem rounded_overflowBound : rounded overflowBound = 2 ^ (1024 : Int) := by
  obtain ⟨unit, unit_pos, bound_eq, double_eq, binade_eq, power_eq⟩ := exists_unit
  have near : IsNearest (2 ^ 53) (overflowBound / 2 ^ (971 : Int)) := by
    have scaled_eq : overflowBound / 2 ^ (971 : Int) = (2 ^ 54 - 1) / 2 := by
      rw [bound_eq, double_eq]
      exact mul_div_mul_right _ _ unit_pos.ne'
    rw [scaled_eq]
    exact ⟨by norm_num, by norm_num, fun is_odd => absurd is_odd (by norm_num)⟩
  have lower : 2 ^ (971 + 52 : Int) ≤ overflowBound := by
    rw [bound_eq, binade_eq]
    exact mul_le_mul_of_nonneg_right (by norm_num) unit_pos.le
  rw [rounded_eq overflowBound_pos (by norm_num) (.inr lower) overflowBound_lt near, power_eq,
    double_eq]
  push_cast
  ring

theorem rounded_lt_iff (nonneg : 0 ≤ value) :
    rounded value < 2 ^ (1024 : Int) ↔ value < overflowBound := by
  constructor
  · intro inside
    by_contra beyond
    have reached := rounded_mono overflowBound_pos.le (not_lt.mp beyond)
    rw [rounded_overflowBound] at reached
    exact absurd inside reached.not_gt
  · intro below
    by_contra outside
    obtain ⟨unit, unit_pos, bound_eq, double_eq, -, power_eq⟩ := exists_unit
    have reached := not_lt.mp outside
    have positive : 0 < value := by
      rcases nonneg.eq_or_lt with rfl | positive
      · rw [rounded_zero] at reached
        exact absurd reached (two_zpow_pos 1024).not_ge
      · exact positive
    have significand_le : (roundedSignificand value : Rat) ≤ 2 ^ 53 := by
      exact_mod_cast roundedSignificand_le positive
    have place_ge : 971 ≤ lastPlace value := by
      have bound : (2 : Rat) ^ (1024 : Int) ≤ 2 ^ (lastPlace value + (53 : Nat)) := by
        rw [two_zpow_add]
        exact reached.trans (mul_le_mul_of_nonneg_right significand_le (two_zpow_pos _).le)
      have := (zpow_le_zpow_iff_right₀ (by norm_num)).mp bound
      omega
    rcases place_ge.eq_or_lt with last | above
    · -- The significand is `2 ^ 53`, so the number is at most half a place below `2 ^ 1024`.
      have near_lower := (isNearest_roundedSignificand positive.le).lower
      rw [rounded, ← last, double_eq, power_eq] at reached
      rw [← last, double_eq, ← mul_div_assoc, mul_div_mul_left _ _ two_ne_zero,
        le_div_iff₀ unit_pos] at near_lower
      have scaled : (2 ^ 54 - 1) * unit ≤ (2 * roundedSignificand value - 1) * unit := by linarith
      rw [bound_eq] at below
      linarith
    · have lower : 2 ^ (lastPlace value + 52) ≤ value :=
        (lastPlace_spec positive).2.resolve_left (by omega)
      have power_le : (2 : Rat) ^ (1024 : Int) ≤ 2 ^ (lastPlace value + 52) :=
        zpow_le_zpow_right₀ (by norm_num) (by omega)
      exact absurd (below.trans overflowBound_lt) (power_le.trans lower).not_gt

theorem rounded_pos_iff (nonneg : 0 ≤ value) : 0 < rounded value ↔ underflowBound < value := by
  obtain ⟨least, least_eq⟩ : ∃ least : Rat, (2 : Rat) ^ (-1074 : Int) = least := ⟨_, rfl⟩
  have least_pos : 0 < least := least_eq ▸ two_zpow_pos (-1074)
  have half_eq : underflowBound = least / 2 := least_eq ▸ zpow_sub_one₀ (by norm_num) (-1074)
  have least_lt : least < 2 ^ (-1074 + 53 : Int) :=
    least_eq ▸ zpow_lt_zpow_right₀ (by norm_num) (by norm_num)
  constructor
  · intro remains
    by_contra small
    have near : IsNearest 0 (underflowBound / 2 ^ (-1074 : Int)) := by
      rw [least_eq, half_eq, div_right_comm, div_self least_pos.ne']
      exact ⟨by norm_num, by norm_num, fun is_odd => absurd is_odd (by norm_num)⟩
    have vanishes := rounded_eq (by linarith) le_rfl (.inl rfl) (by linarith) near
    rw [Nat.cast_zero, zero_mul] at vanishes
    have bound := rounded_mono nonneg (not_lt.mp small)
    rw [vanishes] at bound
    exact absurd remains bound.not_gt
  · intro large
    rcases lt_or_ge value least with below | reached
    · have above_half : 1 < 2 * (value / least) := by
        rw [← mul_div_assoc, one_lt_div least_pos]
        linarith
      have below_one : value / least < 1 := (div_lt_one least_pos).mpr below
      have near : IsNearest 1 (value / 2 ^ (-1074 : Int)) := by
        rw [least_eq]
        exact ⟨by push_cast; linarith, by push_cast; linarith,
          fun _ => ⟨by push_cast; linarith, by push_cast; linarith⟩⟩
      rw [rounded_eq (by linarith) le_rfl (.inl rfl) (below.trans least_lt) near, Nat.cast_one,
        one_mul]
      exact two_zpow_pos _
    · rw [← least_eq] at reached
      have bound := rounded_mono (two_zpow_pos _).le reached
      rw [rounded_two_zpow le_rfl, least_eq] at bound
      exact least_pos.trans_le bound

/-- Above the subnormal doubles, rounding changes a number by at most a part in `2 ^ 53`. -/
theorem abs_rounded_sub_le (normal : 2 ^ (-1022 : Int) ≤ value) :
    |rounded value - value| ≤ value / 2 ^ 53 := by
  have positive := (two_zpow_pos _).trans_le normal
  have near := isNearest_roundedSignificand positive.le
  have lower : 2 ^ (lastPlace value + (52 : Nat)) ≤ value := by
    rcases (lastPlace_spec positive).2 with least | lower
    · rw [least]
      exact normal
    · exact lower
  rw [two_zpow_add] at lower
  rw [rounded]
  have power_pos := two_zpow_pos (lastPlace value)
  generalize (2 : Rat) ^ lastPlace value = unit at near lower power_pos ⊢
  have value_eq : value / unit * unit = value := div_mul_cancel₀ _ power_pos.ne'
  have below := mul_le_mul_of_nonneg_right near.lower power_pos.le
  have above := mul_le_mul_of_nonneg_right near.upper power_pos.le
  rw [mul_assoc, value_eq] at above
  rw [mul_assoc 2 (_ / _), value_eq] at below
  rw [le_div_iff₀ (by norm_num)]
  rcases abs_cases (roundedSignificand value * unit - value) with ⟨size_eq, -⟩ | ⟨size_eq, -⟩
  · rw [size_eq]
    linarith
  · rw [size_eq]
    linarith

end

end Binary64
end UnitAlgebra
