import UnitAlgebra.Proofs.Binary64.Places
import UnitAlgebra.Proofs.Size
import UnitAlgebra.Quantity.Rounding

/-!
# Rounding of finite quantities

A finite quantity is rounded to a finite one, unless a large element is rounded to one of eight
numbers of places.  There the integer has been rounded up, and its quotient by the power of ten is
beyond the doubles; for each of the eight there is a least number that is lost so.
-/

namespace UnitAlgebra
namespace Binary64

/-- The least numbers that are lost when they are rounded to a number of places. -/
def leastLost : List (Int × Float) :=
  [(-308, 1.5000000000000008e308), (-307, 1.7500000000000008e308), (-306, 1.7950000000000011e308),
    (-305, 1.797500000000001e308), (-304, 1.797650000000001e308), (-299, 1.7976931345000012e308),
    (-298, 1.7976931348500008e308), (-293, 1.7976931348623157e308)]

/-- The least number that is lost when it is rounded to some places, if there is any. -/
def leastLost? (places : Int) : Option Float :=
  leastLost.lookup places

/-- The greatest double with its parts. -/
def greatestParts : Parts :=
  ⟨false, 2 ^ 53 - 1, 971⟩

/-- Few powers of ten are too small for the general bound, and half of them lose no double. -/
theorem greatestParts_kept : ∀ places ∈ [-303, -302, -301, -300, -297, -296, -295, -294],
    (roundToPlaces places greatestParts.toFloat).isFinite = true := by
  decide +kernel

/-- A double of the last binade that is lost, while the one before it is not. -/
def isLeastLost (places : Int) (parts : Parts) : Bool :=
  !parts.negative && parts.exponent == 971 && 2 ^ 52 < parts.significand &&
    !(roundToPlaces places parts.toFloat).isFinite &&
    (roundToPlaces places
      (Parts.toFloat { parts with significand := parts.significand - 1 })).isFinite

theorem isLeastLost_of_mem : ∀ loss ∈ leastLost, -308 ≤ loss.1 ∧ loss.1 ≤ -293 ∧
    (Parts.ofFloat? loss.2).any (isLeastLost loss.1) = true := by
  decide +kernel

section

variable {parts : Parts} {places : Int}

theorem mem_leastLost {least : Float} (found : leastLost? places = some least) :
    (places, least) ∈ leastLost := by
  obtain ⟨front, back, entries, -⟩ := List.lookup_eq_some_iff.mp found
  rw [entries]
  exact List.mem_append_right _ List.mem_cons_self

/-- A number that is not below one that is lost is lost, in places before the point. -/
theorem Parts.IsCanonical.lost_of_le {least : Parts} (canonical : parts.IsCanonical)
    (least_canonical : least.IsCanonical) (negative : places < 0) (inside : -308 ≤ places)
    (lost : (roundToPlaces places least.toFloat).isFinite = false)
    (least_le : least.size ≤ parts.size) :
    (roundToPlaces places parts.toFloat).isFinite = false := by
  have multiplier := (powerOfTen_of_neg negative inside).1
  rw [← Bool.not_eq_true, canonical.isFinite_roundToPlaces_iff multiplier, not_not]
  rw [← Bool.not_eq_true, least_canonical.isFinite_roundToPlaces_iff multiplier, not_not] at lost
  exact lost.mono (size_pos multiplier) (powerOfTen_le_one negative inside) least.size_nonneg
    least_le (canonical.size_le_greatest.trans_lt greatest_lt)

/-- Below a double of the last binade comes the one whose significand is smaller by one. -/
theorem Parts.IsCanonical.size_le_pred {significand : Nat} (canonical : parts.IsCanonical)
    (hidden : 2 ^ 52 < significand) (below : parts.size < significand * 2 ^ (971 : Int)) :
    parts.size ≤ (significand - 1 : Nat) * 2 ^ (971 : Int) := by
  rcases canonical.exponent_le.eq_or_lt with last | earlier
  · rw [size, last] at below ⊢
    have significand_lt : parts.significand < significand := by
      exact_mod_cast lt_of_mul_lt_mul_right below (two_zpow_pos 971).le
    exact mul_le_mul_of_nonneg_right (by exact_mod_cast Nat.le_pred_of_lt significand_lt)
      (two_zpow_pos _).le
  · have power_eq : (2 : Rat) ^ (971 : Int) = 2 * 2 ^ (970 : Int) := by
      rw [mul_comm]
      exact zpow_add_one₀ two_ne_zero 970
    have significand_le : (parts.significand : Rat) ≤ (significand - 1 : Nat) * 2 := by
      have := canonical.significand_lt
      exact_mod_cast (by omega : parts.significand ≤ (significand - 1) * 2)
    rw [power_eq, ← mul_assoc]
    exact mul_le_mul significand_le (zpow_le_zpow_right₀ (by norm_num) (by omega))
      (two_zpow_pos _).le ((Nat.cast_nonneg _).trans significand_le)

/-- Before a least number that is lost comes a double that is not. -/
theorem Parts.IsCanonical.kept_iff_of_isLeastLost {least : Parts} (canonical : parts.IsCanonical)
    (least_canonical : least.IsCanonical) (negative : places < 0) (inside : -308 ≤ places)
    (is_least : isLeastLost places least = true) :
    (roundToPlaces places parts.toFloat).isFinite = true ↔ parts.size < least.size := by
  obtain ⟨sign, significand, exponent⟩ := least
  simp only [isLeastLost, Bool.and_eq_true, Bool.not_eq_true', beq_iff_eq, decide_eq_true_eq]
    at is_least
  obtain ⟨⟨⟨⟨rfl, rfl⟩, hidden⟩, lost⟩, kept⟩ := is_least
  have below_canonical : Parts.IsCanonical ⟨false, significand - 1, 971⟩ :=
    ⟨by have := least_canonical.significand_lt; dsimp only at *; omega, by norm_num, le_rfl,
      .inr (by dsimp only; omega)⟩
  constructor
  · intro finite
    by_contra reached
    have own := canonical.lost_of_le least_canonical negative inside lost (not_lt.mp reached)
    exact Bool.false_ne_true (own.symm.trans finite)
  · intro below
    by_contra own
    have step_le := canonical.size_le_pred hidden below
    have lost_before := below_canonical.lost_of_le canonical negative inside
      (Bool.eq_false_iff.mpr own) step_le
    exact Bool.false_ne_true (lost_before.symm.trans kept)

/-- Places after the point have a power that is infinite or at least one. -/
theorem Parts.IsCanonical.kept_after_point (canonical : parts.IsCanonical) (nonneg : 0 ≤ places) :
    (roundToPlaces places parts.toFloat).isFinite = true := by
  by_cases finite : (powerOfTen places).isFinite = true
  · obtain ⟨multiplier, one_le⟩ := powerOfTen_of_nonneg nonneg finite
    rw [canonical.isFinite_roundToPlaces_iff multiplier]
    exact not_overshoots_of_one_le one_le parts.size_nonneg
  · rw [roundToPlaces_of_power _ (.inl (Bool.eq_false_iff.mpr finite))]
    exact isFinite_of_ofFloat? canonical.ofFloat?_toFloat

theorem Parts.IsCanonical.kept_of_few (canonical : parts.IsCanonical) (negative : places < 0)
    (few : -292 ≤ places) : (roundToPlaces places parts.toFloat).isFinite = true := by
  have multiplier := (powerOfTen_of_neg negative (by omega)).1
  have large := le_size_powerOfTen negative few
  rw [canonical.isFinite_roundToPlaces_iff multiplier]
  obtain ⟨power, power_canonical, -, -, power_eq⟩ := exists_parts_of_isMultiplier multiplier
  rw [← power_eq, size_of_ofFloat? power_canonical.ofFloat?_toFloat] at large ⊢
  exact not_overshoots_of_large power_canonical large parts.size_nonneg canonical.size_le_greatest

theorem Parts.IsCanonical.kept_of_greatest (canonical : parts.IsCanonical) (negative : places < 0)
    (inside : -308 ≤ places)
    (kept : (roundToPlaces places greatestParts.toFloat).isFinite = true) :
    (roundToPlaces places parts.toFloat).isFinite = true := by
  have greatest_canonical : greatestParts.IsCanonical :=
    ⟨by decide, by decide, le_rfl, .inr (by decide)⟩
  by_contra lost
  have greatest_lost := greatest_canonical.lost_of_le canonical negative inside
    (Bool.eq_false_iff.mpr lost) canonical.size_le_greatest
  exact Bool.false_ne_true (greatest_lost.symm.trans kept)

/-- A finite double is rounded to a finite one exactly below the least number that is lost. -/
theorem Parts.IsCanonical.isFinite_roundToPlaces (canonical : parts.IsCanonical) (places : Int) :
    (roundToPlaces places parts.toFloat).isFinite = true ↔
      ∀ least ∈ leastLost? places, parts.size < Binary64.size least := by
  cases found : leastLost? places with
  | some least =>
      obtain ⟨low, high, is_least⟩ := isLeastLost_of_mem _ (mem_leastLost found)
      dsimp only at low high is_least
      obtain ⟨least_parts, read, is_least⟩ := (Option.any_eq_true _ _).mp is_least
      simp only [Option.mem_some_iff, forall_eq', size_of_ofFloat? read]
      exact canonical.kept_iff_of_isLeastLost (Parts.isCanonical_of_ofBits? read).1 (by omega) low
        is_least
  | none =>
      refine iff_of_true ?_ (by simp)
      rcases lt_or_ge places 0 with negative | nonneg
      · rcases lt_or_ge places (-308) with beyond | inside
        · rw [roundToPlaces_of_power _ (.inr (powerOfTen_eq_zero beyond))]
          exact isFinite_of_ofFloat? canonical.ofFloat?_toFloat
        · rcases lt_or_ge places (-292) with many | few
          · refine canonical.kept_of_greatest negative inside (greatestParts_kept places ?_)
            have absent := List.lookup_eq_none_iff.mp found
            simp only [leastLost, List.mem_cons, List.not_mem_nil, or_false, bne_iff_ne, ne_eq,
              forall_eq_or_imp, forall_eq] at absent
            simp only [List.mem_cons, List.not_mem_nil, or_false]
            omega
          · exact canonical.kept_of_few negative few
      · exact canonical.kept_after_point nonneg

end

end Binary64

namespace Quantity

open Binary64

/--
A finite quantity is rounded to a finite one exactly if its elements are smaller than the least
number that is lost by rounding to these places.  There is such a number for eight numbers of places
only, all of which stand far before the point.
-/
theorem isFinite_round_iff (quantity : Quantity Float) (places : Int)
    (finite : ∀ value ∈ quantity.magnitude.elements, value.isFinite = true) :
    (∀ value ∈ (quantity.round places).magnitude.elements, value.isFinite = true) ↔
      ∀ value ∈ quantity.magnitude.elements, ∀ least ∈ leastLost? places,
        size value < size least := by
  rw [round, map, Magnitude.elements_map, List.forall_mem_map]
  refine forall₂_congr fun value member => ?_
  obtain ⟨parts, read⟩ := exists_parts_of_isFinite (finite value member)
  have canonical := (Parts.isCanonical_of_ofBits? read).1
  simp only [size_of_ofFloat? read]
  rw [← toFloat_of_ofFloat? read]
  exact canonical.isFinite_roundToPlaces places

/-- Two lengths, one of them near the greatest double. -/
private def farLengths : Quantity Float :=
  ⟨.list [1.7e308, 12.345],
    .ofSides [.ofMeters "meter" 1 Scalar.isMultiplier_one] [] .dimensionless⟩

/-- Near the greatest double, lengths are rounded to hundreds but not to 308 places. -/
theorem farLengths_round :
    (∀ value ∈ (farLengths.round (-2)).magnitude.elements, value.isFinite = true) ∧
      ¬∀ value ∈ (farLengths.round (-308)).magnitude.elements, value.isFinite = true := by
  have finite : ∀ value ∈ farLengths.magnitude.elements, value.isFinite = true := by
    decide +kernel
  rw [isFinite_round_iff farLengths (-2) finite, isFinite_round_iff farLengths (-308) finite]
  constructor <;> decide +kernel

/-- A length of the greatest double. -/
private def greatestLength : Quantity Float :=
  .ofNumber 1.7976931348623157e308
    (.ofSides [.ofMeters "meter" 1 Scalar.isMultiplier_one] [] .dimensionless)

/-- The greatest double is finite, and it is infinite after it has been rounded to 308 places. -/
theorem greatestLength_overflows :
    (∀ value ∈ greatestLength.magnitude.elements, value.isFinite = true) ∧
      ∀ value ∈ (greatestLength.round (-308)).magnitude.elements, value.isFinite = false := by
  decide +kernel

end Quantity
end UnitAlgebra
