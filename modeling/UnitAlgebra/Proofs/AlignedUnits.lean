import UnitAlgebra.Proofs.Exponent
import UnitAlgebra.Proofs.PhysicalValue

/-!
# Aligned units

Two units are aligned if they have the same dimensions at the same places on both sides, and units
that are made of the same dimensions in any order are.  Conversion pairs entries by their places, so
that entries of one dimension may meet crosswise; over the rationals the factor is the ratio of the
sizes all the same, so that factors multiply along a chain of units and conversions are undone.
-/

namespace UnitAlgebra

variable {K : Type} [Scalar K]

theorem Side.tags_canonical_eq_of_perm [OrderedScalar K] {left right : Side K}
    (permuted : (tags left).Perm (tags right)) :
    tags (canonical left) = tags (canonical right) := by
  refine (canonical_isCanonical left).tags_eq_of_count_eq (canonical_isCanonical right) ?_
  intro tag proper
  rw [count_tags_canonical proper, count_tags_canonical proper, permuted.count_eq]

theorem Side.tags_normalize_eq_of_perm [OrderedScalar K] (placeholder : BaseUnit K)
    {left right : Side K} (permuted : (tags left).Perm (tags right)) :
    tags (normalize placeholder left) = tags (normalize placeholder right) := by
  have same := tags_eq_iff.mp (tags_canonical_eq_of_perm permuted)
  rw [normalize, normalize]
  generalize canonical left = left_canonical at same
  generalize canonical right = right_canonical at same
  cases same with
  | nil => rfl
  | cons head_eq tails => exact tags_eq_iff.mpr (.cons head_eq tails)

namespace CompoundUnit

/-- Two units that have the same dimensions at the same places. -/
structure Aligned (left right : CompoundUnit K) : Prop where
  /-- The dimensions above the line are the same place by place. -/
  above : Side.tags left.numerator = Side.tags right.numerator
  /-- The dimensions below the line are the same place by place. -/
  below : Side.tags left.denominator = Side.tags right.denominator

namespace Aligned

variable {first second third : CompoundUnit K}

theorem refl (unit : CompoundUnit K) : unit.Aligned unit :=
  ⟨rfl, rfl⟩

theorem symm (aligned : first.Aligned second) : second.Aligned first :=
  ⟨aligned.above.symm, aligned.below.symm⟩

theorem trans (aligned : first.Aligned second) (next : second.Aligned third) :
    first.Aligned third :=
  ⟨aligned.above.trans next.above, aligned.below.trans next.below⟩

end Aligned

theorem Aligned.of_beq [OrderedScalar K] {left right : CompoundUnit K}
    (equal : (left == right) = true) : left.Aligned right :=
  ⟨(tags_eq_of_beq equal).1, (tags_eq_of_beq equal).2⟩

theorem aligned_ofSides_of_perm [OrderedScalar K] (placeholder : BaseUnit K)
    {above above' below below' : Side K} (above_perm : (Side.tags above).Perm (Side.tags above'))
    (below_perm : (Side.tags below).Perm (Side.tags below')) :
    (ofSides above below placeholder).Aligned (ofSides above' below' placeholder) where
  above := Side.tags_normalize_eq_of_perm placeholder above_perm
  below := Side.tags_normalize_eq_of_perm placeholder below_perm

theorem Aligned.conversionFactor_eq {source target : CompoundUnit Rat}
    (aligned : source.Aligned target) :
    source.conversionFactor target = .ok (source.size / target.size) :=
  conversionFactor_of_tags_eq aligned.above aligned.below

end CompoundUnit

namespace Quantity

/-- A conversion between aligned units multiplies by the ratio of their sizes. -/
theorem convert_of_aligned {source target : CompoundUnit Rat} (aligned : source.Aligned target)
    (magnitude : Magnitude Rat) :
    convert ⟨magnitude, source⟩ target =
      .ok ⟨magnitude.map (· * (source.size / target.size)), target⟩ := by
  rw [convert, magnitudeIn_eq_scale, aligned.conversionFactor_eq]
  rfl

theorem exists_convert_back {source target : CompoundUnit Rat} (aligned : source.Aligned target)
    (magnitude : Magnitude Rat) :
    ∃ converted, convert ⟨magnitude, source⟩ target = .ok converted ∧
      converted.convert source = .ok ⟨magnitude, source⟩ := by
  refine ⟨_, convert_of_aligned aligned magnitude, ?_⟩
  rw [convert_of_aligned aligned.symm, Magnitude.map_map]
  have ratios_cancel (value : Rat) :
      value * (source.size / target.size) * (target.size / source.size) = value := by
    rw [mul_assoc, div_mul_div_cancel₀ target.size_pos.ne', div_self source.size_pos.ne', mul_one]
  simp only [ratios_cancel, Magnitude.map_id]

end Quantity

namespace CompoundUnit

/--
Aligned units convert by the ratio of their sizes, whichever of their entries are paired.  So a unit
converts to itself by one, the way back has the inverse factor, factors multiply along a chain, and
every quantity comes back from a conversion with its magnitude.
-/
theorem conversionFactor_is_ratio_of_sizes {first second third : CompoundUnit Rat}
    (aligned : first.Aligned second) (next_aligned : second.Aligned third) :
    first.conversionFactor second = .ok (first.size / second.size) ∧
      first.conversionFactor first = .ok 1 ∧
      (∃ there back, first.conversionFactor second = .ok there ∧
        second.conversionFactor first = .ok back ∧ there * back = 1) ∧
      (∃ factor next_factor, first.conversionFactor second = .ok factor ∧
        second.conversionFactor third = .ok next_factor ∧
        first.conversionFactor third = .ok (factor * next_factor)) ∧
      ∀ magnitude, ∃ converted : Quantity Rat,
        Quantity.convert ⟨magnitude, first⟩ second = .ok converted ∧
          converted.convert first = .ok ⟨magnitude, first⟩ := by
  have first_ne := first.size_pos.ne'
  have second_ne := second.size_pos.ne'
  refine ⟨aligned.conversionFactor_eq, ?_, ?_, ?_, Quantity.exists_convert_back aligned⟩
  · rw [(Aligned.refl first).conversionFactor_eq, div_self first_ne]
  · refine ⟨_, _, aligned.conversionFactor_eq, aligned.symm.conversionFactor_eq, ?_⟩
    rw [div_mul_div_cancel₀ second_ne, div_self first_ne]
  · refine ⟨_, _, aligned.conversionFactor_eq, next_aligned.conversionFactor_eq, ?_⟩
    rw [(aligned.trans next_aligned).conversionFactor_eq, div_mul_div_cancel₀ second_ne]

/-- The product of yard and foot over that of second and minute. -/
private def yardUnit : CompoundUnit Rat :=
  .ofSides [.ofCount "length" "inch" "yard" 36, .ofCount "length" "inch" "foot" 12]
    [.ofCount "time" "second" "second" 1, .ofCount "time" "second" "minute" 60] .dimensionless

/-- The product of foot and inch over that of minute and hour. -/
private def footUnit : CompoundUnit Rat :=
  .ofSides [.ofCount "length" "inch" "foot" 12, .ofCount "length" "inch" "inch" 1]
    [.ofCount "time" "second" "minute" 60, .ofCount "time" "second" "hour" 3600] .dimensionless

/-- The square of inch over that of second. -/
private def inchUnit : CompoundUnit Rat :=
  .ofSides [.ofCount "length" "inch" "inch" 1, .ofCount "length" "inch" "inch" 1]
    [.ofCount "time" "second" "second" 1, .ofCount "time" "second" "second" 1] .dimensionless

/-- Feet meet inches and minutes meet hours, and still the factor is the ratio of the sizes. -/
theorem conversionFactor_of_crossed_entries :
    yardUnit.conversionFactor footUnit = .ok 129600 ∧
      (∃ factor, footUnit.conversionFactor inchUnit = .ok factor ∧
        yardUnit.conversionFactor inchUnit = .ok (129600 * factor)) ∧
      ∃ converted : Quantity Rat,
        Quantity.convert ⟨.list [1, 2], yardUnit⟩ footUnit = .ok converted ∧
          converted.convert yardUnit = .ok ⟨.list [1, 2], yardUnit⟩ := by
  have aligned : yardUnit.Aligned footUnit :=
    aligned_ofSides_of_perm _ (by decide +kernel) (by decide +kernel)
  have next_aligned : footUnit.Aligned inchUnit :=
    aligned_ofSides_of_perm _ (by decide +kernel) (by decide +kernel)
  have ratio_eq : yardUnit.size / footUnit.size = 129600 := by decide +kernel
  obtain ⟨converts, -, -, ⟨factor, next_factor, factor_eq, next_eq, chained⟩, comes_back⟩ :=
    conversionFactor_is_ratio_of_sizes aligned next_aligned
  rw [ratio_eq] at converts
  obtain rfl := Except.ok.inj (factor_eq.symm.trans converts)
  exact ⟨converts, ⟨next_factor, next_eq, chained⟩, comes_back (.list [1, 2])⟩

end CompoundUnit
end UnitAlgebra
