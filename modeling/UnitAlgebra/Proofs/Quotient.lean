import UnitAlgebra.Proofs.AlignedUnits
import UnitAlgebra.Proofs.BareUnit

/-!
# Quotients of aligned units

Dividing a unit by an aligned one cancels everything, since the same dimensions stand above and
below the line and the greedy cancellation takes out one entry of each.  The pairs that it forms
need not be those of a conversion, but over the rationals their ratios multiply to the same factor.
Between equal units the factor is exactly one, for doubles as well.
-/

namespace UnitAlgebra

variable {K : Type} [Scalar K]

namespace Side

theorem isPlaceholder_eq_of_tags_eq {left right : Side K} (same_tags : tags left = tags right) :
    isPlaceholder left = isPlaceholder right := by
  have all_tags (side : Side K) :
      isPlaceholder side = (tags side).all (· == dimensionTag dimensionlessName) := by
    rw [tags, List.all_map]
    rfl
  rw [all_tags, all_tags, same_tags]

end Side

/-! ## Complete cancellation -/

/-- Sides of the same dimensions cancel entry by entry. -/
theorem Cancellation.run_of_tags_eq {numerator denominator : Side K}
    (same_tags : Side.tags numerator = Side.tags denominator) (factor : K) :
    run numerator factor denominator =
      ⟨[], [], (CompoundUnit.ratios numerator denominator).foldl (· * ·) factor⟩ := by
  replace same_tags := Side.tags_eq_iff.mp same_tags
  induction same_tags generalizing factor with
  | nil => rfl
  | @cons above below aboves belows same _ induction =>
      have taken : Side.takeDimension? below.dimension (above :: aboves) = some (above, aboves) :=
        if_pos same
      rw [run, taken]
      exact induction (factor * (above.multiplier / below.multiplier))

theorem simplify_of_tags_perm [OrderedScalar K] {numerator denominator : Side K}
    (permuted : (Side.tags numerator).Perm (Side.tags denominator)) :
    simplify numerator denominator =
      ⟨[], [], (CompoundUnit.ratios (Side.canonical numerator) (Side.canonical denominator)).foldl
        (· * ·) 1⟩ := by
  rw [simplify_eq_run]
  exact Cancellation.run_of_tags_eq (Side.tags_canonical_eq_of_perm permuted) 1

namespace CompoundUnit

variable {left right : CompoundUnit K}

theorem Aligned.tags_perm (aligned : left.Aligned right) :
    (Side.tags (left.numerator ++ right.denominator)).Perm
      (Side.tags (left.denominator ++ right.numerator)) := by
  rw [Side.tags_append, Side.tags_append, aligned.above, aligned.below]
  exact List.perm_append_comm

theorem Aligned.extend_eq [OrderedScalar K] (aligned : left.Aligned right) :
    left.extend right.denominator right.numerator =
      (left.dimensionless,
        (ratios (Side.canonical (left.numerator ++ right.denominator))
          (Side.canonical (left.denominator ++ right.numerator))).foldl (· * ·) 1) := by
  rw [extend, simplify_of_tags_perm aligned.tags_perm, dimensionless]

theorem Aligned.isDimensionless_eq (aligned : left.Aligned right) :
    left.isDimensionless = right.isDimensionless := by
  rw [isDimensionless, isDimensionless, Side.isPlaceholder_eq_of_tags_eq aligned.above,
    Side.isPlaceholder_eq_of_tags_eq aligned.below]

/-- All standard units without dimensions are the same up to their labels. -/
theorem IsStandard.unlabelled_eq (standard : left.IsStandard)
    (empty : left.isDimensionless = true) :
    { left with label := none } = ofSides [] [] .dimensionless := by
  obtain ⟨above_empty, below_empty⟩ := Bool.and_eq_true_iff.mp empty
  rw [standard.numerator.eq_singleton above_empty, standard.denominator.eq_singleton below_empty,
    standard.placeholder_eq]
  rfl

/-! ## Quotients -/

theorem Aligned.unlabelled_quotient [OrderedScalar K] (aligned : left.Aligned right)
    (standard : left.IsStandard) :
    { (left.quotientWithFactor right).1 with label := none } = ofSides [] [] .dimensionless := by
  rw [quotientWithFactor]
  split
  · rename_i right_empty
    exact standard.unlabelled_eq (aligned.isDimensionless_eq.trans right_empty)
  · rw [aligned.extend_eq, dimensionless, standard.placeholder_eq]
    rfl

theorem Aligned.factor_quotient {left right : CompoundUnit Rat} (aligned : left.Aligned right)
    (left_standard : left.IsStandard) (right_standard : right.IsStandard) :
    (left.quotientWithFactor right).2 = left.size / right.size := by
  have size_eq : (left.quotientWithFactor right).1.size = 1 := by
    change size { (left.quotientWithFactor right).1 with label := none } = 1
    rw [aligned.unlabelled_quotient left_standard]
    exact (ofSides_isStandard [] []).size_eq_one (by decide)
  rw [← left_standard.size_quotientWithFactor right_standard, size_eq, mul_one]

theorem factor_quotient_of_beq [DividingScalar K] (equal : (left == right) = true) :
    (left.quotientWithFactor right).2 = 1 := by
  obtain ⟨above, below⟩ := beq_iff.mp equal
  rw [quotientWithFactor]
  split
  · rfl
  · rw [(Aligned.of_beq equal).extend_eq]
    refine foldl_ratios_of_unnamed_eq (LawfulScalar.mul_one 1)
      (Side.unnamed_canonical_eq_of_perm ?_)
    rw [Side.unnamed_append, Side.unnamed_append, above, below]
    exact List.perm_append_comm

end CompoundUnit

/-! ## Quantities -/

/-- A quantity divided by one of an aligned unit is its number in that unit. -/
theorem Quantity.exists_divide_one {left right : CompoundUnit Rat} (aligned : left.Aligned right)
    (left_standard : left.IsStandard) (right_standard : right.IsStandard)
    (magnitude : Magnitude Rat) :
    ∃ quotient, divide ⟨magnitude, left⟩ (ofNumber 1 right) = .ok quotient ∧
      { quotient.unit with label := none } = CompoundUnit.ofSides [] [] .dimensionless ∧
      magnitudeIn ⟨magnitude, left⟩ right = .ok quotient.magnitude := by
  refine ⟨scaled magnitude (left.quotientWithFactor right),
    combine_ofNumber_one .over ⟨magnitude, left⟩ right,
    aligned.unlabelled_quotient left_standard, ?_⟩
  · rw [magnitudeIn_eq_scale, aligned.conversionFactor_eq, scaled,
      aligned.factor_quotient left_standard right_standard]
    rfl

/--
Dividing a unit by an aligned one gives the unit without dimensions.  Over the rationals its factor
is the conversion factor, so that a quantity divided by one of the other unit is its number in that
unit; between equal units the factor is exactly one, whatever the scalars are.
-/
theorem CompoundUnit.quotient_agrees_with_conversion :
    (∀ {K : Type} [Scalar K] [OrderedScalar K] {left right : CompoundUnit K},
        left.IsStandard → left.Aligned right →
          { (left.combine .over right).1 with label := none } =
            CompoundUnit.ofSides [] [] .dimensionless) ∧
      (∀ {left right : CompoundUnit Rat}, left.IsStandard → right.IsStandard → left.Aligned right →
        left.conversionFactor right = .ok (left.combine .over right).2 ∧
          ∀ magnitude, ∃ quotient : Quantity Rat,
            Quantity.divide ⟨magnitude, left⟩ (.ofNumber 1 right) = .ok quotient ∧
              { quotient.unit with label := none } = CompoundUnit.ofSides [] [] .dimensionless ∧
              Quantity.magnitudeIn ⟨magnitude, left⟩ right = .ok quotient.magnitude) ∧
      ∀ {K : Type} [Scalar K] [DividingScalar K] {left right : CompoundUnit K},
        (left == right) = true → (left.combine .over right).2 = 1 := by
  refine ⟨?_, ?_, ?_⟩
  · intro K _ _ left right left_standard aligned
    exact aligned.unlabelled_quotient left_standard
  · intro left right left_standard right_standard aligned
    refine ⟨?_, Quantity.exists_divide_one aligned left_standard right_standard⟩
    rw [aligned.conversionFactor_eq, combine,
      aligned.factor_quotient left_standard right_standard]
  · intro K _ _ left right equal
    exact factor_quotient_of_beq equal

/-- Feet and minutes by the inch, which do not cancel as they are written. -/
private def footMinutes : CompoundUnit Rat :=
  .ofSides [.ofCount "length" "inch" "foot" 12, .ofCount "time" "second" "minute" 60]
    [.ofCount "length" "inch" "inch" 1] .dimensionless

/-- Hours and miles by the yard, under a label. -/
private def mileHours : CompoundUnit Rat :=
  (CompoundUnit.ofSides
    [.ofCount "time" "second" "hour" 3600, .ofCount "length" "inch" "mile" 63360]
    [.ofCount "length" "inch" "yard" 36] .dimensionless).withLabel "mile hour"

/-- A third as it is rounded, under some name. -/
private def third (name : String) : CompoundUnit Float :=
  .ofSides [⟨name, "[share]", "whole", 1 / 3, by decide +kernel⟩] [] .dimensionless

/-- Feet meet inches in the quotient and miles in the conversion, and the factor is the same. -/
theorem CompoundUnit.quotient_agrees_with_conversion_crossed :
    { (footMinutes.combine .over mileHours).1 with label := none } =
        CompoundUnit.ofSides [] [] .dimensionless ∧
      footMinutes.conversionFactor mileHours = .ok (footMinutes.combine .over mileHours).2 ∧
      (∃ quotient : Quantity Rat,
        Quantity.divide ⟨.list [1, 2], footMinutes⟩ (.ofNumber 1 mileHours) = .ok quotient ∧
          Quantity.magnitudeIn ⟨.list [1, 2], footMinutes⟩ mileHours = .ok quotient.magnitude) ∧
      ((third "part").combine .over (third "share")).2 = 1 := by
  have left_standard : footMinutes.IsStandard := ofSides_isStandard _ _
  have right_standard : mileHours.IsStandard := (ofSides_isStandard _ _).withLabel _
  have aligned : footMinutes.Aligned mileHours := ⟨by decide +kernel, by decide +kernel⟩
  have equal : (third "part" == third "share") = true := by decide +kernel
  obtain ⟨cancels, agrees, is_one⟩ := quotient_agrees_with_conversion
  obtain ⟨factor_eq, divides⟩ := agrees left_standard right_standard aligned
  obtain ⟨quotient, divided, -, magnitude_eq⟩ := divides (.list [1, 2])
  exact ⟨cancels left_standard aligned, factor_eq, ⟨quotient, divided, magnitude_eq⟩,
    is_one equal⟩

end UnitAlgebra
