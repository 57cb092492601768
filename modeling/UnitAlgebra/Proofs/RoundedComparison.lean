import UnitAlgebra.Proofs.Comparison

/-!
# Comparison with rounding

A conversion of one number to the unit of another and the conversion back are rounded on their own.
Equality looks at both of them and an ordering at the one into its left unit, so that two quantities
may be equal and ordered, or each be smaller than the other.  Quantities are equal exactly if one of
their two orderings says so, and equality and ordering belong together where the two orderings are
each other's reverse: in equal units, and wherever nothing is rounded.
-/

namespace UnitAlgebra
namespace Quantity

/-- Two quantities whose equality and orderings say the same. -/
structure ComparesAlike {K : Type} [Scalar K] (left right : Quantity K) : Prop where
  /-- They are equal exactly if they compare as equal. -/
  equals_iff : left.equals right = true ↔ left.compare? right = some .eq
  /-- The left one is smaller exactly if the right one is greater. -/
  isLess_iff : left.isLess right = true ↔ right.compare? left = some .gt

section

variable {K : Type} [Scalar K] [DividingScalar K] [ComparableScalar K]
  {left right : CompoundUnit K}

theorem equals_iff_compare? (left_formed : left.IsFormed) (right_formed : right.IsFormed)
    (number number' : K) :
    (ofNumber number left).equals (ofNumber number' right) = true ↔
      (ofNumber number left).compare? (ofNumber number' right) = some .eq ∨
        (ofNumber number' right).compare? (ofNumber number left) = some .eq := by
  by_cases aligned : left.Aligned right
  · obtain ⟨there, there_eq⟩ : ∃ there, right.conversionFactor left = .ok there :=
      ⟨_, CompoundUnit.conversionFactor_eq_foldl aligned.symm.above aligned.symm.below⟩
    obtain ⟨back, back_eq⟩ : ∃ back, left.conversionFactor right = .ok back :=
      ⟨_, CompoundUnit.conversionFactor_eq_foldl aligned.above aligned.below⟩
    have equals_eq : (ofNumber number left).equals (ofNumber number' right) =
        (number' * there == number || number * back == number') :=
      equals_of_converted there_eq back_eq
    rw [equals_eq, compare?_ofNumber there_eq, compare?_ofNumber back_eq,
      ComparableScalar.compare?_eq_iff, ComparableScalar.compare?_eq_iff,
      ComparableScalar.beq_comm number, ComparableScalar.beq_comm number', Bool.or_eq_true]
  · obtain ⟨different, incomparable⟩ := incomparable_of_misaligned (ofNumber number left)
      (ofNumber number' right) left_formed right_formed aligned
    obtain ⟨-, incomparable'⟩ := incomparable_of_misaligned (ofNumber number' right)
      (ofNumber number left) right_formed left_formed fun reverse => aligned reverse.symm
    simp [different, incomparable, incomparable']

theorem comparesAlike_of_reverse (left_formed : left.IsFormed) (right_formed : right.IsFormed)
    {number number' : K}
    (reverse : (ofNumber number' right).compare? (ofNumber number left) =
      ((ofNumber number left).compare? (ofNumber number' right)).map Ordering.swap) :
    (ofNumber number left).ComparesAlike (ofNumber number' right) where
  equals_iff := by
    rw [equals_iff_compare? left_formed right_formed, reverse]
    cases (ofNumber number left).compare? (ofNumber number' right) with
    | none => simp
    | some order => cases order <;> simp
  isLess_iff := by
    rw [isLess, reverse]
    cases (ofNumber number left).compare? (ofNumber number' right) with
    | none => simp
    | some order => cases order <;> simp

theorem reverse_of_comparesAlike {left right : Quantity K} (alike : left.ComparesAlike right)
    (alike' : right.ComparesAlike left) :
    right.compare? left = (left.compare? right).map Ordering.swap := by
  have both_equal : left.compare? right = some .eq ↔ right.compare? left = some .eq := by
    rw [← alike.equals_iff, ← alike'.equals_iff,
      equals_comm LawfulScalar.order_swap ComparableScalar.beq_comm]
  have less_greater : left.compare? right = some .lt ↔ right.compare? left = some .gt := by
    rw [← alike.isLess_iff, isLess, beq_iff_eq]
  have greater_less : right.compare? left = some .lt ↔ left.compare? right = some .gt := by
    rw [← alike'.isLess_iff, isLess, beq_iff_eq]
  generalize left.compare? right = forward at *
  generalize right.compare? left = backward at *
  cases forward with
  | none =>
      cases backward with
      | none => rfl
      | some order => cases order <;> simp_all
  | some order => cases order <;> simp_all

theorem comparesAlike_of_beq (left_formed : left.IsFormed) (right_formed : right.IsFormed)
    (equal : (left == right) = true) (number number' : K) :
    (ofNumber number left).ComparesAlike (ofNumber number' right) := by
  have equal' : (right == left) = true := by
    rwa [CompoundUnit.beq_comm LawfulScalar.order_swap]
  refine comparesAlike_of_reverse left_formed right_formed ?_
  rw [compare?_ofNumber (CompoundUnit.conversionFactor_of_beq equal),
    compare?_ofNumber (CompoundUnit.conversionFactor_of_beq equal'), LawfulScalar.mul_one,
    LawfulScalar.mul_one, ComparableScalar.compare?_swap]

end

/-- Without rounding, equality and orderings say the same in all units. -/
theorem comparesAlike_rat {left right : CompoundUnit Rat} (left_formed : left.IsFormed)
    (right_formed : right.IsFormed) (number number' : Rat) :
    (ofNumber number left).ComparesAlike (ofNumber number' right) := by
  refine comparesAlike_of_reverse left_formed right_formed ?_
  by_cases aligned : left.Aligned right
  · rw [compare?_eq_cmp aligned, compare?_eq_cmp aligned.symm, Option.map_some, cmp_swap]
  · obtain ⟨-, incomparable⟩ := incomparable_of_misaligned (ofNumber number left)
      (ofNumber number' right) left_formed right_formed aligned
    obtain ⟨-, incomparable'⟩ := incomparable_of_misaligned (ofNumber number' right)
      (ofNumber number left) right_formed left_formed fun reverse => aligned reverse.symm
    rw [incomparable, incomparable', Option.map_none]

/--
Single numbers are equal exactly if one of their two orderings says so, however conversions are
rounded.  Equality and orderings say the same in both orders exactly if the two orderings are each
other's reverse, and they do in equal units.
-/
theorem comparison_up_to_rounding {K : Type} [Scalar K] [DividingScalar K] [ComparableScalar K]
    {left right : CompoundUnit K} (left_formed : left.IsFormed) (right_formed : right.IsFormed)
    (number number' : K) :
    ((ofNumber number left).equals (ofNumber number' right) = true ↔
        (ofNumber number left).compare? (ofNumber number' right) = some .eq ∨
          (ofNumber number' right).compare? (ofNumber number left) = some .eq) ∧
      ((ofNumber number left).ComparesAlike (ofNumber number' right) ∧
          (ofNumber number' right).ComparesAlike (ofNumber number left) ↔
        (ofNumber number' right).compare? (ofNumber number left) =
          ((ofNumber number left).compare? (ofNumber number' right)).map Ordering.swap) ∧
      ((left == right) = true → (ofNumber number left).ComparesAlike (ofNumber number' right)) := by
  refine ⟨equals_iff_compare? left_formed right_formed number number', ⟨?_, ?_⟩, ?_⟩
  · rintro ⟨alike, alike'⟩
    exact reverse_of_comparesAlike alike alike'
  · intro reverse
    refine ⟨comparesAlike_of_reverse left_formed right_formed reverse,
      comparesAlike_of_reverse right_formed left_formed ?_⟩
    rw [reverse]
    simp [Function.comp_def]
  · intro equal
    exact comparesAlike_of_beq left_formed right_formed equal number number'

private theorem isMultiplier_foot : Scalar.isMultiplier (0.3048 : Float) = true := by decide

private def inch : CompoundUnit Float :=
  .ofSides [.ofMeters "inch" 0.0254 (by decide)] [] .dimensionless

/-- A foot under one of its names. -/
private def footNamed (name : String) : CompoundUnit Float :=
  .ofSides [.ofMeters name 0.3048 isMultiplier_foot] [] .dimensionless

/-- Twelve inches are a foot in one ordering only; two numbers of feet are ordered in both. -/
theorem inches_and_foot_up_to_rounding :
    (ofNumber 12 inch).equals (ofNumber 1 (footNamed "foot")) = true ∧
      ¬((ofNumber 12 inch).ComparesAlike (ofNumber 1 (footNamed "foot")) ∧
        (ofNumber 1 (footNamed "foot")).ComparesAlike (ofNumber 12 inch)) ∧
      (ofNumber 1 (footNamed "foot")).ComparesAlike (ofNumber 2 (footNamed "ft")) := by
  have inch_formed : inch.IsFormed := CompoundUnit.ofSides_isFormed _ _ _
  have foot_formed (name : String) : (footNamed name).IsFormed :=
    CompoundUnit.ofSides_isFormed _ _ _
  have less : (ofNumber 12 inch).compare? (ofNumber 1 (footNamed "foot")) = some .lt := by
    decide +kernel
  have same : (ofNumber 1 (footNamed "foot")).compare? (ofNumber 12 inch) = some .eq := by
    decide +kernel
  obtain ⟨equals_iff, alike_iff, -⟩ :=
    comparison_up_to_rounding inch_formed (foot_formed "foot") 12 1
  refine ⟨equals_iff.mpr (.inr same), ?_, ?_⟩
  · rw [alike_iff, less, same]
    decide
  · obtain ⟨-, -, alike_of_beq⟩ :=
      comparison_up_to_rounding (foot_formed "foot") (foot_formed "ft") 1 2
    exact alike_of_beq (by decide +kernel)

end Quantity

namespace Registry

/-- A table of lengths. -/
private def lengths : DefinitionTable Float where
  prefixes := []
  dimensions :=
    [⟨dimensionlessName, [(dimensionlessName, .multiplier 1)]⟩,
      ⟨"length", [("meter", .multiplier 1), ("inch", .multiplier 0.0254),
        ("foot", .multiplier 0.3048), ("mile", .multiplier 1609.344)]⟩]

/--
Twelve inches equal a foot and are less than a foot, which is not greater.  Two equally long
distances are each smaller than the other.
-/
theorem twelve_inches_below_foot :
    ∃ registry inch foot mile, ofTable lengths = .ok registry ∧
      registry.lookup? "inch" = some inch ∧ registry.lookup? "foot" = some foot ∧
      registry.lookup? "mile" = some mile ∧
      inch.compatible foot = true ∧ inch.compatible mile = true ∧
      (Quantity.ofNumber 12 inch).equals (.ofNumber 1 foot) = true ∧
      (Quantity.ofNumber 12 inch).compare? (.ofNumber 1 foot) = some .lt ∧
      (Quantity.ofNumber 1 foot).compare? (.ofNumber 12 inch) = some .eq ∧
      (Quantity.ofNumber 31.901 mile).isLess (.ofNumber 2021247.36 inch) = true ∧
      (Quantity.ofNumber 2021247.36 inch).isLess (.ofNumber 31.901 mile) = true := by
  have computed : Outcome.passes (ofTable lengths) (fun registry =>
      (registry.lookup? "inch").any fun inch => (registry.lookup? "foot").any fun foot =>
        (registry.lookup? "mile").any fun mile =>
          inch.compatible foot && inch.compatible mile &&
            (Quantity.ofNumber 12 inch).equals (.ofNumber 1 foot) &&
            (Quantity.ofNumber 12 inch).compare? (.ofNumber 1 foot) == some .lt &&
            (Quantity.ofNumber 1 foot).compare? (.ofNumber 12 inch) == some .eq &&
            (Quantity.ofNumber 31.901 mile).isLess (.ofNumber 2021247.36 inch) &&
            (Quantity.ofNumber 2021247.36 inch).isLess (.ofNumber 31.901 mile)) = true := by
    decide +kernel
  obtain ⟨registry, built, tests⟩ := Outcome.exists_of_passes computed
  simp only [Option.any_eq_true, Bool.and_eq_true, beq_iff_eq] at tests
  obtain ⟨inch, inch_found, foot, foot_found, mile, mile_found, tests⟩ := tests
  obtain ⟨⟨⟨⟨⟨⟨foot_compatible, mile_compatible⟩, equal⟩, less⟩, same⟩, less_there⟩,
    less_back⟩ := tests
  exact ⟨registry, inch, foot, mile, built, inch_found, foot_found, mile_found, foot_compatible,
    mile_compatible, equal, less, same, less_there, less_back⟩

end Registry
end UnitAlgebra
