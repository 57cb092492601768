import UnitAlgebra.Proofs.Completeness
import UnitAlgebra.Proofs.Reachability
import UnitAlgebra.Proofs.Renaming

/-!
# Shortcuts for units without dimensions

A product or quotient with a unit that has no dimension gives the other operand back at once.  The
general path would drop the placeholders, sort, cancel and form the unit anew.  It comes to the same
result, because sorted sides without a common dimension go through all of that unchanged.
-/

namespace UnitAlgebra

variable {K : Type} [Scalar K]

/-! ## Cancellation of what is reduced -/

/-- Canonical sides without a common dimension are what is left of them, and incur no factor. -/
theorem simplify_of_apart {above below : Side K} (above_canonical : Side.IsCanonical above)
    (below_canonical : Side.IsCanonical below) (apart : Side.Apart above below) :
    simplify above below = ⟨above, below, 1⟩ := by
  rw [simplify_eq_run, above_canonical.canonical_eq, below_canonical.canonical_eq,
    Cancellation.run_of_apart apart]

theorem simplify_simplify [OrderedScalar K] (numerator denominator : Side K) :
    simplify (simplify numerator denominator).numerator
        (simplify numerator denominator).denominator =
      ⟨(simplify numerator denominator).numerator, (simplify numerator denominator).denominator,
        1⟩ := by
  obtain ⟨above_canonical, below_canonical⟩ := simplify_isCanonical numerator denominator
  refine simplify_of_apart above_canonical below_canonical ?_
  rw [simplify_eq_run]
  exact Cancellation.run_isReduced _ _ _

/-! ## The general path -/

namespace CompoundUnit

/-- The entries that a right operand brings above the line. -/
def sideAbove (unit : CompoundUnit K) : Operator → Side K
  | .times => unit.numerator
  | .over => unit.denominator

/-- The entries that a right operand brings below the line. -/
def sideBelow (unit : CompoundUnit K) : Operator → Side K
  | .times => unit.denominator
  | .over => unit.numerator

/-- What an operator gives if it takes no shortcut: all entries are joined, cancelled and formed. -/
def joined (operator : Operator) (left right : CompoundUnit K) : CompoundUnit K × K :=
  left.extend (right.sideAbove operator) (right.sideBelow operator)

/-- Operands that have a dimension take the general path. -/
theorem combine_eq_joined {left right : CompoundUnit K} (left_has : left.isDimensionless = false)
    (right_has : right.isDimensionless = false) (operator : Operator) :
    left.combine operator right = left.joined operator right := by
  cases operator
  · rw [combine, productWithFactor, right_has, left_has]
    rfl
  · rw [combine, quotientWithFactor, right_has]
    rfl

theorem IsFormed.hasEntries_nil {unit : CompoundUnit K} (formed : unit.IsFormed)
    (standard : unit.placeholder = .dimensionless) (empty : unit.isDimensionless = true) :
    unit.HasEntries [] [] := by
  obtain ⟨numerator_eq, denominator_eq⟩ := formed.eq_singleton empty
  rw [standard] at numerator_eq denominator_eq
  exact ⟨standard, numerator_eq, denominator_eq, .nil, .nil, by simp [Side.Apart]⟩

namespace HasEntries

variable {unit left right : CompoundUnit K} {above below : Side K}

theorem resembles [OrderedScalar K] (left_entries : left.HasEntries above below)
    (right_entries : right.HasEntries above below) : left.Resembles right := by
  refine ⟨left_entries.beq right_entries, ?_⟩
  rw [left_entries.placeholder_eq, right_entries.placeholder_eq]
  exact BaseUnit.beq_self _

theorem extend_nil (entries : unit.HasEntries above below) :
    unit.extend (Side.fill []) (Side.fill []) =
      (CompoundUnit.ofSides above below .dimensionless, 1) := by
  have above_canonical : Side.IsCanonical (above ++ []) := by
    simpa using entries.above_canonical
  have below_canonical : Side.IsCanonical (below ++ []) := by
    simpa using entries.below_canonical
  have apart : Side.Apart (above ++ []) (below ++ []) := by
    simpa using entries.apart
  rw [entries.extend_of_apart above_canonical below_canonical apart, List.append_nil,
    List.append_nil]

end HasEntries

/-! ## Agreement -/

/-- A unit without dimensions is neutral, whether or not the shortcuts for it are taken. -/
structure IsNeutralFor (plain unit : CompoundUnit K) : Prop where
  /-- The product with it is the unit itself. -/
  times_eq : unit.combine .times plain = (unit, 1)
  /-- The general path gives an interchangeable product and the same factor. -/
  times_joined : ResultsResemble (unit.combine .times plain) (unit.joined .times plain)
  /-- The quotient by it is the unit itself. -/
  over_eq : unit.combine .over plain = (unit, 1)
  /-- The general path gives an interchangeable quotient and the same factor. -/
  over_joined : ResultsResemble (unit.combine .over plain) (unit.joined .over plain)
  /-- Its product with the unit is the unit, or itself if neither has a dimension. -/
  times_unit_eq : plain.combine .times unit = (if unit.isDimensionless then plain else unit, 1)
  /-- The general path gives an interchangeable product and the same factor. -/
  times_unit_joined : ResultsResemble (plain.combine .times unit) (plain.joined .times unit)
  /-- Its quotient by the unit has the sides of the unit exchanged. -/
  over_unit_numerator : (plain.combine .over unit).1.numerator = unit.denominator
  /-- Its quotient by the unit has the sides of the unit exchanged. -/
  over_unit_denominator : (plain.combine .over unit).1.denominator = unit.numerator
  /-- Its quotient by the unit incurs no factor. -/
  over_unit_factor : (plain.combine .over unit).2 = 1

namespace HasEntries

variable {unit plain : CompoundUnit K} {above below : Side K}

theorem sideAbove_eq_fill (plain_entries : plain.HasEntries [] []) (operator : Operator) :
    plain.sideAbove operator = Side.fill [] := by
  cases operator
  · exact plain_entries.numerator_eq
  · exact plain_entries.denominator_eq

theorem sideBelow_eq_fill (plain_entries : plain.HasEntries [] []) (operator : Operator) :
    plain.sideBelow operator = Side.fill [] := by
  cases operator
  · exact plain_entries.denominator_eq
  · exact plain_entries.numerator_eq

theorem resultsResemble_ofSides [OrderedScalar K] (entries : unit.HasEntries above below) :
    ResultsResemble (unit, 1) (CompoundUnit.ofSides above below .dimensionless, 1) := by
  have formed := HasEntries.ofSides entries.above_canonical entries.below_canonical entries.apart
  exact ⟨entries.resembles formed, rfl⟩

/-- A unit without entries divided by a reduced unit has its sides exchanged. -/
theorem over_of_nil (plain_entries : plain.HasEntries [] [])
    (entries : unit.HasEntries above below) :
    (plain.combine .over unit).1.numerator = unit.denominator ∧
      (plain.combine .over unit).1.denominator = unit.numerator ∧
      (plain.combine .over unit).2 = 1 := by
  obtain ⟨quotient, quotient_eq, quotient_entries⟩ :=
    plain_entries.quotientWithFactor_of_apart entries entries.below_canonical
      entries.above_canonical fun upper upper_member lower lower_member =>
        (entries.apart lower lower_member upper upper_member).symm
  change (plain.quotientWithFactor unit).1.numerator = _ ∧
    (plain.quotientWithFactor unit).1.denominator = _ ∧ (plain.quotientWithFactor unit).2 = 1
  rw [quotient_eq, quotient_entries.numerator_eq, quotient_entries.denominator_eq,
    entries.numerator_eq, entries.denominator_eq]
  exact ⟨rfl, rfl, rfl⟩

theorem isNeutralFor [OrderedScalar K] (plain_entries : plain.HasEntries [] [])
    (entries : unit.HasEntries above below) : plain.IsNeutralFor unit := by
  have plain_empty : plain.isDimensionless = true :=
    plain_entries.isDimensionless_iff.mpr ⟨rfl, rfl⟩
  have times_eq : unit.combine .times plain = (unit, 1) := by
    rw [combine, CompoundUnit.productWithFactor, if_pos plain_empty]
  have over_eq : unit.combine .over plain = (unit, 1) := by
    rw [combine, CompoundUnit.quotientWithFactor, if_pos plain_empty]
  have times_unit_eq :
      plain.combine .times unit = (if unit.isDimensionless then plain else unit, 1) := by
    rw [combine, CompoundUnit.productWithFactor, if_pos plain_empty]
    split <;> rfl
  obtain ⟨numerator_eq, denominator_eq, factor_eq⟩ := plain_entries.over_of_nil entries
  refine ⟨times_eq, ?_, over_eq, ?_, times_unit_eq, ?_, numerator_eq, denominator_eq, factor_eq⟩
  · rw [times_eq, joined, plain_entries.sideAbove_eq_fill, plain_entries.sideBelow_eq_fill,
      entries.extend_nil]
    exact entries.resultsResemble_ofSides
  · rw [over_eq, joined, plain_entries.sideAbove_eq_fill, plain_entries.sideBelow_eq_fill,
      entries.extend_nil]
    exact entries.resultsResemble_ofSides
  · have joined_eq : plain.joined .times unit =
        (CompoundUnit.ofSides above below .dimensionless, 1) := by
      rw [joined, sideAbove, sideBelow, entries.numerator_eq, entries.denominator_eq]
      exact plain_entries.extend_of_apart entries.above_canonical entries.below_canonical
        entries.apart
    rw [times_unit_eq, joined_eq]
    split
    · -- Neither unit has a dimension, and the left operand is given back.
      rename_i empty
      obtain ⟨rfl, rfl⟩ := entries.isDimensionless_iff.mp empty
      exact plain_entries.resultsResemble_ofSides
    · exact entries.resultsResemble_ofSides

theorem combine_joined [OrderedScalar K] {left right : CompoundUnit K}
    {left_above left_below right_above right_below : Side K}
    (left_entries : left.HasEntries left_above left_below)
    (right_entries : right.HasEntries right_above right_below) (operator : Operator) :
    ResultsResemble (left.combine operator right) (left.joined operator right) := by
  cases right_empty : right.isDimensionless with
  | true =>
      obtain ⟨rfl, rfl⟩ := right_entries.isDimensionless_iff.mp right_empty
      have neutral := right_entries.isNeutralFor left_entries
      cases operator
      · exact neutral.times_joined
      · exact neutral.over_joined
  | false =>
      cases left_empty : left.isDimensionless with
      | true =>
          obtain ⟨rfl, rfl⟩ := left_entries.isDimensionless_iff.mp left_empty
          cases operator
          · exact (left_entries.isNeutralFor right_entries).times_unit_joined
          · rw [combine, CompoundUnit.quotientWithFactor, right_empty]
            exact ⟨.refl _, rfl⟩
      | false =>
          rw [combine_eq_joined left_empty right_empty]
          exact ⟨.refl _, rfl⟩

end HasEntries

/--
The shortcuts for units without dimensions agree with the general path.  Cancellation leaves reduced
sides as they are and incurs no factor, its own results among them; so a reduced unit that is joined
with a unit without dimensions is formed anew as it was, and its inverse has its sides exchanged.
-/
theorem shortcuts_agree_with_joined [OrderedScalar K] :
    (∀ above below : Side K, above.IsCanonical → below.IsCanonical → above.Apart below →
        simplify above below = ⟨above, below, 1⟩) ∧
      (∀ numerator denominator : Side K,
        simplify (simplify numerator denominator).numerator
            (simplify numerator denominator).denominator =
          ⟨(simplify numerator denominator).numerator, (simplify numerator denominator).denominator,
            1⟩) ∧
      ∀ unit plain : CompoundUnit K, unit.IsReduced → plain.IsFormed →
        plain.placeholder = unit.placeholder → plain.isDimensionless = true →
          plain.IsNeutralFor unit := by
  refine ⟨fun _ _ => simplify_of_apart, simplify_simplify, ?_⟩
  rintro unit plain ⟨above, below, entries⟩ formed same_placeholder empty
  have standard := same_placeholder.trans entries.placeholder_eq
  exact (formed.hasEntries_nil standard empty).isNeutralFor entries

/-- Two lengths over a time. -/
private def plotSpeed : CompoundUnit Float :=
  .ofSides [⟨"rope", "[length]", "meter", 6.096, by decide⟩,
      ⟨"step", "[length]", "meter", 0.762, by decide⟩]
    [⟨"quarter", "[time]", "second", 900, by decide⟩] .dimensionless

/-- A unit without dimensions under a name. -/
private def plainCount : CompoundUnit Float :=
  (CompoundUnit.ofSides [] [.dimensionlessAs "each"] .dimensionless).withLabel "count"

/-- A count is neutral for two lengths over a time, and for itself. -/
theorem plainCount_shortcuts_agree :
    plainCount.IsNeutralFor plotSpeed ∧ plainCount.IsNeutralFor plainCount := by
  have formed : plainCount.IsFormed := (ofSides_isFormed _ _ _).withLabel _
  have speed_reduced : plotSpeed.IsReduced :=
    ⟨_, _, HasEntries.ofSides_canonical (by unfold Side.Apart; decide +kernel)⟩
  have count_reduced : plainCount.IsReduced :=
    ⟨_, _, formed.hasEntries_nil rfl (by decide +kernel)⟩
  obtain ⟨-, -, neutral⟩ := shortcuts_agree_with_joined (K := Float)
  exact ⟨neutral _ _ speed_reduced formed rfl (by decide +kernel),
    neutral _ _ count_reduced formed rfl (by decide +kernel)⟩

end CompoundUnit
end UnitAlgebra
