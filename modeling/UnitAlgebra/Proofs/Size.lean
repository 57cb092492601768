import Mathlib.Algebra.BigOperators.Group.List.Basic
import Mathlib.Algebra.Order.Field.Rat
import UnitAlgebra.Proofs.Cancellation
import UnitAlgebra.Scalar

/-!
# Sizes of units

Over the rationals a unit has a size: the product of the multipliers above its line divided by the
product of those below.  Cancellation keeps the ratio of the two products up to the factor that it
reports, so products and quotients of units keep the size up to that factor.
-/

namespace UnitAlgebra

theorem BaseUnit.multiplier_pos (unit : BaseUnit Rat) : 0 < unit.multiplier :=
  of_decide_eq_true unit.isMultiplier

theorem BaseUnit.multiplier_dimensionless :
    (BaseUnit.dimensionless : BaseUnit Rat).multiplier = 1 := rfl

/-- A base unit of a whole number of reference units, which is at least one. -/
def BaseUnit.ofCount (dimension reference name : String) (count : Nat) : BaseUnit Rat :=
  ⟨name, dimensionTag dimension, reference, (max 1 count : Nat),
    decide_eq_true (Nat.cast_pos.mpr (lt_max_of_lt_left Nat.one_pos))⟩

/-- A length of a given size in meters, as a double. -/
def BaseUnit.ofMeters (name : String) (meters : Float)
    (isMultiplier : Scalar.isMultiplier meters = true) : BaseUnit Float :=
  ⟨name, dimensionTag "length", "meter", meters, isMultiplier⟩

namespace Side

/-- The product of all multipliers of a side. -/
def size (side : Side Rat) : Rat :=
  (side.map BaseUnit.multiplier).prod

theorem size_dimensionless : size [.dimensionless] = 1 := by
  rw [size, List.map_singleton, List.prod_singleton, BaseUnit.multiplier_dimensionless]

@[simp]
theorem size_nil : size [] = 1 := rfl

@[simp]
theorem size_cons (unit : BaseUnit Rat) (side : Side Rat) :
    size (unit :: side) = unit.multiplier * size side := by
  simp [size]

theorem size_append (left right : Side Rat) : size (left ++ right) = size left * size right := by
  simp [size]

theorem size_perm {left right : Side Rat} (permuted : left.Perm right) : size left = size right :=
  (permuted.map BaseUnit.multiplier).prod_eq

theorem size_pos (side : Side Rat) : 0 < size side := by
  induction side with
  | nil => simp
  | cons head tail induction =>
      rw [size_cons]
      exact mul_pos head.multiplier_pos induction

theorem size_canonical (side : Side Rat) : size (canonical side) = size (dimensional side) :=
  size_perm (canonical_perm side)

/-- The placeholder has the multiplier one, so dropping it does not change the size. -/
theorem IsFilled.size_dimensional {side : Side Rat} (filled : IsFilled .dimensionless side) :
    size (dimensional side) = size side := by
  cases filled with
  | placeholder => rw [size_dimensionless, dimensional_eq_nil (by decide), size_nil]
  | entries _ have_dimension => rw [dimensional_eq_self have_dimension]

theorem IsFilled.size_eq_one {side : Side Rat} (filled : IsFilled .dimensionless side)
    (empty : isPlaceholder side = true) : size side = 1 := by
  rw [← filled.size_dimensional, dimensional_eq_nil empty, size_nil]

theorem size_normalize (side : Side Rat) :
    size (normalize .dimensionless side) = size (dimensional side) := by
  rw [← size_canonical, normalize]
  split
  · rename_i canonical_eq
    rw [canonical_eq, size_dimensionless, size_nil]
  · rename_i canonical_eq
    rw [canonical_eq]

end Side

namespace Cancellation

/-- The ratios of removed pairs multiply to the ratio of the sizes of what is removed. -/
theorem foldl_ratio (pairs : List (BaseUnit Rat × BaseUnit Rat)) (factor : Rat) :
    pairs.foldl (fun factor pair => factor * (pair.1.multiplier / pair.2.multiplier)) factor =
      factor * (Side.size (pairs.map Prod.fst) / Side.size (pairs.map Prod.snd)) := by
  induction pairs generalizing factor with
  | nil => simp
  | cons pair pairs induction =>
      rw [List.foldl_cons, induction, List.map_cons, List.map_cons, Side.size_cons, Side.size_cons,
        mul_div_mul_comm, mul_assoc]

/-- Cancelling keeps the ratio of the two sides up to the factor that it collects. -/
theorem run_size (numerator : Side Rat) (factor : Rat) (denominator : Side Rat) :
    (run numerator factor denominator).factor *
        (Side.size (run numerator factor denominator).numerator /
          Side.size (run numerator factor denominator).denominator) =
      factor * (Side.size numerator / Side.size denominator) := by
  obtain ⟨pairs, removes⟩ := exists_run_removes numerator factor denominator
  have factor_eq := removes.factor_eq.trans (foldl_ratio pairs factor)
  rw [Side.size_perm removes.numerator_perm, Side.size_perm removes.denominator_perm,
    Side.size_append, Side.size_append, mul_div_mul_comm, factor_eq, mul_assoc]

end Cancellation

theorem simplify_size (numerator denominator : Side Rat) :
    (simplify numerator denominator).factor *
        (Side.size (simplify numerator denominator).numerator /
          Side.size (simplify numerator denominator).denominator) =
      Side.size (Side.dimensional numerator) / Side.size (Side.dimensional denominator) := by
  rw [simplify_eq_run, Cancellation.run_size, Side.size_canonical, Side.size_canonical]
  exact one_mul _

theorem simplify_dimensional (numerator denominator : Side Rat) :
    Side.dimensional (simplify numerator denominator).numerator =
        (simplify numerator denominator).numerator ∧
      Side.dimensional (simplify numerator denominator).denominator =
        (simplify numerator denominator).denominator := by
  rw [simplify_eq_run]
  constructor
  · refine Side.dimensional_eq_self fun entry member => ?_
    exact (Side.mem_canonical.mp ((Cancellation.run_numerator_subperm _ _ _).subset member)).2
  · refine Side.dimensional_eq_self fun entry member => ?_
    exact (Side.mem_canonical.mp ((Cancellation.run_denominator_sublist _ _ _).subset member)).2

namespace CompoundUnit

/-- How many units of multiplier one a unit is. -/
def size (unit : CompoundUnit Rat) : Rat :=
  Side.size unit.numerator / Side.size unit.denominator

theorem size_pos (unit : CompoundUnit Rat) : 0 < unit.size :=
  div_pos (Side.size_pos _) (Side.size_pos _)

theorem IsStandard.size_eq_one {unit : CompoundUnit Rat} (standard : unit.IsStandard)
    (empty : unit.isDimensionless = true) : unit.size = 1 := by
  obtain ⟨numerator_empty, denominator_empty⟩ := Bool.and_eq_true_iff.mp empty
  rw [size, standard.numerator.size_eq_one numerator_empty,
    standard.denominator.size_eq_one denominator_empty, div_one]

/-- Further entries multiply the size, up to the factor that cancelling incurs. -/
theorem IsStandard.size_extend {unit : CompoundUnit Rat} (standard : unit.IsStandard)
    {above below : Side Rat} (above_filled : Side.IsFilled .dimensionless above)
    (below_filled : Side.IsFilled .dimensionless below) :
    (unit.extend above below).2 * (unit.extend above below).1.size =
      unit.size * (Side.size above / Side.size below) := by
  have reduced := simplify_dimensional (unit.numerator ++ above) (unit.denominator ++ below)
  simp only [CompoundUnit.extend, size, ofSides, standard.placeholder_eq]
  rw [Side.size_normalize, Side.size_normalize, reduced.1, reduced.2, simplify_size,
    Side.dimensional_append, Side.dimensional_append, Side.size_append, Side.size_append,
    standard.numerator.size_dimensional, standard.denominator.size_dimensional,
    above_filled.size_dimensional, below_filled.size_dimensional, mul_div_mul_comm]

theorem IsStandard.size_productWithFactor {left right : CompoundUnit Rat}
    (left_standard : left.IsStandard) (right_standard : right.IsStandard) :
    (left.productWithFactor right).2 * (left.productWithFactor right).1.size =
      left.size * right.size := by
  rw [CompoundUnit.productWithFactor]
  split
  · rw [right_standard.size_eq_one ‹_›, mul_one]
    exact one_mul _
  · split
    · rw [left_standard.size_eq_one ‹_›]
    · exact left_standard.size_extend right_standard.numerator right_standard.denominator

theorem IsStandard.size_quotientWithFactor {left right : CompoundUnit Rat}
    (left_standard : left.IsStandard) (right_standard : right.IsStandard) :
    (left.quotientWithFactor right).2 * (left.quotientWithFactor right).1.size =
      left.size / right.size := by
  rw [CompoundUnit.quotientWithFactor]
  split
  · rw [right_standard.size_eq_one ‹_›, div_one]
    exact one_mul _
  · rw [left_standard.size_extend right_standard.denominator right_standard.numerator, size, size,
      div_div_eq_mul_div, mul_div_assoc]

end CompoundUnit
end UnitAlgebra
