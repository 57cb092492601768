import Mathlib.Data.List.Chain
import UnitAlgebra.Proofs.CanonicalSide
import UnitAlgebra.Scalar

/-!
# The canonical order

Base units are ordered by their dimension, their reference unit and their multiplier.  The order is
total and transitive, and two base units stand at one place exactly if they are equal; their names
play no part.  A canonical side is therefore sorted as a whole, and so are its dimensions.
-/

namespace UnitAlgebra

/-- Scalars whose order is transitive and tells different scalars apart. -/
class OrderedScalar (K : Type) [Scalar K] : Prop extends LawfulScalar K where
  /-- The first of three scalars in order does not come after the last. -/
  isLE_trans {first second third : K} :
    (Scalar.order first second).isLE = true → (Scalar.order second third).isLE = true →
      (Scalar.order first third).isLE = true
  /-- No two scalars stand at one place. -/
  eq_of_order_eq {left right : K} : Scalar.order left right = .eq → left = right

instance : OrderedScalar Float where
  isLE_trans {first second third} first_before second_before := by
    change (compare first.toBits third.toBits).isLE = true
    exact Std.TransOrd.isLE_trans first_before second_before
  eq_of_order_eq same_place :=
    Binary64.eq_of_toNat_toBits
      (congrArg UInt64.toNat (Std.LawfulEqOrd.eq_of_compare same_place))

theorem ratOrder_isLE {left right : Rat} : (ratOrder left right).isLE = true ↔ left ≤ right := by
  rw [ratOrder]
  split
  · rename_i less
    simpa using less.le
  · rename_i not_less
    split
    · rename_i same
      simp [same]
    · rename_i different
      have less : right < left := lt_of_le_of_ne (not_lt.mp not_less) (Ne.symm different)
      simpa using less

theorem eq_of_ratOrder_eq {left right : Rat} (equal : ratOrder left right = .eq) :
    left = right := by
  rw [ratOrder] at equal
  split at equal
  · cases equal
  · split at equal
    · assumption
    · cases equal

instance : OrderedScalar Rat where
  order_swap left right := by
    change ratOrder right left = (ratOrder left right).swap
    rcases lt_trichotomy left right with less | same | greater
    · simp [ratOrder, less, less.le.not_gt, less.ne']
    · simp [ratOrder, same]
    · simp [ratOrder, greater, greater.le.not_gt, greater.ne']
  mul_one := Rat.mul_one
  isLE_trans first_before second_before :=
    ratOrder_isLE.mpr ((ratOrder_isLE.mp first_before).trans (ratOrder_isLE.mp second_before))
  eq_of_order_eq := eq_of_ratOrder_eq

variable {K : Type} [Scalar K]

/-! ## Base units -/

namespace BaseUnit

/-- A base unit without its name. -/
def unnamed (unit : BaseUnit K) : BaseUnit K :=
  { unit with name := "" }

@[simp]
theorem unnamed_unnamed (unit : BaseUnit K) : unit.unnamed.unnamed = unit.unnamed := rfl

@[simp]
theorem dimension_unnamed (unit : BaseUnit K) : unit.unnamed.dimension = unit.dimension := rfl

@[simp]
theorem multiplier_unnamed (unit : BaseUnit K) : unit.unnamed.multiplier = unit.multiplier := rfl

@[simp]
theorem isDimensionless_unnamed (unit : BaseUnit K) :
    unit.unnamed.isDimensionless = unit.isDimensionless := rfl

@[simp]
theorem order_unnamed (left right : BaseUnit K) :
    left.unnamed.order right.unnamed = left.order right := rfl

variable [OrderedScalar K]

/-- Base units at one place of the order are equal up to their names, and only those. -/
theorem order_eq_iff {left right : BaseUnit K} :
    left.order right = .eq ↔ left.unnamed = right.unnamed := by
  constructor
  · intro same_place
    obtain ⟨name, dimension, reference, multiplier, _⟩ := left
    obtain ⟨name', dimension', reference', multiplier', _⟩ := right
    simp only [order, Ordering.then_eq_eq] at same_place
    obtain ⟨⟨dimension_eq, reference_eq⟩, multiplier_eq⟩ := same_place
    obtain rfl := Std.LawfulEqOrd.eq_of_compare dimension_eq
    obtain rfl := Std.LawfulEqOrd.eq_of_compare reference_eq
    obtain rfl := OrderedScalar.eq_of_order_eq multiplier_eq
    rfl
  · intro same
    rw [← order_unnamed, same]
    exact eq_of_eq_swap (order_swap _ _)

theorem beq_iff {left right : BaseUnit K} :
    (left == right) = true ↔ left.unnamed = right.unnamed := by
  rw [← order_eq_iff]
  change equals left right = true ↔ _
  simp [equals, order, Ordering.then_eq_eq]

instance : Std.TransCmp fun left right : BaseUnit K =>
    Scalar.order left.multiplier right.multiplier where
  eq_swap := LawfulScalar.order_swap _ _
  isLE_trans := OrderedScalar.isLE_trans

instance : Std.TransCmp (order : BaseUnit K → BaseUnit K → Ordering) :=
  inferInstanceAs (Std.TransCmp (compareLex
    (compareLex (compareOn BaseUnit.dimension) (compareOn BaseUnit.reference))
    fun left right : BaseUnit K => Scalar.order left.multiplier right.multiplier))

/-- Base units that do not come after each other are equal up to their names. -/
theorem unnamed_eq_of_isLE {left right : BaseUnit K} (left_first : (left.order right).isLE = true)
    (right_first : (right.order left).isLE = true) : left.unnamed = right.unnamed :=
  order_eq_iff.mp (Std.OrientedCmp.isLE_antisymm left_first right_first)

end BaseUnit

/-! ## Sides -/

namespace Side

theorem pairwise_of_isChain [OrderedScalar K] {side : Side K}
    (sorted : side.IsChain fun left right => (left.order right).isLE = true) :
    side.Pairwise fun left right => (left.order right).isLE = true :=
  have : Trans (fun left right : BaseUnit K => (left.order right).isLE = true)
      (fun left right => (left.order right).isLE = true)
      (fun left right => (left.order right).isLE = true) := ⟨Std.TransCmp.isLE_trans⟩
  List.isChain_iff_pairwise.mp sorted

theorem IsCanonical.sublist [OrderedScalar K] {side part : Side K} (canonical : IsCanonical side)
    (part_sublist : part.Sublist side) : IsCanonical part where
  sorted := ((pairwise_of_isChain canonical.sorted).sublist part_sublist).isChain
  have_dimension entry member := canonical.have_dimension entry (part_sublist.subset member)

theorem isLE_dimension {left right : BaseUnit K} (before : (left.order right).isLE = true) :
    (compare left.dimension right.dimension).isLE = true := by
  rw [BaseUnit.order] at before
  cases dimension_order : compare left.dimension right.dimension with
  | lt => rfl
  | eq => rfl
  | gt => simp [dimension_order] at before

theorem IsCanonical.pairwise_tags {side : Side K} (canonical : IsCanonical side) :
    (tags side).Pairwise fun left right => (compare left right).isLE = true := by
  have : Trans (fun left right : String => (compare left right).isLE = true)
      (fun left right => (compare left right).isLE = true)
      (fun left right => (compare left right).isLE = true) := ⟨Std.TransCmp.isLE_trans⟩
  apply List.isChain_iff_pairwise.mp
  rw [tags, List.isChain_map]
  exact canonical.sorted.imp fun _ _ before => isLE_dimension before

end Side
end UnitAlgebra
