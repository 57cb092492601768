import UnitAlgebra.BaseUnit
import UnitAlgebra.Proofs.Binary64.Parts
import UnitAlgebra.Scalar

/-!
# Laws of scalars

What the algebra of units needs of its scalars beyond their operations: an order that is turned
around with its arguments, and one as a neutral factor.  Doubles obey both laws.
-/

namespace UnitAlgebra

/-- Scalars whose order is turned around with its arguments and that one does not change. -/
class LawfulScalar (K : Type) [Scalar K] : Prop where
  /-- The order of two scalars is turned around with them. -/
  order_swap (left right : K) : Scalar.order right left = (Scalar.order left right).swap
  /-- One is a neutral factor. -/
  mul_one (value : K) : value * 1 = value

instance : LawfulScalar Float where
  order_swap left right := by
    change compare right.toBits left.toBits = (compare left.toBits right.toBits).swap
    exact Std.OrientedCmp.eq_swap
  mul_one := Binary64.mul_one_eq

theorem eq_of_eq_swap {order : Ordering} (turned : order = order.swap) : order = .eq := by
  cases order with
  | lt => cases turned
  | eq => rfl
  | gt => cases turned

namespace BaseUnit

variable {K : Type} [Scalar K] [LawfulScalar K]

theorem order_swap (left right : BaseUnit K) : right.order left = (left.order right).swap := by
  have dimension_swap : compare right.dimension left.dimension =
      (compare left.dimension right.dimension).swap := Std.OrientedCmp.eq_swap
  have reference_swap : compare right.reference left.reference =
      (compare left.reference right.reference).swap := Std.OrientedCmp.eq_swap
  rw [order, order, dimension_swap, reference_swap,
    LawfulScalar.order_swap left.multiplier right.multiplier, Ordering.swap_then,
    Ordering.swap_then]

/-- Of two base units one does not come after the other. -/
theorem isLE_of_not_isLE {left right : BaseUnit K} (after : ¬(left.order right).isLE = true) :
    (right.order left).isLE = true := by
  rw [order_swap]
  cases order_eq : left.order right with
  | lt => simp [order_eq] at after
  | eq => simp [order_eq] at after
  | gt => rfl

theorem beq_self (unit : BaseUnit K) : (unit == unit) = true := by
  have multiplier_eq : Scalar.order unit.multiplier unit.multiplier = .eq :=
    eq_of_eq_swap (LawfulScalar.order_swap _ _)
  change (unit.dimension == unit.dimension && unit.reference == unit.reference &&
    Scalar.order unit.multiplier unit.multiplier == .eq) = true
  rw [multiplier_eq, beq_self_eq_true, beq_self_eq_true]
  rfl

instance : ReflBEq (BaseUnit K) :=
  ⟨beq_self _⟩

end BaseUnit
end UnitAlgebra
