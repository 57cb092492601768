import UnitAlgebra.Proofs.Commutation
import UnitAlgebra.Proofs.Elements

/-!
# Bare units as quantities

A bare unit acts as a quantity of magnitude one wherever a quantity beside it takes up the factor
that cancelling incurs.  Two bare units drop that factor, so they act as quantities exactly if it is
one.
-/

namespace UnitAlgebra

/-- Scalars whose factors may change places and that division by one does not change. -/
class UnitalScalar (K : Type) [Scalar K] : Prop extends OrderedScalar K where
  /-- The factors of a product may change places. -/
  mul_comm (left right : K) : left * right = right * left
  /-- One is a neutral divisor. -/
  div_one (value : K) : value / 1 = value

instance : UnitalScalar Float where
  mul_comm := Binary64.mul_comm_eq
  div_one := Binary64.div_one_eq

instance : UnitalScalar Rat where
  mul_comm := Rat.mul_comm
  div_one := div_one

variable {K : Type} [Scalar K] [UnitalScalar K]

theorem UnitalScalar.one_mul (value : K) : 1 * value = value := by
  rw [UnitalScalar.mul_comm, LawfulScalar.mul_one]

/-! ## Magnitudes -/

theorem Operator.apply_one (operator : Operator) (value : K) :
    operator.operation.apply value 1 = value := by
  cases operator
  · exact LawfulScalar.mul_one value
  · exact UnitalScalar.div_one value

namespace Magnitude

theorem combine_one (operator : Operator) (magnitude : Magnitude K) :
    magnitude.combine operator.operation (.scalar 1) = .ok magnitude := by
  cases magnitude with
  | scalar value => rw [combine, operator.apply_one]
  | list values => simp only [combine, operator.apply_one, List.map_id']

theorem one_multiply (magnitude : Magnitude K) : (scalar 1).multiply magnitude = .ok magnitude := by
  rw [multiply_comm UnitalScalar.mul_comm]
  exact combine_one .times magnitude

end Magnitude

/-! ## Quantities -/

namespace Quantity

/-- A quantity of magnitude one leaves the magnitude beside it as it is, up to the factor. -/
theorem combine_ofNumber_one (operator : Operator) (quantity : Quantity K)
    (unit : CompoundUnit K) :
    combine operator.operation quantity (ofNumber 1 unit) =
      .ok (scaled quantity.magnitude (quantity.unit.combine operator unit)) := by
  have combine_eq : combine operator.operation quantity (ofNumber 1 unit) =
      combineScaled operator.operation (CompoundUnit.combine operator) quantity
        (ofNumber 1 unit) := by
    cases operator <;> rfl
  rw [combine_eq, combineScaled, ofNumber, Magnitude.combine_one]
  rfl

theorem ofNumber_one_multiply (unit : CompoundUnit K) (quantity : Quantity K) :
    (ofNumber 1 unit).multiply quantity =
      .ok (scaled quantity.magnitude (unit.productWithFactor quantity.unit)) := by
  rw [multiply, ofNumber, Magnitude.one_multiply]
  rfl

end Quantity

/-! ## Values -/

namespace Value

/--
An operator on two values gives, as a quantity, what it gives on the values as quantities: the same
magnitude in equal units, or the same error.
-/
def CombinesAsQuantity (operator : Operator) (left right : Value K) : Prop :=
  Outcome.Agree (fun value quantity => value.toQuantity.Matches quantity)
    (left.combine operator right)
    (Quantity.combine operator.operation left.toQuantity right.toQuantity)

theorem agree_measured (outcome : Except UnitError (Quantity K)) :
    Outcome.Agree (fun value quantity => (toQuantity value).Matches quantity)
      (do return .measured (← outcome)) outcome := by
  cases outcome with
  | error failure => exact .error failure
  | ok quantity => exact .ok ⟨rfl, CompoundUnit.beq_self _⟩

theorem combinesAsQuantity_measured (operator : Operator) (left right : Quantity K) :
    CombinesAsQuantity operator (.measured left) (.measured right) := by
  cases operator <;> exact agree_measured _

theorem combinesAsQuantity_bare_right (operator : Operator) (left : Quantity K)
    (right : CompoundUnit K) : CombinesAsQuantity operator (.measured left) (.bare right) := by
  rw [CombinesAsQuantity, toQuantity, toQuantity, Quantity.combine_ofNumber_one]
  cases operator <;> exact .ok ⟨rfl, CompoundUnit.beq_self _⟩

/-- A bare unit on the left changes sides in a product, and is made a quantity in a quotient. -/
theorem combinesAsQuantity_bare_left (operator : Operator) {left : CompoundUnit K}
    {right : Quantity K} (left_formed : left.IsFormed) (right_formed : right.unit.IsFormed)
    (same_placeholder : (right.unit.placeholder == left.placeholder) = true) :
    CombinesAsQuantity operator (.bare left) (.measured right) := by
  cases operator
  · obtain ⟨unit_beq, factor_eq⟩ :=
      CompoundUnit.productWithFactor_comm right_formed left_formed same_placeholder
    change Outcome.Agree _ (.ok (Value.measured (right.multiplyUnit left)))
      ((Quantity.ofNumber 1 left).multiply right)
    rw [Quantity.ofNumber_one_multiply]
    exact .ok ⟨congrArg right.magnitude.scale factor_eq, unit_beq⟩
  · exact agree_measured _

/-- Two bare units drop the factor that a quantity of magnitude one would take up. -/
theorem combinesAsQuantity_bare_iff (operator : Operator) (left right : CompoundUnit K) :
    CombinesAsQuantity operator (.bare left) (.bare right) ↔
      (left.combine operator right).2 = 1 := by
  have combined : (Value.bare left).combine operator (.bare right) =
      .ok (.bare (left.combine operator right).1) := by
    cases operator <;> rfl
  rw [CombinesAsQuantity, combined, toQuantity, toQuantity, Quantity.combine_ofNumber_one]
  constructor
  · intro agree
    cases agree with
    | ok same =>
        have number_eq : (1 : K) = 1 * (left.combine operator right).2 :=
          Magnitude.scalar.inj same.magnitude_eq
        rw [number_eq, UnitalScalar.one_mul]
  · intro factor_eq
    have magnitude_eq :
        Magnitude.scalar (1 : K) = .scalar (1 * (left.combine operator right).2) := by
      rw [factor_eq, UnitalScalar.one_mul]
    exact .ok ⟨magnitude_eq, CompoundUnit.beq_self _⟩

/-! ## Units and quantities -/

/--
A bare unit acts as a quantity of magnitude one.  Beside a quantity it gives the same quantity, and
values combine as their quantities do unless both are bare; two bare units combine as quantities
exactly if no factor is incurred.
-/
theorem bare_unit_acts_as_one :
    (∀ (quantity : Quantity K) (unit : CompoundUnit K),
        quantity.multiply (.ofNumber 1 unit) = .ok (quantity.multiplyUnit unit) ∧
          quantity.divide (.ofNumber 1 unit) = .ok (quantity.divideUnit unit)) ∧
      (∀ (operator : Operator) {left right : Value K},
        left.unitOf.IsFormed → right.unitOf.IsFormed →
        (left.unitOf.placeholder == right.unitOf.placeholder) = true →
        left.asUnit? = none ∨ right.asUnit? = none → CombinesAsQuantity operator left right) ∧
      ∀ (operator : Operator) (left right : CompoundUnit K),
        CombinesAsQuantity operator (.bare left) (.bare right) ↔
          (left.combine operator right).2 = 1 := by
  refine ⟨fun quantity unit => ⟨?_, ?_⟩, ?_, combinesAsQuantity_bare_iff⟩
  · exact Quantity.combine_ofNumber_one .times quantity unit
  · exact Quantity.combine_ofNumber_one .over quantity unit
  · intro operator left right left_formed right_formed same_placeholder not_both
    cases left with
    | measured left =>
        cases right with
        | measured right => exact combinesAsQuantity_measured operator left right
        | bare right => exact combinesAsQuantity_bare_right operator left right
    | bare left =>
        cases right with
        | measured right =>
            have placeholder_eq := BaseUnit.beq_iff.mp same_placeholder
            exact combinesAsQuantity_bare_left operator left_formed right_formed
              (BaseUnit.beq_iff.mpr placeholder_eq.symm)
        | bare right => rcases not_both with left_not | right_not <;> contradiction

private def chain : CompoundUnit Float :=
  .ofSides [.ofMeters "chain" 20.1168 (by decide)] [] .dimensionless

private def furlong : CompoundUnit Float :=
  .ofSides [.ofMeters "furlong" 201.168 (by decide)] [] .dimensionless

private def furlongByWeek : CompoundUnit Float :=
  .ofSides [.ofMeters "furlong" 201.168 (by decide)]
    [⟨"week", "[time]", "second", 604800, by decide⟩] .dimensionless

/-- A chain over speeds takes up a factor in them, and over a bare furlong it drops one. -/
theorem chain_acts_as_one :
    (Quantity.mk (.list [2, 3]) furlongByWeek).divide (.ofNumber 1 chain) =
        .ok ((Quantity.mk (.list [2, 3]) furlongByWeek).divideUnit chain) ∧
      CombinesAsQuantity .over (.bare chain) (.measured ⟨.list [2, 3], furlongByWeek⟩) ∧
      ¬CombinesAsQuantity .over (.bare chain) (.bare furlong) ∧
      CombinesAsQuantity .times (.bare chain) (.bare furlongByWeek) := by
  obtain ⟨quantities, values, bare_iff⟩ := bare_unit_acts_as_one (K := Float)
  refine ⟨?_, ?_, ?_, ?_⟩
  · exact (quantities _ _).2
  · exact values .over (CompoundUnit.ofSides_isFormed _ _ _) (CompoundUnit.ofSides_isFormed _ _ _)
      (by decide) (.inr rfl)
  · rw [bare_iff]
    decide +kernel
  · rw [bare_iff]
    decide +kernel

end Value
end UnitAlgebra
