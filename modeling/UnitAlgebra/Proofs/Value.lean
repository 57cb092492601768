import UnitAlgebra.Proofs.Outcome
import UnitAlgebra.Proofs.Scalar
import UnitAlgebra.Value

/-!
# Single values

A value is single if it is a bare unit or a quantity of one number.  The values of names and numbers
are single, products and quotients of single values are single, and none of them fails.  The unit of
a product or quotient is that of the units.
-/

namespace UnitAlgebra
namespace Value

variable {K : Type} [Scalar K]

/-- A bare unit or a quantity of one number. -/
inductive IsSingle : Value K → Prop where
  /-- A bare unit. -/
  | bare (unit : CompoundUnit K) : IsSingle (.bare unit)
  /-- A quantity of one number. -/
  | measured (number : K) (unit : CompoundUnit K) : IsSingle (.measured (.ofNumber number unit))

theorem IsSingle.combine {left right : Value K} (left_single : left.IsSingle)
    (right_single : right.IsSingle) (operator : Operator) :
    ∃ value, left.combine operator right = .ok value ∧ value.IsSingle := by
  cases operator <;> cases left_single <;> cases right_single
  case times.bare.bare => exact ⟨_, rfl, .bare _⟩
  case over.bare.bare => exact ⟨_, rfl, .bare _⟩
  all_goals exact ⟨_, rfl, .measured _ _⟩

/-- The unit of a value that operands are combined to; a quantity may change sides in a product. -/
theorem unitOf_combine {left right value : Value K} {operator : Operator}
    (combined : left.combine operator right = .ok value) :
    value.unitOf = (left.unitOf.combine operator right.unitOf).1 ∨
      value.unitOf = (right.unitOf.combine operator left.unitOf).1 := by
  cases left with
  | bare left =>
      cases right with
      | bare right =>
          cases operator <;> obtain rfl := Except.ok.inj combined <;> exact .inl rfl
      | measured right =>
          cases operator
          · obtain rfl := Except.ok.inj combined
            exact .inr rfl
          · obtain ⟨quotient, divided, value_eq⟩ := Outcome.exists_of_bind_eq_ok combined
            obtain rfl := Except.ok.inj value_eq
            obtain ⟨magnitude, -, quotient_eq⟩ := Outcome.exists_of_bind_eq_ok divided
            obtain rfl := Except.ok.inj quotient_eq
            exact .inl rfl
  | measured left =>
      cases right with
      | bare right =>
          cases operator <;> obtain rfl := Except.ok.inj combined <;> exact .inl rfl
      | measured right =>
          cases operator <;>
          · obtain ⟨result, given, value_eq⟩ := Outcome.exists_of_bind_eq_ok combined
            obtain rfl := Except.ok.inj value_eq
            obtain ⟨magnitude, -, result_eq⟩ := Outcome.exists_of_bind_eq_ok given
            obtain rfl := Except.ok.inj result_eq
            exact .inl rfl

/-! ## Numbers beside units -/

/-- A bare unit, or a quantity of a number in the unit. -/
def ofParts : Option K → CompoundUnit K → Value K
  | none, unit => .bare unit
  | some number, unit => .measured (.ofNumber number unit)

theorem combine_bare [LawfulScalar K] {operator : Operator} {left right unit : CompoundUnit K}
    (combined : left.combine operator right = (unit, 1)) (number? : Option K) :
    (ofParts number? left).combine operator (.bare right) = .ok (ofParts number? unit) := by
  have scaled_eq : ∀ number : K,
      Quantity.scaled (.scalar number) (unit, 1) = .ofNumber number unit :=
    fun number => congrArg (fun product => Quantity.ofNumber product unit)
      (LawfulScalar.mul_one number)
  cases number? with
  | none =>
      have bare : (Value.bare left).combine operator (.bare right) =
          .ok (.bare (left.combine operator right).1) := by
        cases operator <;> rfl
      rw [ofParts, bare, combined]
      rfl
  | some number =>
      have measured : (Value.measured (.ofNumber number left)).combine operator (.bare right) =
          .ok (.measured (.scaled (.scalar number) (left.combine operator right))) := by
        cases operator <;> rfl
      rw [ofParts, measured, combined, scaled_eq]
      rfl

end Value
end UnitAlgebra
