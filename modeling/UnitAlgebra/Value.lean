import UnitAlgebra.Quantity.Comparison

/-!
# Values

A name or an expression denotes a value: a bare unit, such as `kWh / mile`, or a quantity, such as
`4 kWh / mile`.  Beside a quantity a bare unit counts as a quantity of magnitude one.
-/

namespace UnitAlgebra

/-- A bare unit or a quantity. -/
inductive Value (K : Type) [Scalar K] where
  /-- A bare unit. -/
  | bare (unit : CompoundUnit K)
  /-- A quantity. -/
  | measured (quantity : Quantity K)

namespace Value

variable {K : Type} [Scalar K]

/-- The unit of a value, whichever form it has. -/
def unitOf : Value K → CompoundUnit K
  | .bare unit => unit
  | .measured quantity => quantity.unit

/-- The bare unit that a value is, if it is one. -/
def asUnit? : Value K → Option (CompoundUnit K)
  | .bare unit => some unit
  | .measured _ => none

/-- The quantity that a value is, if it is one. -/
def asQuantity? : Value K → Option (Quantity K)
  | .bare _ => none
  | .measured quantity => some quantity

/-- The bare unit that a value has to be. -/
def toUnit : Value K → Except UnitError (CompoundUnit K)
  | .bare unit => .ok unit
  | .measured quantity => .error (.invalidConstruction (.unitExpected quantity.display))

/-- A value as a quantity; a bare unit has magnitude one. -/
def toQuantity : Value K → Quantity K
  | .bare unit => .ofNumber 1 unit
  | .measured quantity => quantity

/-- The product of two values. -/
def multiply : Value K → Value K → Except UnitError (Value K)
  | .bare left, .bare right => .ok (.bare (left.multiply right))
  | .measured left, .bare right => .ok (.measured (left.multiplyUnit right))
  | .bare left, .measured right => .ok (.measured (right.multiplyUnit left))
  | .measured left, .measured right => do return .measured (← left.multiply right)

/-- The quotient of two values. -/
def divide : Value K → Value K → Except UnitError (Value K)
  | .bare left, .bare right => .ok (.bare (left.divide right))
  | .measured left, .bare right => .ok (.measured (left.divideUnit right))
  | .bare left, .measured right => do return .measured (← (Quantity.ofNumber 1 left).divide right)
  | .measured left, .measured right => do return .measured (← left.divide right)

/-- The result of an operator on two values. -/
def combine (operator : Operator) (left right : Value K) : Except UnitError (Value K) :=
  match operator with
  | .times => left.multiply right
  | .over => left.divide right

/-- Equality of values of one form. -/
def equals : Value K → Value K → Bool
  | .bare left, .bare right => left == right
  | .measured left, .measured right => left.equals right
  | _, _ => false

instance : BEq (Value K) := ⟨equals⟩

/-- A value as it is shown to a reader. -/
def display : Value K → String
  | .bare unit => unit.name
  | .measured quantity => quantity.display

end Value
end UnitAlgebra
