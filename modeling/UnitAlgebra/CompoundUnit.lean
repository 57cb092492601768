import UnitAlgebra.Cancellation

/-!
# Compound units

A compound unit is a quotient of two products of base units.  Both sides are in canonical form, and
a side without dimensions holds a placeholder.  Products and quotients cancel shared dimensions and
report the factor that the cancellation incurs; bare units have no place to keep that factor.
-/

namespace UnitAlgebra

/-- A quotient of two products of base units. -/
structure CompoundUnit (K : Type) [Scalar K] where
  /-- Entries above the line, in canonical order. -/
  numerator : Side K
  /-- Entries below the line, in canonical order. -/
  denominator : Side K
  /-- What stands on a side without dimensions. -/
  placeholder : BaseUnit K
  /-- Name that is shown in place of the entries. -/
  label : Option String

namespace CompoundUnit

variable {K : Type} [Scalar K]

/-! ## Construction -/

/-- The unit of two sides, which are brought into canonical form. -/
def ofSides (numerator denominator : Side K) (placeholder : BaseUnit K) : CompoundUnit K where
  numerator := Side.normalize placeholder numerator
  denominator := Side.normalize placeholder denominator
  placeholder
  label := none

/-- The same unit shown under a name. -/
def withLabel (unit : CompoundUnit K) (name : String) : CompoundUnit K :=
  { unit with label := some name }

/-- The unit without dimensions that has the same placeholder. -/
def dimensionless (unit : CompoundUnit K) : CompoundUnit K :=
  ofSides [] [] unit.placeholder

/-- Whether neither side has a dimension. -/
def isDimensionless (unit : CompoundUnit K) : Bool :=
  Side.isPlaceholder unit.numerator && Side.isPlaceholder unit.denominator

/-! ## Texts -/

/-- The dimensions of both sides as one text. -/
def dimensionality (unit : CompoundUnit K) : String :=
  Side.product (Side.tags unit.numerator) ++ "/" ++ Side.product (Side.tags unit.denominator)

/-- The names of a side as one factor, between parentheses if there are several. -/
def sideName (side : Side K) : String :=
  if 1 < side.length then
    "(" ++ Side.product (Side.names side) ++ ")"
  else
    Side.product (Side.names side)

/-- The name spelled out by the entries of both sides. -/
def spelledName (unit : CompoundUnit K) : String :=
  if Side.isPlaceholder unit.denominator then
    Side.product (Side.names unit.numerator)
  else
    sideName unit.numerator ++ "/" ++ sideName unit.denominator

/-- The name under which a unit is shown. -/
def name (unit : CompoundUnit K) : String :=
  unit.label.getD unit.spelledName

/-! ## Equality -/

/-- Equality of both sides; names, placeholders and labels play no part. -/
def equals (left right : CompoundUnit K) : Bool :=
  left.numerator == right.numerator && left.denominator == right.denominator

instance : BEq (CompoundUnit K) := ⟨equals⟩

/-- Hash of both sides. -/
def digest (unit : CompoundUnit K) : UInt64 :=
  mixHash (hash unit.numerator) (hash unit.denominator)

instance : Hashable (CompoundUnit K) := ⟨digest⟩

/-! ## Algebra -/

/-- Multiply by further entries on both sides, and give the factor that cancelling incurs. -/
def extend (unit : CompoundUnit K) (above below : Side K) : CompoundUnit K × K :=
  let reduced := simplify (unit.numerator ++ above) (unit.denominator ++ below)
  (ofSides reduced.numerator reduced.denominator unit.placeholder, reduced.factor)

/-- The product of two units and the factor that it incurs. -/
def productWithFactor (left right : CompoundUnit K) : CompoundUnit K × K :=
  if right.isDimensionless then (left, 1)
  else if left.isDimensionless then (right, 1)
  else left.extend right.numerator right.denominator

/-- The quotient of two units and the factor that it incurs. -/
def quotientWithFactor (left right : CompoundUnit K) : CompoundUnit K × K :=
  if right.isDimensionless then (left, 1)
  else left.extend right.denominator right.numerator

/-- The result of an operator on two units and the factor that it incurs. -/
def combine (operator : Operator) (left right : CompoundUnit K) : CompoundUnit K × K :=
  match operator with
  | .times => left.productWithFactor right
  | .over => left.quotientWithFactor right

/-- The product of two units. -/
def multiply (left right : CompoundUnit K) : CompoundUnit K :=
  (left.productWithFactor right).1

/-- The quotient of two units. -/
def divide (left right : CompoundUnit K) : CompoundUnit K :=
  (left.quotientWithFactor right).1

/-- Multiply a unit into a product a number of times. -/
def multiplyTimes (unit product : CompoundUnit K) : Nat → CompoundUnit K
  | 0 => product
  | count + 1 => multiplyTimes unit (product.multiply unit) count

/-- A positive power of a unit. -/
def power (unit : CompoundUnit K) : Nat → Except UnitError (CompoundUnit K)
  | 0 => .error (.invalidConstruction (.powerNotPositive unit.name))
  | count + 1 => .ok (unit.multiplyTimes unit count)

/-! ## Conversion -/

/-- Whether numbers in one unit can be converted to the other. -/
def compatible (left right : CompoundUnit K) : Bool :=
  left.dimensionality == right.dimensionality

/-- Carry a factor through the conversion factors of paired entries. -/
def foldFactors (step : K → K → K) (factor : K) : Side K → Side K → Except UnitError K
  | source :: sources, target :: targets => do
      let ratio ← source.conversionFactor target
      foldFactors step (step factor ratio) sources targets
  | _, _ => .ok factor

/-- What a number in one unit is multiplied by to be a number in another. -/
def conversionFactor (source target : CompoundUnit K) : Except UnitError K :=
  if source.compatible target then do
    let above ← foldFactors (· * ·) 1 source.numerator target.numerator
    foldFactors (· / ·) above source.denominator target.denominator
  else
    .error (.dimensionMismatch source.name target.name)

end CompoundUnit
end UnitAlgebra
