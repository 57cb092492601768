import UnitAlgebra.CompoundUnit
import UnitAlgebra.Magnitude

/-!
# Quantities

A quantity is a magnitude in a unit.  Sums are taken in the unit of the left operand.  Products and
quotients cancel shared dimensions, and the factor of the cancellation goes into the magnitude, so
that the physical value is kept.
-/

namespace UnitAlgebra

/-- A magnitude in a unit. -/
structure Quantity (K : Type) [Scalar K] where
  /-- One number or a list of numbers. -/
  magnitude : Magnitude K
  /-- The unit of every number. -/
  unit : CompoundUnit K

namespace Quantity

variable {K : Type} [Scalar K]

/-- A magnitude without dimension, with the placeholder of a given unit. -/
def dimensionless (magnitude : Magnitude K) (like : CompoundUnit K) : Quantity K :=
  ⟨magnitude, like.dimensionless⟩

/-- A single number of a unit. -/
def ofNumber (number : K) (unit : CompoundUnit K) : Quantity K :=
  ⟨.scalar number, unit⟩

/-- Whether the unit has no dimension. -/
def isDimensionless (quantity : Quantity K) : Bool :=
  quantity.unit.isDimensionless

/-- Whether all elements are zero. -/
def isZero (quantity : Quantity K) : Bool :=
  quantity.magnitude.isZero

/-- Whether two quantities can be converted to each other's units. -/
def compatible (left right : Quantity K) : Bool :=
  left.unit.compatible right.unit

/-- Apply a function to every element. -/
def map (function : K → K) (quantity : Quantity K) : Quantity K :=
  ⟨quantity.magnitude.map function, quantity.unit⟩

/-! ## Elements -/

/-- The element at an index, as a quantity. -/
def get? (quantity : Quantity K) (index : Nat) : Option (Quantity K) :=
  (quantity.magnitude.get? index).map fun number => ofNumber number quantity.unit

/-- All elements in order, as quantities. -/
def elements (quantity : Quantity K) : List (Quantity K) :=
  quantity.magnitude.elements.map fun number => ofNumber number quantity.unit

/-! ## Conversion -/

/-- The magnitude in another unit; in an equal unit it is unchanged. -/
def magnitudeIn (quantity : Quantity K) (target : CompoundUnit K) :
    Except UnitError (Magnitude K) :=
  if quantity.unit == target then
    .ok quantity.magnitude
  else do
    let factor ← quantity.unit.conversionFactor target
    return quantity.magnitude.scale factor

/-- The same physical quantity in another unit. -/
def convert (quantity : Quantity K) (target : CompoundUnit K) : Except UnitError (Quantity K) := do
  return ⟨← quantity.magnitudeIn target, target⟩

/--
Replace a quantity by its conversion to another unit, and report the error if there is none.  The
magnitude is multiplied by the conversion factor even if the units are equal.
-/
def convertInPlace (quantity : Quantity K) (target : CompoundUnit K) :
    Quantity K × Except UnitError Unit :=
  match quantity.unit.conversionFactor target with
  | .ok factor => (⟨quantity.magnitude.scale factor, target⟩, .ok ())
  | .error failure => (quantity, .error failure)

/-! ## Sums -/

/-- Combine two magnitudes by an operation in the unit of the left one. -/
def combineInLeftUnit (operation : Operation) (left right : Quantity K) :
    Except UnitError (Quantity K) := do
  let converted ← right.magnitudeIn left.unit
  return ⟨← left.magnitude.combine operation converted, left.unit⟩

/-- The sum of two quantities. -/
def add (left right : Quantity K) : Except UnitError (Quantity K) :=
  combineInLeftUnit .add left right

/-- The difference of two quantities. -/
def subtract (left right : Quantity K) : Except UnitError (Quantity K) :=
  combineInLeftUnit .subtract left right

/-- The sum with a bare number, which has no dimension; zero can be added to any quantity. -/
def addNumber (quantity : Quantity K) (number : K) : Except UnitError (Quantity K) :=
  if number == 0 then .ok quantity
  else quantity.add (dimensionless (.scalar number) quantity.unit)

/-- The difference with a bare number; zero can be subtracted from any quantity. -/
def subtractNumber (quantity : Quantity K) (number : K) : Except UnitError (Quantity K) :=
  if number == 0 then .ok quantity
  else quantity.subtract (dimensionless (.scalar number) quantity.unit)

/-! ## Products -/

/-- The quantity of a magnitude in an uncancelled unit, given the cancelled unit and the factor. -/
def scaled (magnitude : Magnitude K) (reduced : CompoundUnit K × K) : Quantity K :=
  ⟨magnitude.scale reduced.2, reduced.1⟩

/-- The product of two quantities. -/
def multiply (left right : Quantity K) : Except UnitError (Quantity K) := do
  let magnitude ← left.magnitude.multiply right.magnitude
  return scaled magnitude (left.unit.productWithFactor right.unit)

/-- The quotient of two quantities. -/
def divide (left right : Quantity K) : Except UnitError (Quantity K) := do
  let magnitude ← left.magnitude.divide right.magnitude
  return scaled magnitude (left.unit.quotientWithFactor right.unit)

/-- The product with a bare unit. -/
def multiplyUnit (quantity : Quantity K) (unit : CompoundUnit K) : Quantity K :=
  scaled quantity.magnitude (quantity.unit.productWithFactor unit)

/-- The quotient by a bare unit. -/
def divideUnit (quantity : Quantity K) (unit : CompoundUnit K) : Quantity K :=
  scaled quantity.magnitude (quantity.unit.quotientWithFactor unit)

/-- The product with a bare number. -/
def scale (quantity : Quantity K) (factor : K) : Quantity K :=
  quantity.map (· * factor)

/-- The quotient by a bare number. -/
def divideNumber (quantity : Quantity K) (divisor : K) : Quantity K :=
  quantity.map (· / divisor)

/-- The quantity of opposite sign. -/
def negate (quantity : Quantity K) : Quantity K :=
  quantity.map (- ·)

/-! ## Texts and powers -/

/-- Magnitude and unit as they are shown to a reader. -/
def display (quantity : Quantity K) : String :=
  quantity.magnitude.display ++ " " ++ quantity.unit.name

/-- Multiply a quantity into a product a number of times. -/
def multiplyTimes (quantity product : Quantity K) : Nat → Except UnitError (Quantity K)
  | 0 => .ok product
  | count + 1 => do
      let next ← product.multiply quantity
      multiplyTimes quantity next count

/-- A positive power of a quantity. -/
def power (quantity : Quantity K) : Nat → Except UnitError (Quantity K)
  | 0 => .error (.invalidConstruction (.powerNotPositive quantity.display))
  | count + 1 => quantity.multiplyTimes quantity count

end Quantity

/-- A magnitude of a unit. -/
def CompoundUnit.quantity {K : Type} [Scalar K] (unit : CompoundUnit K) (magnitude : Magnitude K) :
    Quantity K :=
  ⟨magnitude, unit⟩

end UnitAlgebra
