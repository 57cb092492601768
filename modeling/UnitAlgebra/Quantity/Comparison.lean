import UnitAlgebra.Quantity

/-!
# Comparison of quantities

Quantities are compared by converting one to the unit of the other.  Because a conversion may round,
two quantities are equal if they agree in either of the two units, which makes equality symmetric.
-/

namespace UnitAlgebra
namespace Quantity

variable {K : Type} [Scalar K]

/-- Equality of physical values, as far as conversion can tell. -/
def equals (left right : Quantity K) : Bool :=
  if left.unit == right.unit then
    left.magnitude.equals right.magnitude
  else if left.compatible right then
    match right.magnitudeIn left.unit, left.magnitudeIn right.unit with
    | .ok theirs, .ok ours => theirs.equals left.magnitude || ours.equals right.magnitude
    | _, _ => false
  else
    false

/-- Equality with a bare number, which has no dimension; zero equals zero of any unit. -/
def equalsNumber (quantity : Quantity K) (number : K) : Bool :=
  if number == 0 && quantity.isZero then
    true
  else
    quantity.isDimensionless && quantity.magnitude.equalsNumber number

/-- How two single numbers compare in the unit of the left one; lists do not compare. -/
def compare? (left right : Quantity K) : Option Ordering := do
  let ours ← left.magnitude.scalar?
  let converted ← (right.magnitudeIn left.unit).toOption
  let theirs ← converted.scalar?
  Scalar.compare? ours theirs

/-- Whether the left quantity is smaller. -/
def isLess (left right : Quantity K) : Bool :=
  left.compare? right == some .lt

/-- Whether the left quantity is equal or greater. -/
def isAtLeast (left right : Quantity K) : Bool :=
  match left.compare? right with
  | some order => order.isGE
  | none => false

end Quantity
end UnitAlgebra
