import UnitAlgebra.Binary64.Integral
import UnitAlgebra.Quantity

/-!
# Rounding

The operations that round every element of a quantity of doubles, each in its unit.

A double is rounded to a number of decimal places by shifting the point with a power of ten,
rounding to an integer and shifting back.  The power comes from repeated squaring.  All of these
steps round on their own, so the order of the multiplications is part of the result.
-/

namespace UnitAlgebra

/-! ## Decimal places of doubles -/

namespace Binary64

/-- Multiply `result` by `base ^ count`, squaring the base for each binary digit of the count. -/
def powerLoop (result base : Float) (count : Nat) : Float :=
  if count = 0 then
    result
  else
    powerLoop (if count % 2 = 1 then result * base else result) (base * base) (count / 2)
termination_by count
decreasing_by omega

/-- The power of ten with a signed exponent. -/
def powerOfTen (exponent : Int) : Float :=
  let power := powerLoop 1 10 exponent.natAbs
  if exponent < 0 then 1 / power else power

/--
Round a double to a number of decimal places.  Where the power of ten or the shifted number leaves
the range of doubles, the number is returned as it is.
-/
def roundToPlaces (places : Int) (value : Float) : Float :=
  let power := powerOfTen places
  if !power.isFinite || power == 0 then
    value
  else
    let shifted := value * power
    if shifted.isFinite then toIntegral .halfAway shifted / power else value

end Binary64

/-! ## Quantities -/

namespace Quantity

/-- Absolute value of every element. -/
def absolute (quantity : Quantity Float) : Quantity Float :=
  quantity.map Float.abs

/-- Every element without its fraction. -/
def truncate (quantity : Quantity Float) : Quantity Float :=
  quantity.map (Binary64.toIntegral .towardZero)

/-- The greatest integers that are not larger than the elements. -/
def floor (quantity : Quantity Float) : Quantity Float :=
  quantity.map (Binary64.toIntegral .down)

/-- The least integers that are not smaller than the elements. -/
def ceiling (quantity : Quantity Float) : Quantity Float :=
  quantity.map (Binary64.toIntegral .up)

/-- Every element rounded to a number of decimal places. -/
def round (quantity : Quantity Float) (places : Int) : Quantity Float :=
  quantity.map (Binary64.roundToPlaces places)

end Quantity
end UnitAlgebra
