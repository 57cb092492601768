import UnitAlgebra.Binary64.Nearest
import UnitAlgebra.Decimal.Literal

/-!
# The double nearest to a decimal

A decimal is rounded to the nearest double, half to even.  Decimals far outside the range of
doubles are settled by the position of their first digit, before any power of ten is formed.
-/

namespace UnitAlgebra
namespace Decimal

/-- Number of decimal digits of a natural number; zero has one. -/
def length (number : Nat) : Nat :=
  (Nat.toDigits 10 number).length

/-- Decimals at or above this power of ten round to infinity. -/
def overflowPlace : Int := 310

/-- Positive decimals below this power of ten round to zero. -/
def underflowPlace : Int := -330

/-- The double nearest to `digits * 10 ^ exponent`, which may be infinite. -/
def nearestUnsigned (digits : Nat) (exponent : Int) : Float :=
  let place := exponent + length digits
  if digits = 0 || place < underflowPlace then
    0
  else if overflowPlace < place then
    1 / 0
  else
    Binary64.nearest (digits * Nat.pow 10 exponent.toNat) (Nat.pow 10 (-exponent).toNat)

/-- The double nearest to a decimal, which may be infinite; zero keeps its sign. -/
def nearest (number : Decimal) : Float :=
  let size := nearestUnsigned number.digits number.exponent
  if number.negative then -size else size

/-- The finite double nearest to a decimal, or nothing beyond the range of doubles. -/
def nearestFinite? (number : Decimal) : Option Float :=
  let value := number.nearest
  if value.isFinite then some value else none

end Decimal
end UnitAlgebra
