import UnitAlgebra.Binary64.Parts

/-!
# The double nearest to a fraction

A fraction of natural numbers is rounded to the nearest double, half to even, in exact integer
arithmetic.  The exponent is chosen so that the quotient has as many binary digits as a significand;
a quotient that rounds up to one digit more carries into the exponent field by itself.
-/

namespace UnitAlgebra
namespace Binary64

/-- The integer nearest to a fraction, and of two equally near ones the even one. -/
def roundHalfEven (dividend divisor : Nat) : Nat :=
  let quotient := dividend / divisor
  match compare (2 * (dividend % divisor)) divisor with
  | .lt => quotient
  | .gt => quotient + 1
  | .eq => quotient + quotient % 2

/-- The exponent `place` with `2 ^ place ≤ numerator / denominator < 2 ^ (place + 1)`. -/
def binaryPlace (numerator denominator : Nat) : Int :=
  let estimate : Int := numerator.log2 - denominator.log2
  if denominator * Nat.pow 2 estimate.toNat ≤ numerator * Nat.pow 2 (-estimate).toNat then
    estimate
  else
    estimate - 1

/-- The exponent that a fraction has as a double, whose significand has 53 digits. -/
def exponentOf (numerator denominator : Nat) : Int :=
  max leastExponent (binaryPlace numerator denominator - 52)

/-- The bit pattern of a significand and an exponent, or of the infinity beyond the range. -/
def pack (significand : Nat) (exponent : Int) : Nat :=
  min (significand + (exponent - leastExponent).toNat * hiddenBit) (specialField * hiddenBit)

/-- The bit pattern of the double nearest to a positive fraction. -/
def nearestBits (numerator denominator : Nat) : Nat :=
  let exponent := exponentOf numerator denominator
  let significand := roundHalfEven
    (numerator * Nat.pow 2 (-exponent).toNat) (denominator * Nat.pow 2 exponent.toNat)
  pack significand exponent

/-- The double nearest to a fraction, which may be infinite. -/
def nearest (numerator denominator : Nat) : Float :=
  if numerator = 0 then 0 else Float.ofBits (nearestBits numerator denominator).toUInt64

/-- The double nearest to an integer. -/
def ofInt (value : Int) : Float :=
  if value < 0 then -(nearest value.natAbs 1) else nearest value.natAbs 1

end Binary64
end UnitAlgebra
