import UnitAlgebra.Decimal.Format

/-!
# Scalars

Multipliers and magnitudes are made of scalars.  Every construction of this library is made over an
arbitrary type of scalars: doubles when it computes, exact rationals when rounding is to be left
out of a statement.
-/

namespace UnitAlgebra

/-- Numbers that multipliers and magnitudes can be made of. -/
class Scalar (K : Type) extends Zero K, One K, Add K, Sub K, Mul K, Div K, Neg K, BEq K where
  /-- Strict order of magnitudes. -/
  less : K → K → Bool
  /-- Total order of multipliers; equal only for identical multipliers. -/
  order : K → K → Ordering
  /-- Hash of a multiplier. -/
  digest : K → UInt64
  /-- Whether a number can be a multiplier: finite and greater than zero. -/
  isMultiplier : K → Bool
  /-- The number nearest to a decimal, or nothing beyond the range of the numbers. -/
  ofDecimal? : Decimal → Option K
  /-- Text of a number as it is shown to a reader. -/
  text : K → String
  /-- One is a multiplier. -/
  isMultiplier_one : isMultiplier 1 = true

namespace Scalar

/-- How two numbers compare, if they do. -/
def compare? {K : Type} [Scalar K] (left right : K) : Option Ordering :=
  if less left right then some .lt
  else if left == right then some .eq
  else if less right left then some .gt
  else none

/--
The number that a literal of an expression denotes: digits before or after the point, and a value
within the range of the numbers.  An integer literal never denotes minus zero.
-/
def ofWord? (K : Type) [Scalar K] (word : List Char) : Option K := do
  let literal ← Decimal.Literal.ofChars? word
  if literal.hasDigit then
    ofDecimal? (if literal.isInteger then literal.value.unsignedZero else literal.value)
  else
    none

end Scalar

/-! ## Doubles -/

/--
Doubles are the numbers that quantities are computed with.  Two multipliers are ordered by their
bit patterns, which for positive doubles is the order of their values.
-/
instance : Scalar Float where
  zero := 0
  one := 1
  less left right := left < right
  order left right := compare left.toBits right.toBits
  digest value := hash value.toBits
  isMultiplier value := value.isFinite && 0 < value
  ofDecimal? number := number.nearestFinite?
  text value := Decimal.display.render value
  isMultiplier_one := by decide

/-! ## Rationals -/

/-- The exact value of a decimal. -/
def Decimal.toRat (number : Decimal) : Rat :=
  let size := (number.digits : Rat) * (10 : Rat) ^ number.exponent
  if number.negative then -size else size

/-- Total order of the rationals. -/
def ratOrder (left right : Rat) : Ordering :=
  if left < right then .lt else if left = right then .eq else .gt

/-- A rational as an integer or a fraction. -/
def ratText (value : Rat) : String :=
  if value.den = 1 then toString value.num else s!"{value.num}/{value.den}"

/--
Rational numbers are scalars without rounding: statements about conversion factors and physical
values hold of them exactly.
-/
instance : Scalar Rat where
  zero := 0
  one := 1
  less left right := left < right
  order := ratOrder
  digest value := hash value
  isMultiplier value := 0 < value
  ofDecimal? number := some number.toRat
  text := ratText
  isMultiplier_one := by decide

end UnitAlgebra
