import UnitAlgebra.Decimal.Shortest

/-!
# Number formats

A number format says how the shortest decimal of a double is written: where positional notation
ends, what marks a whole number, how an exponent is signed and what stands for the numbers that
are not finite.
-/

namespace UnitAlgebra
namespace Decimal

/-- The decisions of one way to write doubles. -/
structure NumberFormat where
  /-- Whether a number with its first digit at this place is written without an exponent. -/
  positional : Int → Bool
  /-- What follows a whole number in positional notation. -/
  wholeMark : String
  /-- Sign of an exponent that is not negative. -/
  exponentPlus : String
  /-- Choice between two equally near shortest decimals. -/
  tie : Tie
  /-- Text of the numbers that are neither finite nor infinite. -/
  notNumber : String
  /-- Text of the positive infinity. -/
  infinity : String
  /-- Text of the negative infinity. -/
  negativeInfinity : String

namespace NumberFormat

/-- A list of `count` zeros. -/
def zeros (count : Nat) : List Char :=
  List.replicate count '0'

/-- Positional notation of `digits * 10 ^ exponent`. -/
def positionalChars (format : NumberFormat) (digits : List Char) (exponent : Int) : List Char :=
  let wholeDigits := exponent + digits.length
  if 0 ≤ exponent then
    digits ++ zeros exponent.toNat ++ format.wholeMark.toList
  else if 0 < wholeDigits then
    digits.take wholeDigits.toNat ++ '.' :: digits.drop wholeDigits.toNat
  else
    '0' :: '.' :: zeros (-wholeDigits).toNat ++ digits

/-- Notation with one digit before the point and an exponent that moves the point. -/
def exponentChars (format : NumberFormat) (digits : List Char) (place : Int) : List Char :=
  let point := match digits with
    | first :: second :: rest => first :: '.' :: second :: rest
    | short => short
  let sign := if place < 0 then ['-'] else format.exponentPlus.toList
  point ++ 'e' :: sign ++ Nat.toDigits 10 place.natAbs

/-- The characters of an exact decimal. -/
def decimalChars (format : NumberFormat) (number : Decimal) : List Char :=
  let digits := Nat.toDigits 10 number.digits
  let place := number.exponent + digits.length - 1
  let size :=
    if format.positional place then
      format.positionalChars digits number.exponent
    else
      format.exponentChars digits place
  if number.negative then '-' :: size else size

/-- Write a double. -/
def render (format : NumberFormat) (value : Float) : String :=
  match Binary64.Parts.ofFloat? value with
  | some parts => String.ofList (format.decimalChars (shortest format.tie parts))
  | none =>
      if value.isNaN then format.notNumber
      else if value < 0 then format.negativeInfinity
      else format.infinity

end NumberFormat

/-- Numbers in the texts shown to a reader: never an exponent, and no mark on whole numbers. -/
def display : NumberFormat where
  positional _ := true
  wholeMark := ""
  exponentPlus := ""
  tie := .away
  notNumber := "NaN"
  infinity := "inf"
  negativeInfinity := "-inf"

/-- Numbers in JSON text: a point on each number, and an exponent below `1e-5` and from `1e16` on. -/
def interchange : NumberFormat where
  positional place := -5 ≤ place && place < 16
  wholeMark := ".0"
  exponentPlus := "+"
  tie := .toEven
  notNumber := "null"
  infinity := "null"
  negativeInfinity := "null"

end Decimal
end UnitAlgebra
