/-!
# Decimal literals

A literal is split into an optional sign, digits before the point, digits after it and an optional
exponent.  Which of these parts may be left out differs from format to format, so the formats are
predicates on the split literal; its value as an exact decimal is the same in all of them.
-/

namespace UnitAlgebra

/-- The exact number `± digits * 10 ^ exponent`. -/
structure Decimal where
  /-- Whether a minus sign is written; zero may have one. -/
  negative : Bool
  /-- All digits as one natural number. -/
  digits : Nat
  /-- Power of ten that the digits are multiplied by. -/
  exponent : Int
  deriving DecidableEq, Repr

namespace Decimal

/-- A sign written before a number. -/
inductive Sign where
  /-- The sign `+`. -/
  | plus
  /-- The sign `-`. -/
  | minus
  deriving DecidableEq, Repr

/-- The sign that starts a text, if any, and what follows it. -/
def Sign.split : List Char → Option Sign × List Char
  | '+' :: rest => (some .plus, rest)
  | '-' :: rest => (some .minus, rest)
  | text => (none, text)

/-- Whether a character is one of the ten ASCII digits. -/
def isDigit (character : Char) : Bool :=
  '0' ≤ character && character ≤ '9'

/-- The natural number that a list of decimal digits denotes. -/
def digitsValue (digits : List Char) : Nat :=
  digits.foldl (fun value digit => 10 * value + (digit.toNat - '0'.toNat)) 0

/-- The parts of a decimal literal as they are written. -/
structure Literal where
  /-- The written sign. -/
  sign : Option Sign
  /-- Digits before the point. -/
  whole : List Char
  /-- Digits after the point, if a point is written. -/
  fraction : Option (List Char)
  /-- Sign and digits of the exponent, if an exponent is written. -/
  exponent : Option (Option Sign × List Char)
  deriving DecidableEq, Repr

namespace Literal

/-- The exponent part that makes up a whole text: `e` or `E`, a sign and at least one digit. -/
def exponentOfChars? : List Char → Option (Option Sign × List Char)
  | [] => none
  | mark :: text =>
      let (sign, digits) := Sign.split text
      if (mark == 'e' || mark == 'E') && !digits.isEmpty && digits.all isDigit then
        some (sign, digits)
      else
        none

/-- Split off the digits after a point, if the text starts with one. -/
def splitFraction : List Char → Option (List Char) × List Char
  | '.' :: text => (some (text.takeWhile isDigit), text.dropWhile isDigit)
  | text => (none, text)

/-- Split a whole text into the parts of a literal, whichever of them are present. -/
def ofChars? (text : List Char) : Option Literal :=
  let (sign, unsigned) := Sign.split text
  let whole := unsigned.takeWhile isDigit
  let (fraction, rest) := splitFraction (unsigned.dropWhile isDigit)
  if rest.isEmpty then
    some ⟨sign, whole, fraction, none⟩
  else
    (exponentOfChars? rest).map fun exponent => ⟨sign, whole, fraction, some exponent⟩

/-- All digits before and after the point. -/
def allDigits (literal : Literal) : List Char :=
  literal.whole ++ literal.fraction.getD []

/-- Value of the written exponent, zero if there is none. -/
def exponentValue (literal : Literal) : Int :=
  match literal.exponent with
  | none => 0
  | some (some .minus, digits) => -(digitsValue digits : Int)
  | some (_, digits) => digitsValue digits

/-- The exact number that a literal denotes. -/
def value (literal : Literal) : Decimal where
  negative := literal.sign == some .minus
  digits := digitsValue literal.allDigits
  exponent := literal.exponentValue - (literal.fraction.getD []).length

/-- Whether a literal is written with digits and at most a sign. -/
def isInteger (literal : Literal) : Bool :=
  literal.fraction.isNone && literal.exponent.isNone

/-- Whether a literal has a digit before or after the point. -/
def hasDigit (literal : Literal) : Bool :=
  !literal.allDigits.isEmpty

end Literal

/-- The same number, with zero written without a sign. -/
def unsignedZero (number : Decimal) : Decimal :=
  if number.digits = 0 then { number with negative := false } else number

end Decimal
end UnitAlgebra
