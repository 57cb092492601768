import UnitAlgebra.Binary64.Parts
import UnitAlgebra.Decimal.Nearest

/-!
# Shortest decimals of doubles

The shortest decimal of a double has the fewest digits among the decimals that round to the
double, and is the nearest of those.  It is searched for one digit count after the other on exact
decimal grids: if some point of a grid rounds to the double, then so does one of the double's two
neighbours on that grid.
-/

namespace UnitAlgebra
namespace Decimal

/-- Which of two equally near decimals is chosen. -/
inductive Tie where
  /-- The one of larger absolute value. -/
  | away
  /-- The one whose last digit is even. -/
  | toEven
  deriving DecidableEq, Repr

/-- A positive double as a fraction, with the bounds of what rounds to it over the same divisor. -/
structure Target where
  /-- Numerator of the least number that may round to the double. -/
  lower : Nat
  /-- Numerator of the double. -/
  middle : Nat
  /-- Numerator of the greatest number that may round to the double. -/
  upper : Nat
  /-- Common denominator. -/
  divisor : Nat
  /-- Whether the bounds round to the double themselves. -/
  closed : Bool
  deriving DecidableEq, Repr

namespace Target

/-- The target of `significand * 2 ^ exponent`. -/
def ofParts (parts : Binary64.Parts) : Target :=
  let narrow := parts.significand = Binary64.hiddenBit && Binary64.leastExponent < parts.exponent
  let scale := Nat.pow 2 parts.exponent.toNat
  { lower := (4 * parts.significand - if narrow then 1 else 2) * scale
    middle := 4 * parts.significand * scale
    upper := (4 * parts.significand + 2) * scale
    divisor := 4 * Nat.pow 2 (-parts.exponent).toNat
    closed := parts.significand % 2 = 0 }

/-- The target divided by `10 ^ exponent`. -/
def shift (target : Target) (exponent : Int) : Target :=
  let scale := Nat.pow 10 (-exponent).toNat
  { target with
    lower := target.lower * scale
    middle := target.middle * scale
    upper := target.upper * scale
    divisor := target.divisor * Nat.pow 10 exponent.toNat }

/-- Whether an integer rounds to the target's double. -/
def contains (target : Target) (candidate : Nat) : Bool :=
  let scaled := candidate * target.divisor
  if target.closed then
    target.lower ≤ scaled && scaled ≤ target.upper
  else
    target.lower < scaled && scaled < target.upper

/-- Of the two integers around the target, the nearer one that rounds to its double. -/
def neighbour? (tie : Tie) (target : Target) : Option Nat :=
  let below := target.middle / target.divisor
  let above := below + 1
  let remainder := target.middle % target.divisor
  match target.contains below, target.contains above with
  | false, false => none
  | true, false => some below
  | false, true => some above
  | true, true =>
      match compare (2 * remainder) target.divisor, tie with
      | .lt, _ => some below
      | .gt, _ => some above
      | .eq, .away => some above
      | .eq, .toEven => some (if below % 2 = 0 then below else above)

/-- Place of the first digit: the exponent `place` with `10 ^ place ≤ target < 10 ^ (place + 1)`. -/
def leadingPlace (target : Target) : Int :=
  let estimate : Int := length target.middle - length target.divisor
  let shifted := target.shift estimate
  if shifted.divisor ≤ shifted.middle then estimate else estimate - 1

/-- Try one digit count after the other, up to `remaining` more of them. -/
def search (tie : Tie) (target : Target) (exponent : Int) : Nat → Option Decimal
  | 0 => none
  | remaining + 1 =>
      match (target.shift exponent).neighbour? tie with
      | some digits => some ⟨false, digits, exponent⟩
      | none => search tie target (exponent - 1) remaining

end Target

/-- Move the zeros at the end of the digits into the exponent, up to `count` of them. -/
def trimZeros (number : Decimal) : Nat → Decimal
  | 0 => number
  | count + 1 =>
      if number.digits % 10 = 0 then
        trimZeros
          { number with digits := number.digits / 10, exponent := number.exponent + 1 } count
      else
        number

/-- Digits that are always enough to tell two doubles apart. -/
def maximumDigits : Nat := 17

/-- The shortest decimal that rounds to a finite double. -/
def shortest (tie : Tie) (parts : Binary64.Parts) : Decimal :=
  if parts.significand = 0 then
    ⟨parts.negative, 0, 0⟩
  else
    let target := Target.ofParts parts
    match target.search tie target.leadingPlace maximumDigits with
    | none => ⟨parts.negative, parts.significand * Nat.pow 2 parts.exponent.toNat, 0⟩
    | some found => { found.trimZeros maximumDigits with negative := parts.negative }

end Decimal
end UnitAlgebra
