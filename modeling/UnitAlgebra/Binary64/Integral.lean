import UnitAlgebra.Binary64.Nearest

/-!
# Integral rounding of doubles

A double is rounded to an integral double in one of four modes.  The quotient is taken in exact
natural-number arithmetic, and the sign is kept, so a small negative number rounds to minus zero.
-/

namespace UnitAlgebra
namespace Binary64

/-- A direction in which a number is rounded to an integer. -/
inductive Rounding where
  /-- Drop the fraction. -/
  | towardZero
  /-- To the greatest integer that is not larger. -/
  | down
  /-- To the least integer that is not smaller. -/
  | up
  /-- To the nearest integer, and a half away from zero. -/
  | halfAway
  deriving DecidableEq, Repr

namespace Rounding

/-- Whether a number with a given sign and a fraction `remainder / divisor` moves away from zero. -/
def movesAway (mode : Rounding) (negative : Bool) (remainder divisor : Nat) : Bool :=
  match mode with
  | .towardZero => false
  | .down => negative && remainder != 0
  | .up => !negative && remainder != 0
  | .halfAway => divisor ≤ 2 * remainder

/-- Absolute value of the rounded quotient of a signed number by `divisor`. -/
def quotient (mode : Rounding) (negative : Bool) (dividend divisor : Nat) : Nat :=
  dividend / divisor + if mode.movesAway negative (dividend % divisor) divisor then 1 else 0

end Rounding

/-- Round a double to an integral double; NaN, infinities and integers are unchanged. -/
def toIntegral (mode : Rounding) (value : Float) : Float :=
  match Parts.ofFloat? value with
  | none => value
  | some parts =>
      if 0 ≤ parts.exponent then
        value
      else
        let size := nearest
          (mode.quotient parts.negative parts.significand (Nat.pow 2 (-parts.exponent).toNat)) 1
        if parts.negative then -size else size

end Binary64
end UnitAlgebra
