/-!
# Parts of a binary64 number

A finite double is `± significand * 2 ^ exponent`.  The parts are read off the bit pattern, so
statements about doubles can be made in exact integer arithmetic.
-/

namespace UnitAlgebra
namespace Binary64

/-- Sign, integer significand and binary exponent of a finite double. -/
structure Parts where
  /-- Whether the sign bit is set; zero has a sign too. -/
  negative : Bool
  /-- Integer significand, below `2 ^ 53`. -/
  significand : Nat
  /-- Power of two that the significand is multiplied by. -/
  exponent : Int
  deriving DecidableEq, Repr

/-- Smallest significand of a normal double. -/
def hiddenBit : Nat :=
  Nat.pow 2 52

/-- Value of the exponent field of NaN and the infinities. -/
def specialField : Nat :=
  Nat.pow 2 11 - 1

/-- Binary exponent of subnormal doubles and of the smallest normal ones. -/
def leastExponent : Int :=
  -1074

namespace Parts

/-- The parts held in a 64-bit pattern, or nothing for a NaN or an infinity. -/
def ofBits? (bits : UInt64) : Option Parts :=
  let negative := bits.toNat / Nat.pow 2 63 == 1
  let field := bits.toNat / hiddenBit % (specialField + 1)
  let fraction := bits.toNat % hiddenBit
  if field = specialField then
    none
  else if field = 0 then
    some ⟨negative, fraction, leastExponent⟩
  else
    some ⟨negative, hiddenBit + fraction, leastExponent + (field - 1 : Nat)⟩

/-- The parts of a double, or nothing for a NaN or an infinity. -/
def ofFloat? (value : Float) : Option Parts :=
  ofBits? value.toBits

end Parts
end Binary64
end UnitAlgebra
