import UnitAlgebra.Side

/-!
# Cancellation

Entries of one dimension on both sides of a unit cancel.  The cancelled entries may differ in size;
the ratio of their sizes is collected in a factor, by which a magnitude has to be multiplied to keep
its physical value.
-/

namespace UnitAlgebra

/-- The sides that are left after cancellation, and the factor that it incurs. -/
structure Cancellation (K : Type) [Scalar K] where
  /-- Entries left above the line. -/
  numerator : Side K
  /-- Entries left below the line. -/
  denominator : Side K
  /-- What a magnitude in the uncancelled unit is multiplied by. -/
  factor : K

namespace Cancellation

variable {K : Type} [Scalar K]

/--
Cancel the entries of a denominator in order: each one removes the first numerator entry of its
dimension and multiplies the factor by the ratio of the two, or is kept if there is no such entry.
-/
def run (numerator : Side K) (factor : K) : Side K → Cancellation K
  | [] => ⟨numerator, [], factor⟩
  | entry :: rest =>
      match Side.takeDimension? entry.dimension numerator with
      | some (found, others) => run others (factor * (found.multiplier / entry.multiplier)) rest
      | none =>
          let left := run numerator factor rest
          { left with denominator := entry :: left.denominator }

/-- Whether the two sides have the same dimensions entry by entry. -/
def sidesAgree (cancellation : Cancellation K) : Bool :=
  Side.tags cancellation.numerator == Side.tags cancellation.denominator

/-- Drop both sides if they have the same dimensions entry by entry. -/
def collapse (cancellation : Cancellation K) : Cancellation K :=
  if cancellation.sidesAgree then
    ⟨[], [], cancellation.factor⟩
  else
    cancellation

end Cancellation

/-- Cancel the dimensions that two sides share, whatever order and placeholders they come with. -/
def simplify {K : Type} [Scalar K] (numerator denominator : Side K) : Cancellation K :=
  (Cancellation.run (Side.canonical numerator) 1 (Side.canonical denominator)).collapse

end UnitAlgebra
