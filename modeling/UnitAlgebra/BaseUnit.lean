import UnitAlgebra.Error
import UnitAlgebra.Scalar

/-!
# Base units

A base unit is one named unit with its multiplier to the reference unit of its dimension.  Its name
plays no part in equality, hashing and order, so two names of one unit are interchangeable.
-/

namespace UnitAlgebra

/-- Name of the dimension that stands for no dimension, and of its unit. -/
def dimensionlessName : String :=
  "dimensionless"

/-- The tag of a dimension: its name between brackets. -/
def dimensionTag (dimension : String) : String :=
  s!"[{dimension}]"

/-- One named unit of one dimension. -/
structure BaseUnit (K : Type) [Scalar K] where
  /-- Name under which the unit is shown. -/
  name : String
  /-- Tag of the dimension. -/
  dimension : String
  /-- Name of the unit that the multiplier refers to. -/
  reference : String
  /-- How many reference units one of this unit is. -/
  multiplier : K
  /-- The multiplier is finite and greater than zero. -/
  isMultiplier : Scalar.isMultiplier multiplier = true

namespace BaseUnit

variable {K : Type} [Scalar K]

/-- Make a base unit, provided that the multiplier is finite and greater than zero. -/
def make (name dimension reference : String) (multiplier : K) :
    Except UnitError (BaseUnit K) :=
  if positive : Scalar.isMultiplier multiplier = true then
    .ok ⟨name, dimension, reference, multiplier, positive⟩
  else
    .error (.invalidDefinition (.multiplierNotPositive name (Scalar.text multiplier)))

/-- A unit without dimension under a name. -/
def dimensionlessAs (name : String) : BaseUnit K :=
  ⟨name, dimensionTag dimensionlessName, dimensionlessName, 1, Scalar.isMultiplier_one⟩

/-- The unit that stands for no dimension. -/
def dimensionless : BaseUnit K :=
  dimensionlessAs dimensionlessName

/-- Whether a unit belongs to the dimension that stands for no dimension. -/
def isDimensionless (unit : BaseUnit K) : Bool :=
  unit.dimension == dimensionTag dimensionlessName

/-- What a number in one unit is multiplied by to be a number in another of the same dimension. -/
def conversionFactor (source target : BaseUnit K) : Except UnitError K :=
  if source.dimension = target.dimension then
    .ok (source.multiplier / target.multiplier)
  else
    .error (.dimensionMismatch source.name target.name)

/--
Canonical order on the sides of a compound unit: by dimension tag, so that units of equal dimensions
have their entries at equal places, then by reference unit and multiplier.
-/
def order (left right : BaseUnit K) : Ordering :=
  ((compare left.dimension right.dimension).then
    (compare left.reference right.reference)).then
      (Scalar.order left.multiplier right.multiplier)

/-- Equality of everything but the name. -/
def equals (left right : BaseUnit K) : Bool :=
  left.dimension == right.dimension && left.reference == right.reference
    && Scalar.order left.multiplier right.multiplier == .eq

instance : BEq (BaseUnit K) := ⟨equals⟩

/-- Hash of everything but the name. -/
def digest (unit : BaseUnit K) : UInt64 :=
  mixHash (mixHash (hash unit.dimension) (hash unit.reference)) (Scalar.digest unit.multiplier)

instance : Hashable (BaseUnit K) := ⟨digest⟩

end BaseUnit
end UnitAlgebra
