import UnitAlgebra.CompoundUnit
import UnitAlgebra.Registry.Registration

/-!
# Catalogues

A catalogue is what is known after a list of registrations: base units and compositions by name, and
for each dimension the multipliers of its base units.  A later registration of a name replaces an
earlier one everywhere.
-/

namespace UnitAlgebra

/-- The registered base units, their multipliers by dimension, and the compositions. -/
structure Catalogue (K : Type) [Scalar K] where
  /-- Base units by name. -/
  baseUnits : Std.TreeMap String (BaseUnit K)
  /-- For each dimension, the multipliers of its base units by name. -/
  multipliers : Std.TreeMap String (Std.TreeMap String K)
  /-- Compositions by name. -/
  compositions : Std.TreeMap String Composition

namespace Catalogue

variable {K : Type} [Scalar K]

/-- The catalogue without registrations. -/
def empty : Catalogue K :=
  ⟨∅, ∅, ∅⟩

/-- Whether a name has a meaning. -/
def defines (catalogue : Catalogue K) (name : String) : Bool :=
  catalogue.baseUnits.contains name || catalogue.compositions.contains name

/-- Take its meaning from a name. -/
def forget (catalogue : Catalogue K) (name : String) : Catalogue K where
  baseUnits := catalogue.baseUnits.erase name
  multipliers := catalogue.multipliers.map fun _ table => table.erase name
  compositions := catalogue.compositions.erase name

/-- Take its meaning from a name that has one. -/
def release (catalogue : Catalogue K) (name : String) : Catalogue K :=
  if catalogue.defines name then catalogue.forget name else catalogue

/-- Give a name the meaning of a base unit. -/
def insertBaseUnit (catalogue : Catalogue K) (dimension : String) (unit : BaseUnit K) :
    Catalogue K :=
  let table := (catalogue.multipliers[dimension]?).getD ∅
  { catalogue with
    baseUnits := catalogue.baseUnits.insert unit.name unit
    multipliers := catalogue.multipliers.insert dimension (table.insert unit.name unit.multiplier) }

/-- Give a name the meaning of a composition. -/
def insertComposition (catalogue : Catalogue K) (name : String) (composition : Composition) :
    Catalogue K :=
  { catalogue with compositions := catalogue.compositions.insert name composition }

/-- Enter one registration; an earlier one of the same name is forgotten. -/
def enter (catalogue : Catalogue K) : Registration K → Catalogue K
  | .direct dimension unit => (catalogue.release unit.name).insertBaseUnit dimension unit
  | .composed name composition => (catalogue.release name).insertComposition name composition

/-- The catalogue after a list of registrations. -/
def ofRegistrations (registrations : List (Registration K)) : Catalogue K :=
  registrations.foldl enter empty

end Catalogue

end UnitAlgebra
