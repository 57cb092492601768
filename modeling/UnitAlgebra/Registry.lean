import UnitAlgebra.Definition.Builtin
import UnitAlgebra.Definition.Interchange
import UnitAlgebra.Registry.Assembly
import UnitAlgebra.Scalar

/-!
# Registries

A registry binds one unit to every name that a definition table defines.  Each registry is a
namespace of its own.
-/

namespace UnitAlgebra

/-- The named units of a definition table. -/
structure Registry (K : Type) [Scalar K] extends Catalogue K where
  /-- Names of the reference units by dimension. -/
  references : Std.TreeMap String String
  /-- Units by name. -/
  units : Std.TreeMap String (CompoundUnit K)

namespace Registry

variable {K : Type} [Scalar K]

/-- The registry of a definition table. -/
def ofTable (table : DefinitionTable K) : Except UnitError (Registry K) := do
  let registrations ← table.registrations
  let catalogue := Catalogue.ofRegistrations registrations
  let units ← catalogue.units
  return { catalogue with references := table.references, units }

/-- The registry of the built-in table. -/
def builtin : Except UnitError (Registry Float) :=
  ofTable DefinitionTable.builtin

/-- The registry of a table in JSON text. -/
def ofText (text : String) : Except UnitError (Registry Float) := do
  ofTable (← DefinitionTable.ofText text)

/-- The unit without dimensions. -/
def dimensionless (_registry : Registry K) : CompoundUnit K :=
  .ofSides [] [] .dimensionless

/-- The unit registered under exactly this name. -/
def lookup? (registry : Registry K) (name : String) : Option (CompoundUnit K) :=
  registry.units[name]?

/-- Whether a unit is registered under exactly this name. -/
def contains (registry : Registry K) (name : String) : Bool :=
  registry.units.contains name

/-- All registered names in order. -/
def names (registry : Registry K) : List String :=
  registry.units.keys

/-- Number of registered names. -/
def size (registry : Registry K) : Nat :=
  registry.units.size

/-- The base unit registered under a name. -/
def baseUnit? (registry : Registry K) (name : String) : Option (BaseUnit K) :=
  registry.baseUnits[name]?

/-- The composition registered under a name. -/
def composition? (registry : Registry K) (name : String) : Option Composition :=
  registry.compositions[name]?

/-- Names of the dimensions that have a reference unit, in order. -/
def dimensions (registry : Registry K) : List String :=
  registry.references.keys

/-- Name of the reference unit of a dimension. -/
def reference? (registry : Registry K) (dimension : String) : Option String :=
  registry.references[dimension]?

/-- Names and multipliers of the base units of a dimension, in the order of the names. -/
def multipliersOf? (registry : Registry K) (dimension : String) : Option (List (String × K)) :=
  (registry.multipliers[dimension]?).map Std.TreeMap.toList

end Registry
end UnitAlgebra
