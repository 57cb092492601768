import Std.Data.TreeMap
import UnitAlgebra.BaseUnit
import UnitAlgebra.Definition.Table

/-!
# Registrations

A definition table is read as a list of registrations: dimension by dimension, every direct unit
followed by its expansions with the prefixes, then the composed units.  A table with a definition
that cannot be registered is refused with the first fault in that order.
-/

namespace UnitAlgebra

/-- One name that a definition table gives a meaning to. -/
inductive Registration (K : Type) [Scalar K] where
  /-- A base unit of a dimension, under its own name. -/
  | direct (dimension : String) (unit : BaseUnit K)
  /-- A composed unit. -/
  | composed (name : String) (composition : Composition)

namespace DimensionDefinitions

variable {K : Type} [Scalar K]

/-- The reference unit of a dimension: the first direct unit with the multiplier one. -/
def reference? (definitions : DimensionDefinitions K) : Option String :=
  (definitions.direct.find? fun (_, multiplier) => multiplier == 1).map Prod.fst

/-- The registrations of a direct unit: itself and its expansions with the prefixes. -/
def expansions (prefixes : List (String × K)) (dimension reference : String)
    (unit : String × K) : Except UnitError (List (Registration K)) := do
  let tag := dimensionTag dimension
  let plain ← BaseUnit.make unit.1 tag reference unit.2
  let expanded ← prefixes.mapM fun (written, multiplier) =>
    BaseUnit.make (Prefix.expand written unit.1) tag reference (multiplier * unit.2)
  return (plain :: expanded).map (Registration.direct dimension)

/-- The registration of a unit without dimension, whose multiplier has to be one. -/
def dimensionlessRegistration (unit : String × K) : Except UnitError (Registration K) :=
  if unit.2 == 1 then
    .ok (.direct dimensionlessName (.dimensionlessAs unit.1))
  else
    .error (.invalidDefinition (.dimensionlessMultiplier unit.1 (Scalar.text unit.2)))

/-- The registrations of the direct units of a dimension; prefixes need a dimension to apply to. -/
def directRegistrations (prefixes : List (String × K)) (definitions : DimensionDefinitions K) :
    Except UnitError (List (Registration K)) :=
  if definitions.name = dimensionlessName then
    definitions.direct.mapM dimensionlessRegistration
  else if definitions.direct.isEmpty then
    .ok []
  else
    match definitions.reference? with
    | none => .error (.invalidDefinition (.noBaseUnit definitions.name))
    | some reference => do
        let groups ← definitions.direct.mapM (expansions prefixes definitions.name reference)
        return groups.flatten

/-- The registration of a composed unit. -/
def composedRegistration (unit : String × Composition) : Except UnitError (Registration K) := do
  unit.2.check unit.1
  return .composed unit.1 unit.2

/-- The registrations of a dimension. -/
def registrations (prefixes : List (String × K)) (definitions : DimensionDefinitions K) :
    Except UnitError (List (Registration K)) := do
  let direct ← definitions.directRegistrations prefixes
  let composed ← definitions.composed.mapM composedRegistration
  return direct ++ composed

end DimensionDefinitions

namespace Definition

variable {K : Type} [Scalar K]

/-- Whether a definition is the multiplier one. -/
def isOne : Definition K → Bool
  | .multiplier value => value == 1
  | .composed _ => false

end Definition

namespace DefinitionTable

variable {K : Type} [Scalar K]

/-- Whether a table defines the dimensionless unit in the dimension that stands for none. -/
def definesDimensionless (table : DefinitionTable K) : Bool :=
  table.dimensions.any fun definitions =>
    definitions.name == dimensionlessName &&
      definitions.units.any fun (name, definition) => name == dimensionlessName && definition.isOne

/-- Accept a table that defines the dimensionless unit. -/
def checkDimensionless (table : DefinitionTable K) : Except UnitError Unit :=
  if table.definesDimensionless then .ok () else .error (.invalidDefinition .noDimensionless)

/-- The registrations of a table, in order. -/
def registrations (table : DefinitionTable K) : Except UnitError (List (Registration K)) := do
  table.checkDimensionless
  table.prefixes.forM fun (written, _) => Prefix.check written
  let groups ← table.dimensions.mapM fun definitions => definitions.registrations table.prefixes
  return groups.flatten

/-- The reference unit that a dimension of a table has, if it has one. -/
def referenceOf? (definitions : DimensionDefinitions K) : Option String :=
  if definitions.name = dimensionlessName then some dimensionlessName else definitions.reference?

/-- The reference units by dimension; of two dimensions of one name the later one counts. -/
def references (table : DefinitionTable K) : Std.TreeMap String String :=
  table.dimensions.foldl (fun known definitions =>
    match referenceOf? definitions with
    | some reference => known.insert definitions.name reference
    | none => known) ∅

end DefinitionTable
end UnitAlgebra
