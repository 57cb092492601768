import UnitAlgebra.Error
import UnitAlgebra.Magnitude

/-!
# Definition tables

A definition table lists prefixes and, dimension by dimension, the definitions of units.  A unit is
defined by its multiplier to the reference unit of its dimension or as a composition of other named
units.  All lists keep the order in which they are written: the order decides which unit is the
reference and which of two definitions of one name holds.

A prefix such as `kilo-` is written with a mark at its end, which it loses when it is put before a
unit name.
-/

namespace UnitAlgebra

/-! ## Prefixes -/

namespace Prefix

/-- The mark at the end of a written prefix. -/
def mark : Char :=
  '-'

/-- What a written prefix is without the mark at its end, if it has one. -/
def stem? (written : String) : Option String :=
  match written.toList.reverse with
  | [] => none
  | last :: stem => if last = mark then some (String.ofList stem.reverse) else none

/-- Accept a written prefix that has a mark at its end and something before it. -/
def check (written : String) : Except UnitError Unit :=
  match stem? written with
  | some stem =>
      if stem.isEmpty then
        .error (.invalidDefinition (.prefixMark written mark.toString))
      else
        .ok ()
  | none => .error (.invalidDefinition (.prefixMark written mark.toString))

/-- The unit name that a prefix makes of another one. -/
def expand (written name : String) : String :=
  (stem? written).getD written ++ name

end Prefix

/-! ## Definitions -/

/-- A quotient of products of named units; a side may be left out. -/
structure Composition where
  /-- Names above the line. -/
  numerator : Option (List String)
  /-- Names below the line. -/
  denominator : Option (List String)
  deriving DecidableEq, Repr

namespace Composition

/-- The composition of two given sides. -/
def ofSides (numerator denominator : List String) : Composition :=
  ⟨some numerator, some denominator⟩

/-- Names above the line, none if the side is left out. -/
def above (composition : Composition) : List String :=
  composition.numerator.getD []

/-- Names below the line, none if the side is left out. -/
def below (composition : Composition) : List String :=
  composition.denominator.getD []

/-- The named parts in order, each with the operator that joins it to those before it. -/
def parts (composition : Composition) : List (Operator × String) :=
  composition.above.map (Operator.times, ·) ++ composition.below.map (Operator.over, ·)

/-- Whether at least one side is given. -/
def hasSide (composition : Composition) : Bool :=
  composition.numerator.isSome || composition.denominator.isSome

/-- Accept the composition of a name that gives at least one side. -/
def check (composition : Composition) (name : String) : Except UnitError Unit :=
  if composition.hasSide then .ok () else .error (.invalidConstruction (.noSides name))

end Composition

/-- The definition of one unit. -/
inductive Definition (K : Type) where
  /-- How many reference units of its dimension the unit is. -/
  | multiplier (value : K)
  /-- The unit is composed of other units. -/
  | composed (composition : Composition)
  deriving Repr

/-- The definitions of one dimension, in order. -/
structure DimensionDefinitions (K : Type) where
  /-- Name of the dimension. -/
  name : String
  /-- Names and definitions of its units. -/
  units : List (String × Definition K)
  deriving Repr

namespace DimensionDefinitions

variable {K : Type}

/-- The units that are defined by a multiplier. -/
def direct (dimension : DimensionDefinitions K) : List (String × K) :=
  dimension.units.filterMap fun (name, definition) =>
    match definition with
    | .multiplier value => some (name, value)
    | .composed _ => none

/-- The units that are composed of other units. -/
def composed (dimension : DimensionDefinitions K) : List (String × Composition) :=
  dimension.units.filterMap fun (name, definition) =>
    match definition with
    | .multiplier _ => none
    | .composed composition => some (name, composition)

end DimensionDefinitions

/-- Prefixes and dimensions, in order. -/
structure DefinitionTable (K : Type) where
  /-- Written prefixes with their multipliers. -/
  prefixes : List (String × K)
  /-- Dimensions with their definitions. -/
  dimensions : List (DimensionDefinitions K)
  deriving Repr

namespace DefinitionTable

variable {K : Type}

/-- The table without definitions. -/
def empty : DefinitionTable K :=
  ⟨[], []⟩

/-- Put a prefix at the end of a table. -/
def withPrefix (table : DefinitionTable K) (written : String) (multiplier : K) :
    DefinitionTable K :=
  { table with prefixes := table.prefixes ++ [(written, multiplier)] }

/-- Put a definition at the end of the first dimension of a name, or into a new last dimension. -/
def insertDefinition (dimension name : String) (definition : Definition K) :
    List (DimensionDefinitions K) → List (DimensionDefinitions K)
  | [] => [⟨dimension, [(name, definition)]⟩]
  | first :: rest =>
      if first.name = dimension then
        ⟨first.name, first.units ++ [(name, definition)]⟩ :: rest
      else
        first :: insertDefinition dimension name definition rest

/-- Put a definition into a dimension of a table. -/
def withDefinition (table : DefinitionTable K) (dimension name : String)
    (definition : Definition K) : DefinitionTable K :=
  { table with dimensions := insertDefinition dimension name definition table.dimensions }

/-- Put a unit with a multiplier into a dimension of a table. -/
def withUnit (table : DefinitionTable K) (dimension name : String) (multiplier : K) :
    DefinitionTable K :=
  table.withDefinition dimension name (.multiplier multiplier)

/-- Put a composed unit into a dimension of a table. -/
def withComposed (table : DefinitionTable K) (dimension name : String)
    (composition : Composition) : DefinitionTable K :=
  table.withDefinition dimension name (.composed composition)

end DefinitionTable
end UnitAlgebra
