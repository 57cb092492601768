import UnitAlgebra.Definition.Table
import UnitAlgebra.Json.Text

/-!
# Definition tables as JSON

A table is written as an object of dimensions, each an object of units; the prefixes stand under a
reserved key among the dimensions.  A unit is a number or a composition, and a composition is an
object of its sides or the list of them.  Texts are read by a JSON library; errors show what it
writes of a value of the wrong shape.
-/

namespace UnitAlgebra

/-! ## Single definitions -/

namespace Composition

/-- Key of the names above the line. -/
def numeratorKey : String :=
  "numerator"

/-- Key of the names below the line. -/
def denominatorKey : String :=
  "denominator"

/-- The text that a JSON value is, if it is one. -/
def nameOfJson? : Json → Option String
  | .string name => some name
  | _ => none

/-- A side of a composition: a list of names, or `null` for a side that is left out. -/
def sideOfJson? : Json → Option (Option (List String))
  | .null => some none
  | .array items => (items.mapM nameOfJson?).map some
  | _ => none

/-- The side under a key: at most one entry may have the key. -/
def sideUnder? (entries : List (String × Json)) (key : String) : Option (Option (List String)) :=
  match entries.filter fun entry => entry.1 == key with
  | [] => some none
  | [entry] => sideOfJson? entry.2
  | _ => none

/-- Read a composition from an object without other keys, or from a list of at most two sides. -/
def ofJson? : Json → Option Composition
  | .array [] => some ⟨none, none⟩
  | .array [above] => do return ⟨← sideOfJson? above, none⟩
  | .array [above, below] => do return ⟨← sideOfJson? above, ← sideOfJson? below⟩
  | .object entries =>
      if entries.all fun entry => entry.1 == numeratorKey || entry.1 == denominatorKey then do
        return ⟨← sideUnder? entries numeratorKey, ← sideUnder? entries denominatorKey⟩
      else
        none
  | _ => none

/-- The entry of a side that is given. -/
def sideEntry (key : String) : Option (List String) → List (String × Json)
  | none => []
  | some names => [(key, .array (names.map .string))]

/-- A composition as an object of the sides that are given. -/
def toJson (composition : Composition) : Json :=
  .object (sideEntry numeratorKey composition.numerator
    ++ sideEntry denominatorKey composition.denominator)

end Composition

namespace Definition

/-- Read a definition: a number, or else a composition. -/
def ofJson? : Json → Option (Definition Float)
  | .number value => some (.multiplier value.toFloat)
  | json => (Composition.ofJson? json).map .composed

/-- Read a definition from JSON text, in which no key may be repeated. -/
def ofText? (text : String) : Option (Definition Float) := do
  let json ← Json.ofText? text
  ofJson? json

/-- A definition as JSON. -/
def toJson : Definition Float → Json
  | .multiplier value => .number (.double value)
  | .composed composition => composition.toJson

end Definition

/-! ## Tables -/

namespace DefinitionTable

/-- Key under which a table gives its prefixes. -/
def prefixKey : String :=
  "__prefixes__"

/-- Read a prefix with its multiplier. -/
def prefixOfEntry (entry : String × Json) : Except UnitError (String × Float) := do
  Prefix.check entry.1
  match entry.2 with
  | .number value => return (entry.1, value.toFloat)
  | _ => .error (.invalidDefinition (.prefixNotNumber entry.1))

/-- Read a unit with its definition. -/
def unitOfEntry (entry : String × Json) : Except UnitError (String × Definition Float) :=
  match Definition.ofJson? entry.2 with
  | some definition => .ok (entry.1, definition)
  | none => .error (.invalidDefinition (.unitShape entry.1))

section

variable (library : Json.Library)

/-- Read the prefixes of a table. -/
def prefixesOfJson : Json → Except UnitError (List (String × Float))
  | .object entries => entries.mapM prefixOfEntry
  | json => .error (.invalidDefinition (.prefixesNotObject prefixKey (library.write json)))

/-- Read the units of a dimension. -/
def dimensionOfJson (name : String) : Json → Except UnitError (DimensionDefinitions Float)
  | .object entries => do return ⟨name, ← entries.mapM unitOfEntry⟩
  | json => .error (.invalidDefinition (.dimensionNotObject name (library.write json)))

/-- Read one entry of a table: its prefixes or one of its dimensions. -/
def addEntry (table : DefinitionTable Float) (entry : String × Json) :
    Except UnitError (DefinitionTable Float) :=
  if entry.1 = prefixKey then do
    return { table with prefixes := ← prefixesOfJson library entry.2 }
  else do
    let dimension ← dimensionOfJson library entry.1 entry.2
    return { table with dimensions := table.dimensions ++ [dimension] }

/-- Read a table from a JSON value. -/
def ofJson : Json → Except UnitError (DefinitionTable Float)
  | .object entries => entries.foldlM (addEntry library) empty
  | _ => .error (.invalidDefinition .malformedText)

/-- Read a table from the text that a library reads. -/
def ofTextWith (text : String) : Except UnitError (DefinitionTable Float) :=
  match library.read? text with
  | some json => ofJson library json
  | none => .error (.invalidDefinition .malformedText)

end

/-- Read a table from JSON text. -/
def ofText : String → Except UnitError (DefinitionTable Float) :=
  ofTextWith Json.library

/-- Read a table from the contents of a file, or report that the file could not be read. -/
def ofFile (path : String) : Option String → Except UnitError (DefinitionTable Float)
  | some contents => ofText contents
  | none => .error (.invalidDefinition (.unreadableFile path))

end DefinitionTable
end UnitAlgebra
