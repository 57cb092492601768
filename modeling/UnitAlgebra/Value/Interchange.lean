import UnitAlgebra.Json.Text
import UnitAlgebra.Value

/-!
# Values as JSON

A bare unit is written as its name, a magnitude as a number or a list of numbers, and a quantity as
an object of both.
-/

namespace UnitAlgebra

namespace Magnitude

/-- A magnitude as a JSON number or a list of them. -/
def toJson : Magnitude Float → Json
  | .scalar value => .number (.double value)
  | .list values => .array (values.map fun value => .number (.double value))

/-- The double that a JSON value is, if it is a number. -/
def doubleOfJson? : Json → Option Float
  | .number value => some value.toFloat
  | _ => none

/-- Read a magnitude from a number or a list of numbers. -/
def ofJson? : Json → Option (Magnitude Float)
  | .number value => some (.scalar value.toFloat)
  | .array items => (items.mapM doubleOfJson?).map .list
  | _ => none

/-- Read a magnitude from JSON text. -/
def ofText? (text : String) : Option (Magnitude Float) := do
  let json ← Json.ofText? text
  ofJson? json

end Magnitude

namespace Value

/-- A value as JSON. -/
def toJson : Value Float → Json
  | .bare unit => .string unit.name
  | .measured quantity =>
      .object [("magnitude", quantity.magnitude.toJson), ("unit", .string quantity.unit.name)]

end Value
end UnitAlgebra
