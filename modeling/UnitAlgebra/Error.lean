import UnitAlgebra.Error.Fault

/-!
# Errors of unit algebra

Every operation that can fail fails with a `UnitError`.  An error has a code for programs, a message
for readers and, for most kinds, a suggestion.
-/

namespace UnitAlgebra

/-- The reason why an operation on units or quantities fails. -/
inductive UnitError where
  /-- A name is neither registered nor an expression or a number. -/
  | unknownUnit (name : String)
  /-- Two units have different dimensions. -/
  | dimensionMismatch (source target : String)
  /-- An expression has no meaning. -/
  | malformedExpression (fault : SyntaxFault)
  /-- Parts do not form a value. -/
  | invalidConstruction (fault : ConstructionFault)
  /-- Two magnitudes cannot be paired. -/
  | ambiguousBroadcast (fault : BroadcastFault)
  /-- A definition table cannot be used. -/
  | invalidDefinition (fault : DefinitionFault)
  deriving DecidableEq, Repr

namespace UnitError

/-- The code of an error. -/
def code : UnitError → String
  | .unknownUnit _ => "UNKNOWN_UNIT"
  | .dimensionMismatch _ _ => "DIMENSION_MISMATCH"
  | .malformedExpression _ => "MALFORMED_EXPRESSION"
  | .invalidConstruction _ => "INVALID_CONSTRUCTION"
  | .ambiguousBroadcast _ => "AMBIGUOUS_BROADCAST"
  | .invalidDefinition _ => "INVALID_DEFINITION"

/-- The message of an error. -/
def message : UnitError → String
  | .unknownUnit name => s!"Unknown unit: {name}"
  | .dimensionMismatch source target =>
      s!"Cannot convert between '{source}' and '{target}': incompatible dimensions"
  | .malformedExpression fault => s!"Malformed expression: {fault.details}"
  | .invalidConstruction fault => s!"Invalid construction: {fault.details}"
  | .ambiguousBroadcast fault => s!"Ambiguous broadcast: {fault.details}"
  | .invalidDefinition fault => s!"Invalid definition: {fault.details}"

/-- What can be done about an error, where something can. -/
def suggestion? : UnitError → Option String
  | .unknownUnit name =>
      some s!"Register '{name}' in the definition table or check spelling"
  | .dimensionMismatch _ _ =>
      some "Convert both operands to units of the same dimension first"
  | .malformedExpression _ =>
      some "Check parentheses and that every '*' or '/' has two operands"
  | .invalidConstruction _ => some "Resolve unit expressions through a Registry"
  | .ambiguousBroadcast _ => some "Combine list magnitudes element by element explicitly"
  | .invalidDefinition _ => none

end UnitError
end UnitAlgebra
