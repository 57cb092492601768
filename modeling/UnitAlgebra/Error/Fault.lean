import UnitAlgebra.Operation

/-!
# Faults

A fault is the cause of an error: what is wrong with an expression, with a construction, with two
list magnitudes or with a definition.  Each fault has one wording.  A caller with a cause of its own
gives the wording itself.
-/

namespace UnitAlgebra

/-- What keeps an expression from having a meaning. -/
inductive SyntaxFault where
  /-- A closing parenthesis has no opening one before it. -/
  | unmatchedClose (expression : String)
  /-- An opening parenthesis is never closed. -/
  | unmatchedOpen (expression : String)
  /-- An operator lacks an operand. -/
  | missingOperand (operator : Operator) (expression : String)
  /-- A parenthesis stands where operands are combined. -/
  | unexpectedParenthesis (parenthesis expression : String)
  /-- Several operands are left over at the end. -/
  | unusedOperands (expression : String) (operands : List String)
  /-- A cause in the caller's words. -/
  | other (details : String)
  deriving DecidableEq, Repr

/-- Wording of a fault in an expression. -/
def SyntaxFault.details : SyntaxFault → String
  | .unmatchedClose expression => s!"unmatched ')' in '{expression}'"
  | .unmatchedOpen expression => s!"unmatched '(' in '{expression}'"
  | .missingOperand operator expression =>
      s!"'{operator.mark}' is missing an operand in '{expression}'"
  | .unexpectedParenthesis parenthesis expression =>
      s!"unexpected '{parenthesis}' in '{expression}'"
  | .unusedOperands expression operands =>
      s!"'{expression}' leaves unused operands: " ++ ", ".intercalate operands
  | .other details => details

/-- What keeps parts from forming a value. -/
inductive ConstructionFault where
  /-- A power is not a positive integer. -/
  | powerNotPositive (base : String)
  /-- A bare unit is needed where a quantity is given. -/
  | unitExpected (quantity : String)
  /-- A composition gives neither of its sides. -/
  | noSides (name : String)
  /-- A cause in the caller's words. -/
  | other (details : String)
  deriving DecidableEq, Repr

/-- Wording of a fault in a construction. -/
def ConstructionFault.details : ConstructionFault → String
  | .powerNotPositive base => s!"power of '{base}' must be a positive integer"
  | .unitExpected quantity => s!"expected a unit, got the quantity '{quantity}'"
  | .noSides name => s!"derived unit '{name}' has neither numerator nor denominator"
  | .other details => details

/-- What keeps two magnitudes from being combined element by element. -/
inductive BroadcastFault where
  /-- Two lists differ in length. -/
  | lengths (operation : Operation) (left right : Nat)
  /-- Two lists meet in an operation that takes at most one. -/
  | twoLists (operation : Operation)
  /-- A cause in the caller's words. -/
  | other (details : String)
  deriving DecidableEq, Repr

/-- Wording of a fault of two magnitudes. -/
def BroadcastFault.details : BroadcastFault → String
  | .lengths operation left right =>
      s!"cannot {operation.verb} lists of length {left} and {right}"
  | .twoLists operation => s!"cannot {operation.verb} two list magnitudes"
  | .other details => details

/-- What keeps a definition table from being used. -/
inductive DefinitionFault where
  /-- The text is no JSON object. -/
  | malformedText
  /-- The file cannot be read. -/
  | unreadableFile (path : String)
  /-- The prefixes are not given as an object. -/
  | prefixesNotObject (key found : String)
  /-- A prefix lacks the mark at its end or a stem before it. -/
  | prefixMark (written mark : String)
  /-- A prefix is not given a number. -/
  | prefixNotNumber (written : String)
  /-- The units of a dimension are not given as an object. -/
  | dimensionNotObject (dimension found : String)
  /-- A unit is given neither as a number nor as a composition. -/
  | unitShape (name : String)
  /-- A multiplier is not a positive number. -/
  | multiplierNotPositive (name multiplier : String)
  /-- No unit of a dimension has the multiplier one. -/
  | noBaseUnit (dimension : String)
  /-- The table lacks the dimensionless unit. -/
  | noDimensionless
  /-- A unit without dimension has a multiplier other than one. -/
  | dimensionlessMultiplier (name multiplier : String)
  /-- A composition refers to itself through the names on the path. -/
  | circular (name : String) (path : List String)
  /-- A composition cancels units of different size. -/
  | lossyCancellation (name factor : String)
  /-- A cause in the caller's words. -/
  | other (details : String)
  deriving DecidableEq, Repr

/-- Wording of a fault in a definition table. -/
def DefinitionFault.details : DefinitionFault → String
  | .malformedText => "malformed JSON"
  | .unreadableFile path => s!"cannot read {path}"
  | .prefixesNotObject key found => s!"'{key}' must map prefixes to multipliers, got {found}"
  | .prefixMark written mark => s!"prefix '{written}' must end with '{mark}'"
  | .prefixNotNumber written => s!"prefix '{written}' must have a numeric multiplier"
  | .dimensionNotObject dimension found =>
      s!"dimension '{dimension}' must map unit names to definitions, got {found}"
  | .unitShape name =>
      s!"unit '{name}': data did not match any variant of untagged enum UnitDefinition"
  | .multiplierNotPositive name multiplier =>
      s!"multiplier for '{name}' must be a positive number, got {multiplier}"
  | .noBaseUnit dimension =>
      s!"no base unit (multiplier 1) defined for dimension '{dimension}'"
  | .noDimensionless =>
      "a 'dimensionless' unit with multiplier 1 must be defined in the 'dimensionless' dimension"
  | .dimensionlessMultiplier name multiplier =>
      s!"dimensionless unit '{name}' must have multiplier 1, got {multiplier}"
  | .circular name path =>
      let steps := " -> ".intercalate path
      s!"derived unit '{name}' is defined in terms of itself ({steps} -> {name})"
  | .lossyCancellation name factor =>
      s!"derived unit '{name}' cancels units of different size (factor {factor})"
  | .other details => details

end UnitAlgebra
