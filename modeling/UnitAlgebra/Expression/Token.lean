import UnitAlgebra.Expression.Word
import UnitAlgebra.Registry
import UnitAlgebra.Value

/-!
# Tokens of an expression

A token is an operator, a parenthesis or an operand.  A word that is no mark has to be a registered
name or else a number; a number stands for a quantity without dimension.
-/

namespace UnitAlgebra
namespace Expression

/-- A token of an expression. -/
inductive Token (K : Type) [Scalar K] where
  /-- An operator. -/
  | operator (operator : Operator)
  /-- An opening parenthesis. -/
  | opening
  /-- A closing parenthesis. -/
  | closing
  /-- A value. -/
  | operand (value : Value K)

namespace Token

variable {K : Type} [Scalar K]

/-- The token of a mark. -/
def ofMark : Mark → Token K
  | .operator symbol => .operator symbol
  | .opening => .opening
  | .closing => .closing

/-- The value of a word that is a registered name or a number. -/
def valueOfWord? (registry : Registry K) (text : List Char) : Option (Value K) :=
  match registry.lookup? (String.ofList text) with
  | some unit => some (.bare unit)
  | none =>
      (Scalar.ofWord? K text).map fun number =>
        .measured (.ofNumber number registry.dimensionless)

/-- The token of a word. -/
def ofWord (registry : Registry K) : Word → Except UnitError (Token K)
  | .mark mark => .ok (ofMark mark)
  | .plain text =>
      match valueOfWord? registry text with
      | some value => .ok (.operand value)
      | none => .error (.unknownUnit (String.ofList text))

/-- Whether an operand may end with a token. -/
def endsOperand : Token K → Bool
  | .operand _ => true
  | .closing => true
  | .operator _ => false
  | .opening => false

/-- Whether an operand may start with a token. -/
def startsOperand : Token K → Bool
  | .operand _ => true
  | .opening => true
  | .operator _ => false
  | .closing => false

/-- Whether a token is an opening parenthesis. -/
def isOpening : Token K → Bool
  | .opening => true
  | .operator _ => false
  | .closing => false
  | .operand _ => false

/-- Equality of tokens; operands are compared as values. -/
def equals : Token K → Token K → Bool
  | .operator left, .operator right => left == right
  | .opening, .opening => true
  | .closing, .closing => true
  | .operand left, .operand right => left == right
  | _, _ => false

instance : BEq (Token K) := ⟨equals⟩

/-- A token as it is shown to a reader. -/
def display : Token K → String
  | .operator symbol => symbol.mark
  | .opening => "("
  | .closing => ")"
  | .operand value => value.display

/-- Write a multiplication between neighbours of which one ends and the next starts an operand. -/
def joinNeighbours : List (Token K) → List (Token K)
  | [] => []
  | [last] => [last]
  | first :: second :: rest =>
      if first.endsOperand && second.startsOperand then
        first :: .operator .times :: joinNeighbours (second :: rest)
      else
        first :: joinNeighbours (second :: rest)

/-- The tokens of a text, with every multiplication written out. -/
def ofText (registry : Registry K) (text : String) : Except UnitError (List (Token K)) := do
  let tokens ← (words text).mapM (ofWord registry)
  return joinNeighbours tokens

end Token
end Expression
end UnitAlgebra
