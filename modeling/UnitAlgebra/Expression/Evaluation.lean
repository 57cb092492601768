import UnitAlgebra.Expression.Token

/-!
# Evaluation of expressions

An expression is split into words, read into tokens, brought into postfix order and computed on a
stack of values.  The empty expression denotes the unit without dimensions.

In postfix order operands keep their order, and every operator follows its two operands.  All
operators have one precedence and associate to the left, so an operator waits only until the next
operator, the end of its group or the end of the expression.
-/

namespace UnitAlgebra
namespace Expression

variable {K : Type} [Scalar K]

/-! ## Postfix order -/

/-- The tokens that wait inside the innermost open parenthesis. -/
def inner (waiting : List (Token K)) : List (Token K) :=
  waiting.takeWhile fun token => !token.isOpening

/-- The innermost open parenthesis, if there is one, and the tokens that wait outside of it. -/
def outer (waiting : List (Token K)) : List (Token K) :=
  waiting.dropWhile fun token => !token.isOpening

/--
The postfix order of the tokens that follow while some operators and opening parentheses wait, the
last of them first.
-/
def postfixAfter (text : String) (waiting : List (Token K)) :
    List (Token K) → Except SyntaxFault (List (Token K))
  | [] =>
      match outer waiting with
      | [] => .ok (inner waiting)
      | _ => .error (.unmatchedOpen text)
  | .operand value :: rest => do
      return .operand value :: (← postfixAfter text waiting rest)
  | .operator symbol :: rest => do
      return inner waiting ++ (← postfixAfter text (.operator symbol :: outer waiting) rest)
  | .opening :: rest => postfixAfter text (.opening :: waiting) rest
  | .closing :: rest =>
      match outer waiting with
      | .opening :: left => do
          return inner waiting ++ (← postfixAfter text left rest)
      | _ => .error (.unmatchedClose text)

/-- The tokens of a text in postfix order. -/
def toPostfix (text : String) (tokens : List (Token K)) : Except SyntaxFault (List (Token K)) :=
  postfixAfter text [] tokens

/-! ## Computation -/

/-- Carry out one token of the postfix order on a stack of values. -/
def execute (text : String) (stack : List (Value K)) :
    Token K → Except UnitError (List (Value K))
  | .operand value => .ok (value :: stack)
  | .operator operator =>
      match stack with
      | right :: left :: rest => do return (← left.combine operator right) :: rest
      | _ => .error (.malformedExpression (.missingOperand operator text))
  | .opening =>
      .error (.malformedExpression (.unexpectedParenthesis (Token.opening : Token K).display text))
  | .closing =>
      .error (.malformedExpression (.unexpectedParenthesis (Token.closing : Token K).display text))

/-- The value that a finished stack holds. -/
def result (registry : Registry K) (text : String) : List (Value K) → Except UnitError (Value K)
  | [] => .ok (.bare registry.dimensionless)
  | [value] => .ok value
  | stack =>
      .error (.malformedExpression (.unusedOperands text (stack.reverse.map Value.display)))

/-- The value that tokens in postfix order compute on an empty stack. -/
def compute (registry : Registry K) (text : String) (code : List (Token K)) :
    Except UnitError (Value K) := do
  let stack ← code.foldlM (execute text) []
  result registry text stack

/-- The value of an expression over the units of a registry. -/
def evaluate (registry : Registry K) (text : String) : Except UnitError (Value K) := do
  let tokens ← Token.ofText registry text
  let code ← (toPostfix text tokens).mapError .malformedExpression
  compute registry text code

end Expression
end UnitAlgebra
