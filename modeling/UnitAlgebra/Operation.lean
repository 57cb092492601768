/-!
# Arithmetic operations

The four operations on magnitudes and the two of them that expressions are written with.
-/

namespace UnitAlgebra

/-- An arithmetic operation on magnitudes. -/
inductive Operation where
  /-- The sum. -/
  | add
  /-- The difference. -/
  | subtract
  /-- The product. -/
  | multiply
  /-- The quotient. -/
  | divide
  deriving DecidableEq, Repr

namespace Operation

/-- The verb that names an operation in a message. -/
def verb : Operation → String
  | .add => "add"
  | .subtract => "subtract"
  | .multiply => "multiply"
  | .divide => "divide"

end Operation

/-- An operator of expressions. -/
inductive Operator where
  /-- The product of two values. -/
  | times
  /-- The quotient of two values. -/
  | over
  deriving DecidableEq, Repr

namespace Operator

/-- The mark that an operator is written with. -/
def mark : Operator → String
  | .times => "*"
  | .over => "/"

end Operator
end UnitAlgebra
