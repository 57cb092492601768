import UnitAlgebra.Expression.Evaluation

/-!
# Resolution of names and expressions

A text is resolved to the unit that is registered under it or else to the value that it has as an
expression.  Values of expressions are remembered in a memo, so that a text is evaluated only once;
failures are not remembered.
-/

namespace UnitAlgebra
namespace Registry

variable {K : Type} [Scalar K]

/-- The value of a name, or of an expression if those are allowed. -/
def resolveWith (registry : Registry K) (text : String) (allowExpression : Bool) :
    Except UnitError (Value K) :=
  match registry.lookup? text with
  | some unit => .ok (.bare unit)
  | none =>
      if allowExpression then Expression.evaluate registry text else .error (.unknownUnit text)

/-- The value of a name or an expression. -/
def resolve (registry : Registry K) (text : String) : Except UnitError (Value K) :=
  registry.resolveWith text true

/-- The bare unit that a name or an expression denotes. -/
def resolveUnit (registry : Registry K) (text : String) : Except UnitError (CompoundUnit K) := do
  (← registry.resolve text).toUnit

/-- The quantity that a name or an expression denotes; a bare unit has magnitude one. -/
def resolveQuantity (registry : Registry K) (text : String) : Except UnitError (Quantity K) := do
  return (← registry.resolve text).toQuantity

/-- A quantity in the bare unit that a name or an expression denotes. -/
def convert (registry : Registry K) (quantity : Quantity K) (target : String) :
    Except UnitError (Quantity K) := do
  quantity.convert (← registry.resolveUnit target)

/-! ## Memo -/

/-- Values of expressions that have been evaluated before. -/
abbrev Memo (K : Type) [Scalar K] :=
  Std.TreeMap String (Value K)

/-- The value of a name or an expression, taken from the memo where it is remembered. -/
def answerWith (registry : Registry K) (text : String) (allowExpression : Bool) (memo : Memo K) :
    Except UnitError (Value K) × Memo K :=
  match registry.lookup? text with
  | some unit => (.ok (.bare unit), memo)
  | none =>
      if allowExpression then
        match memo[text]? with
        | some value => (.ok value, memo)
        | none =>
            match Expression.evaluate registry text with
            | .ok value => (.ok value, memo.insert text value)
            | .error failure => (.error failure, memo)
      else
        (.error (.unknownUnit text), memo)

/-- The value of a name or an expression, taken from the memo where it is remembered. -/
def answer (registry : Registry K) (text : String) (memo : Memo K) :
    Except UnitError (Value K) × Memo K :=
  registry.answerWith text true memo

/-- The bare unit that a name or an expression denotes, with the memo. -/
def answerUnit (registry : Registry K) (text : String) (memo : Memo K) :
    Except UnitError (CompoundUnit K) × Memo K :=
  let (value, later) := registry.answer text memo
  (value.bind Value.toUnit, later)

/-- The quantity that a name or an expression denotes, with the memo. -/
def answerQuantity (registry : Registry K) (text : String) (memo : Memo K) :
    Except UnitError (Quantity K) × Memo K :=
  let (value, later) := registry.answer text memo
  (value.map Value.toQuantity, later)

/-- A quantity in the bare unit that a name or an expression denotes, with the memo. -/
def answerConversion (registry : Registry K) (quantity : Quantity K) (target : String)
    (memo : Memo K) : Except UnitError (Quantity K) × Memo K :=
  let (unit, later) := registry.answerUnit target memo
  (unit.bind quantity.convert, later)

end Registry
end UnitAlgebra
