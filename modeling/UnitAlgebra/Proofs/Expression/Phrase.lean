import Mathlib.Data.List.Basic
import UnitAlgebra.Expression.Evaluation
import UnitAlgebra.Proofs.Value

/-!
# Phrases

A phrase is a sequence of tokens that the grammar of expressions derives, together with the tree
that it spells: an operator takes everything before it as its left operand and one term as its right
operand.  The passes of the evaluator turn every phrase into the postfix code of its tree, and that
code computes the value of the tree.
-/

namespace UnitAlgebra
namespace Expression

/-! ## Trees -/

/-- An expression as a tree of operators. -/
inductive Tree (Leaf : Type) where
  /-- An operand. -/
  | leaf (value : Leaf)
  /-- An operator with its two operands. -/
  | node (operator : Operator) (left right : Tree Leaf)

variable {K : Type} [Scalar K]

namespace Tree

/-- The value of a tree, from the leaves up and with the left operand first. -/
def evaluate {Leaf : Type} (read : Leaf → Except UnitError (Value K)) :
    Tree Leaf → Except UnitError (Value K)
  | .leaf value => read value
  | .node operator left right => do
      let leftValue ← left.evaluate read
      let rightValue ← right.evaluate read
      leftValue.combine operator rightValue

/-- The tokens of a tree in postfix order. -/
def code : Tree (Value K) → List (Token K)
  | .leaf value => [.operand value]
  | .node operator left right => left.code ++ right.code ++ [.operator operator]

end Tree

/-! ## Grammar -/

/-- A category of the grammar of expressions. -/
inductive Category where
  /-- What can be the right operand of an operator. -/
  | term
  /-- A whole expression. -/
  | expression
  deriving DecidableEq, Repr

/-- The token sequences that the grammar derives, with their trees. -/
inductive Phrase : Category → Tree (Value K) → List (Token K) → Prop where
  /-- An operand is a term. -/
  | operand (value : Value K) : Phrase .term (.leaf value) [.operand value]
  /-- An expression between parentheses is a term. -/
  | group {tree : Tree (Value K)} {tokens : List (Token K)}
      (inner : Phrase .expression tree tokens) :
      Phrase .term tree (.opening :: tokens ++ [.closing])
  /-- A term is an expression. -/
  | term {tree : Tree (Value K)} {tokens : List (Token K)} (inner : Phrase .term tree tokens) :
      Phrase .expression tree tokens
  /-- An operator takes an expression before it and a term after it. -/
  | operator (operator : Operator) {left right : Tree (Value K)} {front back : List (Token K)}
      (before : Phrase .expression left front) (after : Phrase .term right back) :
      Phrase .expression (.node operator left right) (front ++ .operator operator :: back)
  /-- An expression and a term side by side are a product. -/
  | adjacent {left right : Tree (Value K)} {front back : List (Token K)}
      (before : Phrase .expression left front) (after : Phrase .term right back) :
      Phrase .expression (.node .times left right) (front ++ back)

/-! ## Multiplications between neighbours -/

namespace Token

/-- Write a multiplication before every token that starts an operand where one ends. -/
def joinAfter (after_operand : Bool) : List (Token K) → List (Token K)
  | [] => []
  | token :: rest =>
      if after_operand && token.startsOperand then
        .operator .times :: token :: joinAfter token.endsOperand rest
      else
        token :: joinAfter token.endsOperand rest

theorem joinNeighbours_eq_joinAfter (tokens : List (Token K)) :
    joinNeighbours tokens = joinAfter false tokens := by
  fun_induction joinNeighbours tokens with
  | case1 => rfl
  | case2 last => simp [joinAfter]
  | case3 first second rest neighbours induction =>
      rw [induction]
      simp [joinAfter, neighbours]
  | case4 first second rest apart induction =>
      rw [induction]
      simp [joinAfter, apart]

/-- Whether an operand ends with the last token, or before the first if there is none. -/
def endsAfter (after_operand : Bool) (tokens : List (Token K)) : Bool :=
  tokens.foldl (fun _ token => token.endsOperand) after_operand

theorem joinAfter_append (after_operand : Bool) (front back : List (Token K)) :
    joinAfter after_operand (front ++ back) =
      joinAfter after_operand front ++ joinAfter (endsAfter after_operand front) back := by
  induction front generalizing after_operand with
  | nil => rfl
  | cons token front induction =>
      rw [List.cons_append, joinAfter, joinAfter, induction]
      split <;> rfl

end Token

namespace Phrase

variable {category : Category} {tree : Tree (Value K)} {tokens : List (Token K)}

theorem endsAfter_eq_true (phrase : Phrase category tree tokens) (after_operand : Bool) :
    Token.endsAfter after_operand tokens = true := by
  induction phrase generalizing after_operand with
  | operand value => rfl
  | group inner induction => simp [Token.endsAfter, Token.endsOperand]
  | term inner induction => exact induction after_operand
  | operator operator before after before_induction after_induction =>
      simpa [Token.endsAfter] using after_induction (Token.operator (K := K) operator).endsOperand
  | adjacent before after before_induction after_induction =>
      rw [Token.endsAfter, List.foldl_append]
      exact after_induction _

/-- A phrase starts an operand. -/
theorem joinAfter_true (phrase : Phrase category tree tokens) :
    Token.joinAfter true tokens = .operator .times :: Token.joinAfter false tokens := by
  induction phrase with
  | operand value => rfl
  | group inner induction => rfl
  | term inner induction => exact induction
  | operator operator before after before_induction after_induction =>
      rw [Token.joinAfter_append, Token.joinAfter_append, before_induction,
        before.endsAfter_eq_true, before.endsAfter_eq_true, List.cons_append]
  | adjacent before after before_induction after_induction =>
      rw [Token.joinAfter_append, Token.joinAfter_append, before_induction,
        before.endsAfter_eq_true, before.endsAfter_eq_true, List.cons_append]

theorem joinAfter_operator (before : Phrase .expression tree tokens) (operator : Operator)
    (back : List (Token K)) :
    Token.joinAfter false (tokens ++ .operator operator :: back) =
      Token.joinAfter false tokens ++ .operator operator :: Token.joinAfter false back := by
  rw [Token.joinAfter_append, before.endsAfter_eq_true]
  rfl

theorem joinAfter_adjacent {right : Tree (Value K)} {back : List (Token K)}
    (before : Phrase .expression tree tokens) (after : Phrase .term right back) :
    Token.joinAfter false (tokens ++ back) =
      Token.joinAfter false tokens ++ .operator .times :: Token.joinAfter false back := by
  rw [Token.joinAfter_append, before.endsAfter_eq_true, after.joinAfter_true]

theorem joinAfter_group (inner : Phrase .expression tree tokens) :
    Token.joinAfter false (.opening :: tokens ++ [.closing]) =
      .opening :: Token.joinAfter false tokens ++ [.closing] := by
  change .opening :: Token.joinAfter false (tokens ++ [.closing]) = _
  rw [Token.joinAfter_append, inner.endsAfter_eq_true]
  rfl

end Phrase
end Expression
end UnitAlgebra
