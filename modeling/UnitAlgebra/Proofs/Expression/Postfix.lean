import Mathlib.Data.List.TakeWhile
import UnitAlgebra.Proofs.Expression.Phrase
import UnitAlgebra.Proofs.Outcome

/-!
# Postfix code of phrases

The tokens of a phrase are brought into the postfix order of its tree, whatever waits before it and
follows after it.  An operator of the phrase may still wait at the end of it; a term leaves none
waiting.  Running the code of a tree puts the value of the tree on the stack.
-/

namespace UnitAlgebra
namespace Expression

variable {K : Type} [Scalar K]

/-! ## Tokens that wait -/

section

variable {waiting : List (Token K)} {token : Token K}

theorem inner_append_outer (waiting : List (Token K)) : inner waiting ++ outer waiting = waiting :=
  List.takeWhile_append_dropWhile

theorem isOpening_of_mem_inner (mem : token ∈ inner waiting) : token.isOpening = false := by
  simpa using List.mem_takeWhile_imp mem

theorem mem_of_mem_inner (mem : token ∈ inner waiting) : token ∈ waiting :=
  (List.takeWhile_prefix _).subset mem

theorem mem_of_mem_outer (mem : token ∈ outer waiting) : token ∈ waiting :=
  (List.dropWhile_suffix _).subset mem

/-- What waits outside of the innermost open parenthesis starts with that parenthesis. -/
theorem outer_cases (waiting : List (Token K)) :
    outer waiting = [] ∨ ∃ left, outer waiting = .opening :: left := by
  induction waiting with
  | nil => exact .inl rfl
  | cons token waiting induction =>
      cases token with
      | opening => exact .inr ⟨waiting, rfl⟩
      | closing => exact induction
      | operator operator => exact induction
      | operand value => exact induction

/-- No token waits inside the innermost open parenthesis. -/
def AtStart (waiting : List (Token K)) : Prop :=
  inner waiting = []

theorem atStart_nil : AtStart ([] : List (Token K)) := rfl

theorem atStart_opening (waiting : List (Token K)) : AtStart (.opening :: waiting) := rfl

theorem AtStart.outer_eq (start : AtStart waiting) : outer waiting = waiting := by
  have whole := inner_append_outer waiting
  rwa [start, List.nil_append] at whole

theorem not_isOpening_operator (operators : List Operator) :
    ∀ token ∈ operators.map (Token.operator (K := K)), (!token.isOpening) = true := by
  simp [Token.isOpening]

/-- The operators of an expression that still wait are taken before the next token. -/
theorem AtStart.inner_append (start : AtStart waiting) (operators : List Operator) :
    inner (operators.map .operator ++ waiting) = operators.map .operator := by
  rw [inner, List.takeWhile_append_of_pos (not_isOpening_operator operators)]
  exact (congrArg _ start).trans (List.append_nil _)

theorem AtStart.outer_append (start : AtStart waiting) (operators : List Operator) :
    outer (operators.map .operator ++ waiting) = waiting := by
  rw [outer, List.dropWhile_append_of_pos (not_isOpening_operator operators)]
  exact start.outer_eq

end

/-! ## Equations of the translation -/

section

variable {text : String} {waiting left : List (Token K)}

theorem postfixAfter_operand (value : Value K) (rest : List (Token K)) :
    postfixAfter text waiting (.operand value :: rest) =
      ([.operand value] ++ ·) <$> postfixAfter text waiting rest := by
  rw [postfixAfter]
  exact bind_pure_comp _ _

theorem postfixAfter_operator (operator : Operator) (rest : List (Token K)) :
    postfixAfter text waiting (.operator operator :: rest) =
      (inner waiting ++ ·) <$> postfixAfter text (.operator operator :: outer waiting) rest := by
  rw [postfixAfter]
  exact bind_pure_comp _ _

theorem postfixAfter_opening (rest : List (Token K)) :
    postfixAfter text waiting (.opening :: rest) =
      postfixAfter text (.opening :: waiting) rest := by
  rw [postfixAfter]

theorem postfixAfter_closing (outer_eq : outer waiting = .opening :: left)
    (rest : List (Token K)) :
    postfixAfter text waiting (.closing :: rest) =
      (inner waiting ++ ·) <$> postfixAfter text left rest := by
  rw [postfixAfter, outer_eq]
  exact bind_pure_comp _ _

theorem append_map_append (front back : List (Token K))
    (outcome : Except SyntaxFault (List (Token K))) :
    (front ++ ·) <$> (back ++ ·) <$> outcome = (front ++ back ++ ·) <$> outcome := by
  rw [Functor.map_map]
  simp only [List.append_assoc]

end

/-! ## Translation of phrases -/

/--
How a phrase is translated: a term gives its code at once, and an expression at the start of a group
gives its code up to some operators that wait.
-/
def Translates (text : String) (category : Category) (tree : Tree (Value K))
    (tokens : List (Token K)) : Prop :=
  match category with
  | .term =>
      ∀ waiting rest, postfixAfter text waiting (Token.joinAfter false tokens ++ rest) =
        (tree.code ++ ·) <$> postfixAfter text waiting rest
  | .expression =>
      ∀ waiting, AtStart waiting →
        ∃ (code : List (Token K)) (operators : List Operator),
          tree.code = code ++ operators.map .operator ∧
            ∀ rest, postfixAfter text waiting (Token.joinAfter false tokens ++ rest) =
              (code ++ ·) <$> postfixAfter text (operators.map .operator ++ waiting) rest

/-- An expression, an operator and a term are translated to the code of both and a wait. -/
theorem translates_operator {text : String} {operator : Operator} {left right : Tree (Value K)}
    {front back : List (Token K)} (before : Translates text .expression left front)
    (after : Translates text .term right back) {waiting : List (Token K)}
    (start : AtStart waiting) (rest : List (Token K)) :
    postfixAfter text waiting
        (Token.joinAfter false front ++ .operator operator :: Token.joinAfter false back ++ rest) =
      (left.code ++ right.code ++ ·) <$>
        postfixAfter text (.operator operator :: waiting) rest := by
  obtain ⟨code, operators, code_eq, translated⟩ := before waiting start
  rw [List.append_assoc, translated, List.cons_append, postfixAfter_operator,
    start.inner_append, start.outer_append, after, append_map_append, append_map_append, code_eq]

theorem Phrase.translates (text : String) {category : Category} {tree : Tree (Value K)}
    {tokens : List (Token K)} (phrase : Phrase category tree tokens) :
    Translates text category tree tokens := by
  induction phrase with
  | operand value =>
      intro waiting rest
      exact postfixAfter_operand value rest
  | @group tree tokens inside induction =>
      intro waiting rest
      have start := atStart_opening waiting
      obtain ⟨code, operators, code_eq, translated⟩ := induction (.opening :: waiting) start
      rw [inside.joinAfter_group, List.append_assoc, List.cons_append, postfixAfter_opening,
        translated, List.singleton_append, postfixAfter_closing (start.outer_append operators),
        start.inner_append, append_map_append, code_eq]
  | @term tree tokens inside induction =>
      intro waiting start
      exact ⟨tree.code, [], by simp, induction waiting⟩
  | operator operator before after before_induction after_induction =>
      intro waiting start
      refine ⟨_, [operator], rfl, fun rest => ?_⟩
      rw [before.joinAfter_operator]
      exact translates_operator before_induction after_induction start rest
  | adjacent before after before_induction after_induction =>
      intro waiting start
      refine ⟨_, [.times], rfl, fun rest => ?_⟩
      rw [before.joinAfter_adjacent after]
      exact translates_operator before_induction after_induction start rest

theorem Phrase.toPostfix_eq (text : String) {tree : Tree (Value K)} {tokens : List (Token K)}
    (phrase : Phrase .expression tree tokens) :
    toPostfix text (Token.joinNeighbours tokens) = .ok tree.code := by
  obtain ⟨code, operators, code_eq, translated⟩ := phrase.translates text [] atStart_nil
  have whole := translated []
  rw [List.append_nil] at whole
  rw [toPostfix, Token.joinNeighbours_eq_joinAfter, whole, postfixAfter,
    atStart_nil.outer_append, atStart_nil.inner_append, code_eq]
  rfl

/-! ## Running the code of a tree -/

/-- The code of a tree puts its value on the stack, whatever is on it and whatever follows. -/
theorem Tree.foldlM_code (text : String) {tree : Tree (Value K)} {value : Value K}
    (evaluated : tree.evaluate .ok = .ok value) (rest : List (Token K))
    (stack : List (Value K)) :
    (tree.code ++ rest).foldlM (execute text) stack =
      rest.foldlM (execute text) (value :: stack) := by
  induction tree generalizing value rest stack with
  | leaf leaf =>
      obtain rfl := Except.ok.inj evaluated
      rfl
  | node operator left right left_induction right_induction =>
      obtain ⟨left_value, left_eq, rest_eq⟩ := Outcome.exists_of_bind_eq_ok evaluated
      obtain ⟨right_value, right_eq, combined⟩ := Outcome.exists_of_bind_eq_ok rest_eq
      rw [Tree.code, List.append_assoc, List.append_assoc, left_induction left_eq,
        right_induction right_eq, List.singleton_append, List.foldlM_cons, execute, combined]
      rfl

theorem Tree.compute_code (registry : Registry K) (text : String) {tree : Tree (Value K)}
    {value : Value K} (evaluated : tree.evaluate .ok = .ok value) :
    compute registry text tree.code = .ok value := by
  have run := tree.foldlM_code text evaluated [] []
  rw [List.append_nil] at run
  rw [compute, run]
  rfl

end Expression
end UnitAlgebra
