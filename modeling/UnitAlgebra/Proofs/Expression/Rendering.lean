import Mathlib.Algebra.Order.Field.Rat
import UnitAlgebra.Proofs.Decimal.Literal
import UnitAlgebra.Proofs.Expression.Postfix
import UnitAlgebra.Scalar

/-!
# Written expressions

A tree of names and numbers can be written in many ways: with any blanks, with parentheses beyond
those that a compound right operand needs, and with a product as a mark or by mere adjacency.  Every
way of writing it is evaluated to the value of the tree.
-/

namespace UnitAlgebra
namespace Expression

/-! ## Writing -/

/-- The ways to write a tree of words, as a term or as an expression. -/
inductive Renders : Category → Tree (List Char) → List Char → Prop where
  /-- A word is written as it is. -/
  | leaf (word : List Char) : Renders .term (.leaf word) word
  /-- A blank may be put before anything. -/
  | blankBefore {category : Category} {tree : Tree (List Char)} {text : List Char}
      {character : Char} (is_blank : Text.isBlank character = true)
      (inner : Renders category tree text) : Renders category tree (character :: text)
  /-- A blank may be put after anything. -/
  | blankAfter {category : Category} {tree : Tree (List Char)} {text : List Char}
      {character : Char} (is_blank : Text.isBlank character = true)
      (inner : Renders category tree text) : Renders category tree (text ++ [character])
  /-- Anything may be put between parentheses. -/
  | parentheses {tree : Tree (List Char)} {text : List Char}
      (inner : Renders .expression tree text) : Renders .term tree ('(' :: text ++ [')'])
  /-- A term is an expression. -/
  | term {tree : Tree (List Char)} {text : List Char} (inner : Renders .term tree text) :
      Renders .expression tree text
  /-- An operator is written as its mark between its operands, of which the right one is a term. -/
  | marked (operator : Operator) {left right : Tree (List Char)} {front back : List Char}
      (before : Renders .expression left front) (after : Renders .term right back) :
      Renders .expression (.node operator left right) (front ++ operator.mark.toList ++ back)
  /-- A product may be written without its mark where a blank or a parenthesis separates. -/
  | adjacent {left right : Tree (List Char)} {front back : List Char}
      (before : Renders .expression left front) (after : Renders .term right back)
      (separated : Separated front back) :
      Renders .expression (.node .times left right) (front ++ back)

variable {K : Type} [Scalar K]

/-- A word that can be a leaf: a registered name that is one word, or a number literal. -/
def IsOperand (registry : Registry K) (word : List Char) : Prop :=
  (IsWord word ∧ registry.contains (String.ofList word) = true) ∨
    (Scalar.ofWord? K word).isSome = true

/-- The value of a leaf: the registered unit, or else the number. -/
def leafValue (registry : Registry K) (word : List Char) : Except UnitError (Value K) :=
  match registry.lookup? (String.ofList word), Scalar.ofWord? K word with
  | some unit, _ => .ok (.bare unit)
  | none, some number => .ok (.measured (.ofNumber number registry.dimensionless))
  | none, none => .error (.unknownUnit (String.ofList word))

/-- All leaves of a tree have a property. -/
def Tree.All {Leaf : Type} (property : Leaf → Prop) : Tree Leaf → Prop
  | .leaf value => property value
  | .node _ left right => left.All property ∧ right.All property

/-! ## Leaves -/

theorem IsOperand.isWord {registry : Registry K} {word : List Char}
    (operand : IsOperand registry word) : IsWord word := by
  rcases operand with ⟨word, -⟩ | number
  · exact word
  · obtain ⟨number, read⟩ := Option.isSome_iff_exists.mp number
    exact isWord_of_ofWord? read

theorem contains_iff_lookup? {registry : Registry K} {name : String} :
    registry.contains name = true ↔ ∃ unit, registry.lookup? name = some unit := by
  rw [Registry.contains, Registry.lookup?, ← Std.TreeMap.isSome_getElem?_eq_contains,
    Option.isSome_iff_exists]

theorem IsOperand.exists_value {registry : Registry K} {word : List Char}
    (operand : IsOperand registry word) :
    ∃ value, leafValue registry word = .ok value ∧ value.IsSingle ∧
      Token.valueOfWord? registry word = some value := by
  cases lookup_eq : registry.lookup? (String.ofList word) with
  | some unit =>
      exact ⟨.bare unit, by simp [leafValue, lookup_eq], .bare unit,
        by simp [Token.valueOfWord?, lookup_eq]⟩
  | none =>
      have number : (Scalar.ofWord? K word).isSome = true := by
        rcases operand with ⟨-, registered⟩ | number
        · obtain ⟨unit, found⟩ := contains_iff_lookup?.mp registered
          rw [lookup_eq] at found
          cases found
        · exact number
      obtain ⟨number, read⟩ := Option.isSome_iff_exists.mp number
      exact ⟨.measured (.ofNumber number registry.dimensionless),
        by simp [leafValue, lookup_eq, read], .measured _ _,
        by simp [Token.valueOfWord?, lookup_eq, read]⟩

theorem Tree.exists_value {registry : Registry K} {tree : Tree (List Char)}
    (operands : tree.All (IsOperand registry)) :
    ∃ value, tree.evaluate (leafValue registry) = .ok value ∧ value.IsSingle := by
  induction tree with
  | leaf word =>
      obtain ⟨value, value_eq, single, -⟩ := IsOperand.exists_value operands
      exact ⟨value, value_eq, single⟩
  | node operator left right left_induction right_induction =>
      obtain ⟨left_value, left_eq, left_single⟩ := left_induction operands.1
      obtain ⟨right_value, right_eq, right_single⟩ := right_induction operands.2
      obtain ⟨value, combined, single⟩ := left_single.combine right_single operator
      refine ⟨value, ?_, single⟩
      rw [Tree.evaluate, left_eq, right_eq]
      exact combined

/-! ## Words and tokens of written expressions -/

theorem wordsAfter_blank {character : Char} (is_blank : Text.isBlank character = true) :
    wordsAfter [] [character] = [] := by
  simp [wordsAfter, mark?_of_isBlank is_blank, is_blank, closeRun]

theorem isBreak_of_isBlank {character : Char} (is_blank : Text.isBlank character = true) :
    isBreak character = true := by
  simp [isBreak, is_blank]

theorem wordsAfter_operator (operator : Operator) (front back : List Char) :
    wordsAfter [] (front ++ operator.mark.toList ++ back) =
      wordsAfter [] front ++ .mark (.operator operator) :: wordsAfter [] back := by
  cases operator
  · rw [List.append_assoc, wordsAfter_append (.inr ⟨'*', rfl, by decide⟩)]
    rfl
  · rw [List.append_assoc, wordsAfter_append (.inr ⟨'/', rfl, by decide⟩)]
    rfl

theorem wordsAfter_parentheses (text : List Char) :
    wordsAfter [] ('(' :: text ++ [')']) =
      .mark .opening :: wordsAfter [] text ++ [.mark .closing] := by
  rw [wordsAfter_append (.inr ⟨')', rfl, by decide⟩)]
  rfl

/-- The tokens of a written tree are a phrase, whose tree has the same value. -/
theorem Renders.exists_phrase {registry : Registry K} {category : Category}
    {tree : Tree (List Char)} {text : List Char} (rendered : Renders category tree text)
    (operands : tree.All (IsOperand registry)) :
    ∃ (tokens : List (Token K)) (values : Tree (Value K)),
      (wordsAfter [] text).mapM (Token.ofWord registry) = .ok tokens ∧
        Phrase category values tokens ∧
        values.evaluate .ok = tree.evaluate (leafValue registry) := by
  induction rendered with
  | leaf word =>
      obtain ⟨value, value_eq, -, read⟩ := IsOperand.exists_value operands
      refine ⟨[.operand value], .leaf value, ?_, .operand value, value_eq.symm⟩
      rw [IsOperand.isWord operands |>.wordsAfter]
      exact Outcome.mapM_cons_eq_ok (by rw [Token.ofWord, read]) rfl
  | @blankBefore category tree text character is_blank inner induction =>
      obtain ⟨tokens, values, read, phrase, same⟩ := induction operands
      refine ⟨tokens, values, ?_, phrase, same⟩
      rw [wordsAfter_cons_break (isBreak_of_isBlank is_blank), wordsAfter_blank is_blank]
      exact read
  | @blankAfter category tree text character is_blank inner induction =>
      obtain ⟨tokens, values, read, phrase, same⟩ := induction operands
      refine ⟨tokens, values, ?_, phrase, same⟩
      rw [wordsAfter_append (.inr ⟨character, rfl, isBreak_of_isBlank is_blank⟩),
        wordsAfter_blank is_blank, List.append_nil]
      exact read
  | parentheses inner induction =>
      obtain ⟨tokens, values, read, phrase, same⟩ := induction operands
      refine ⟨.opening :: tokens ++ [.closing], values, ?_, .group phrase, same⟩
      rw [wordsAfter_parentheses]
      exact Outcome.mapM_append_eq_ok (Outcome.mapM_cons_eq_ok rfl read)
        (Outcome.mapM_cons_eq_ok rfl rfl)
  | term inner induction =>
      obtain ⟨tokens, values, read, phrase, same⟩ := induction operands
      exact ⟨tokens, values, read, .term phrase, same⟩
  | marked operator before after before_induction after_induction =>
      obtain ⟨front_tokens, left, front_read, left_phrase, left_same⟩ := before_induction operands.1
      obtain ⟨back_tokens, right, back_read, right_phrase, right_same⟩ := after_induction operands.2
      refine ⟨_, _, ?_, .operator operator left_phrase right_phrase, ?_⟩
      · rw [wordsAfter_operator]
        exact Outcome.mapM_append_eq_ok front_read (Outcome.mapM_cons_eq_ok rfl back_read)
      · rw [Tree.evaluate, Tree.evaluate, left_same, right_same]
  | adjacent before after separated before_induction after_induction =>
      obtain ⟨front_tokens, left, front_read, left_phrase, left_same⟩ := before_induction operands.1
      obtain ⟨back_tokens, right, back_read, right_phrase, right_same⟩ := after_induction operands.2
      refine ⟨_, _, ?_, .adjacent left_phrase right_phrase, ?_⟩
      · rw [wordsAfter_append separated]
        exact Outcome.mapM_append_eq_ok front_read back_read
      · rw [Tree.evaluate, Tree.evaluate, left_same, right_same]

/-! ## Evaluation -/

theorem Phrase.evaluate_eq {registry : Registry K} {text : String} {tokens : List (Token K)}
    {tree : Tree (Value K)} {value : Value K}
    (read : (words text).mapM (Token.ofWord registry) = .ok tokens)
    (phrase : Phrase .expression tree tokens) (evaluated : tree.evaluate .ok = .ok value) :
    evaluate registry text = .ok value := by
  have joined : Token.ofText registry text = .ok (Token.joinNeighbours tokens) := by
    rw [Token.ofText, read]
    rfl
  rw [evaluate, joined]
  change (toPostfix text (Token.joinNeighbours tokens)).mapError UnitError.malformedExpression >>= _
    = _
  rw [phrase.toPostfix_eq]
  exact tree.compute_code registry text evaluated

theorem Renders.evaluate_eq {registry : Registry K} {tree : Tree (List Char)} {text : String}
    (rendered : Renders .expression tree text.toList) (operands : tree.All (IsOperand registry))
    {value : Value K} (evaluated : tree.evaluate (leafValue registry) = .ok value) :
    evaluate registry text = .ok value := by
  obtain ⟨tokens, values, read, phrase, same⟩ := rendered.exists_phrase operands
  exact phrase.evaluate_eq read (same.trans evaluated)

/-- Every way of writing a tree of names and numbers is evaluated to the value of the tree. -/
theorem evaluate_rendering (registry : Registry K) (tree : Tree (List Char)) (text : String)
    (operands : tree.All (IsOperand registry))
    (rendered : Renders .expression tree text.toList) :
    ∃ value, tree.evaluate (leafValue registry) = .ok value ∧
      evaluate registry text = .ok value := by
  obtain ⟨value, evaluated, -⟩ := Tree.exists_value operands
  exact ⟨value, evaluated, rendered.evaluate_eq operands evaluated⟩

/-- A registry that knows the meter only. -/
private def meterOnly : Registry Rat :=
  { Catalogue.empty with
    references := ∅
    units := (∅ : Std.TreeMap String (CompoundUnit Rat)).insert "m"
      (.ofSides [⟨"m", "[length]", "m", 1, Scalar.isMultiplier_one⟩] [] .dimensionless) }

/-- Two meters divided by a product of two meters. -/
private def inverseLength : Tree (List Char) :=
  .node .over (.node .times (.leaf ['2']) (.leaf ['m'])) (.node .times (.leaf ['m']) (.leaf ['m']))

/-- A product by a blank, a quotient and a product by a parenthesis in one text. -/
theorem evaluate_inverseLength :
    ∃ value, inverseLength.evaluate (leafValue meterOnly) = .ok value ∧
      evaluate meterOnly "2 m/((m)m)" = .ok value := by
  have meter : IsOperand meterOnly ['m'] := .inl ⟨by decide, by decide⟩
  have two : IsOperand meterOnly ['2'] := .inr (by decide)
  refine evaluate_rendering meterOnly inverseLength _ ⟨⟨two, meter⟩, meter, meter⟩ ?_
  have above : Renders .expression (.node .times (.leaf ['2']) (.leaf ['m'])) ['2', ' ', 'm'] :=
    .adjacent (.term (.leaf ['2'])) (.blankBefore (by decide) (.leaf ['m']))
      (.inr ⟨' ', rfl, by decide⟩)
  have below :
      Renders .expression (.node .times (.leaf ['m']) (.leaf ['m'])) ['(', 'm', ')', 'm'] :=
    .adjacent (.term (.parentheses (.term (.leaf ['m'])))) (.leaf ['m'])
      (.inl ⟨')', rfl, by decide⟩)
  exact .marked .over above (.parentheses below)

end Expression
end UnitAlgebra
