import UnitAlgebra.Proofs.Expression.Counting

/-!
# Recognition of phrases

Tokens may go on after an operand or before one, inside some open parentheses.  Tokens that go on to
the end are the rest of an expression.  A translation that has one operand more than operators is
one of tokens that go on to the end, and so of a phrase; one without operands and operators is of
parentheses around nothing.
-/

namespace UnitAlgebra
namespace Expression

variable {K : Type} [Scalar K]

/-! ## Going on -/

/-- The tokens that may follow after an operand or before one, inside some open parentheses. -/
inductive GoesOn : Nat → Bool → List (Token K) → Prop where
  /-- An expression may end after an operand. -/
  | done : GoesOn 0 true []
  /-- An operand may follow anything. -/
  | operand (value : Value K) {depth : Nat} {after_operand : Bool} {rest : List (Token K)}
      (goes_on : GoesOn depth true rest) : GoesOn depth after_operand (.operand value :: rest)
  /-- An operator follows an operand. -/
  | operator (operator : Operator) {depth : Nat} {rest : List (Token K)}
      (goes_on : GoesOn depth false rest) : GoesOn depth true (.operator operator :: rest)
  /-- A parenthesis may open after anything. -/
  | opening {depth : Nat} {after_operand : Bool} {rest : List (Token K)}
      (goes_on : GoesOn (depth + 1) false rest) : GoesOn depth after_operand (.opening :: rest)
  /-- An open parenthesis closes after an operand. -/
  | closing {depth : Nat} {rest : List (Token K)} (goes_on : GoesOn depth true rest) :
      GoesOn (depth + 1) true (.closing :: rest)

/-- The tokens after a token have no surplus either, and it follows an operand or starts one. -/
theorem tight_of_cons {after_operand : Bool} {token : Token K} {rest : List (Token K)}
    (tight : operators (Token.joinAfter after_operand (token :: rest)) + 1 ≤
      operands (token :: rest) + after_operand.toNat) :
    operators (Token.joinAfter token.endsOperand rest) + 1 ≤
        operands rest + token.endsOperand.toNat ∧
      (after_operand || token.startsOperand) = true := by
  have bound := operands_le_operators token.endsOperand rest
  rw [operators_joinAfter_cons, operands_cons] at tight
  cases token <;> cases after_operand <;>
    simp [Token.endsOperand, Token.startsOperand] at tight bound ⊢ <;> omega

section

variable {text : String} {waiting tokens code : List (Token K)} {after_operand : Bool}

/-- A product that is written out before a token leaves the open parentheses as they are. -/
theorem exists_postfixAfter_cons {token : Token K} {rest : List (Token K)}
    (translated :
      postfixAfter text waiting (Token.joinAfter after_operand (token :: rest)) = .ok code) :
    ∃ left tail, openings left = openings waiting ∧
      postfixAfter text left (token :: Token.joinAfter token.endsOperand rest) = .ok tail := by
  rw [Token.joinAfter] at translated
  split at translated
  · obtain ⟨tail, tail_eq, -⟩ := postfixAfter_operator_eq_ok translated
    refine ⟨.operator .times :: outer waiting, tail, ?_, tail_eq⟩
    rw [openings_cons, openings_outer]
    rfl
  · exact ⟨waiting, code, rfl, translated⟩

/-- Tokens without surplus operators that are translated go on to the end. -/
theorem goesOn_of_postfixAfter
    (translated : postfixAfter text waiting (Token.joinAfter after_operand tokens) = .ok code)
    (tight : operators (Token.joinAfter after_operand tokens) + 1 ≤
      operands tokens + after_operand.toNat) :
    GoesOn (openings waiting) after_operand tokens := by
  induction tokens generalizing waiting after_operand code with
  | nil =>
      obtain ⟨outer_eq, -⟩ := postfixAfter_nil_eq_ok translated
      rw [← openings_outer, outer_eq, openings_nil]
      cases after_operand with
      | false => simp [Token.joinAfter] at tight
      | true => exact .done
  | cons token rest induction =>
      obtain ⟨rest_tight, starts⟩ := tight_of_cons tight
      obtain ⟨before, between, openings_eq, rest_translated⟩ := exists_postfixAfter_cons translated
      rw [← openings_eq]
      cases token with
      | operand value =>
          obtain ⟨tail, tail_eq, -⟩ := postfixAfter_operand_eq_ok rest_translated
          exact .operand value (induction tail_eq rest_tight)
      | operator operator =>
          obtain rfl : after_operand = true := by simpa [Token.startsOperand] using starts
          obtain ⟨tail, tail_eq, -⟩ := postfixAfter_operator_eq_ok rest_translated
          have goes_on := induction tail_eq rest_tight
          rw [openings_cons, openings_outer] at goes_on
          exact .operator operator goes_on
      | opening =>
          rw [postfixAfter_opening] at rest_translated
          have goes_on := induction rest_translated rest_tight
          rw [openings_cons] at goes_on
          exact .opening goes_on
      | closing =>
          obtain rfl : after_operand = true := by simpa [Token.startsOperand] using starts
          obtain ⟨left, tail, outer_eq, tail_eq, -⟩ := postfixAfter_closing_eq_ok rest_translated
          rw [← openings_outer, outer_eq, openings_cons]
          exact .closing (induction tail_eq rest_tight)

end

/-! ## Phrases from tokens that go on -/

/-- What is read of a group: after an operand it is an expression, and a term may follow anyway. -/
def Leads (after_operand : Bool) (front : List (Token K)) : Prop :=
  (after_operand = true → ∃ tree, Phrase .expression tree front) ∧
    ∀ right back, Phrase .term right back → ∃ tree, Phrase .expression tree (front ++ back)

theorem leads_nil : Leads (K := K) false [] :=
  ⟨by simp, fun right _ term => ⟨right, .term term⟩⟩

theorem Leads.of_expression {front : List (Token K)} {tree : Tree (Value K)}
    (phrase : Phrase .expression tree front) : Leads true front :=
  ⟨fun _ => ⟨tree, phrase⟩, fun right _ term => ⟨.node .times tree right, .adjacent phrase term⟩⟩

theorem Leads.append_term {after_operand : Bool} {front back : List (Token K)}
    {right : Tree (Value K)} (leads : Leads after_operand front)
    (term : Phrase .term right back) : Leads true (front ++ back) := by
  obtain ⟨tree, phrase⟩ := leads.2 right back term
  exact .of_expression phrase

theorem Leads.append_operator {front : List (Token K)} (leads : Leads true front)
    (operator : Operator) : Leads false (front ++ [.operator operator]) := by
  obtain ⟨left, phrase⟩ := leads.1 rfl
  refine ⟨by simp, fun right back term => ⟨.node operator left right, ?_⟩⟩
  rw [List.append_assoc]
  exact .operator operator phrase term

/-- What is left after a group: nothing outside all parentheses, and a closed one inside. -/
def Finishes (depth : Nat) (front tokens : List (Token K)) : Prop :=
  match depth with
  | 0 => ∃ tree, Phrase .expression tree (front ++ tokens)
  | outer + 1 =>
      ∃ inner rest, tokens = inner ++ .closing :: rest ∧
        (∃ tree, Phrase .expression tree (front ++ inner)) ∧ GoesOn outer true rest

theorem Finishes.of_append {depth : Nat} {front middle tokens : List (Token K)}
    (finishes : Finishes depth (front ++ middle) tokens) :
    Finishes depth front (middle ++ tokens) := by
  cases depth with
  | zero => simpa [Finishes] using finishes
  | succ outer =>
      obtain ⟨inner, rest, rfl, phrase, goes_on⟩ := finishes
      exact ⟨middle ++ inner, rest, by simp, by simpa using phrase, goes_on⟩

/-- Tokens that go on finish the group that is open. -/
theorem GoesOn.finishes {depth : Nat} {after_operand : Bool} {tokens : List (Token K)}
    (goes_on : GoesOn depth after_operand tokens) {front : List (Token K)}
    (leads : Leads after_operand front) : Finishes depth front tokens := by
  -- The tokens after a group are no part of its own, so the induction is on their number.
  induction bound : tokens.length using Nat.strongRecOn
    generalizing depth after_operand tokens front with
  | ind length induction =>
      subst bound
      cases goes_on with
      | done =>
          obtain ⟨tree, phrase⟩ := leads.1 rfl
          exact ⟨tree, by simpa using phrase⟩
      | @operand value _ _ rest goes_on =>
          have finishes := induction rest.length (by simp) goes_on
            (leads.append_term (.operand value)) rfl
          exact finishes.of_append
      | @operator operator _ rest goes_on =>
          have finishes := induction rest.length (by simp) goes_on
            (leads.append_operator operator) rfl
          exact finishes.of_append
      | @opening _ _ rest goes_on =>
          obtain ⟨inner, left, rfl, ⟨tree, phrase⟩, outside⟩ :=
            induction rest.length (by simp) goes_on leads_nil rfl
          have finishes := induction left.length (by simp; omega) outside
            (leads.append_term (.group phrase)) rfl
          simpa using finishes.of_append
      | @closing _ rest goes_on =>
          exact ⟨[], rest, rfl, by simpa using leads.1 rfl, goes_on⟩

/-- Tokens that are translated with one operand more than operators are a phrase. -/
theorem exists_phrase_of_toPostfix {text : String} {tokens code : List (Token K)}
    (translated : toPostfix text (Token.joinNeighbours tokens) = .ok code)
    (balance : operands code = operators code + 1) :
    ∃ tree, Phrase .expression tree tokens := by
  rw [toPostfix, Token.joinNeighbours_eq_joinAfter] at translated
  obtain ⟨pushed, applied⟩ := counts_of_postfixAfter translated
  rw [operands_joinAfter, operands_nil, Nat.add_zero] at pushed
  rw [operators_nil, Nat.add_zero] at applied
  have tight : operators (Token.joinAfter false tokens) + 1 ≤ operands tokens := by
    rw [← pushed, balance, applied]
  exact (goesOn_of_postfixAfter translated tight).finishes leads_nil

/-! ## Parentheses around nothing -/

/-- Parentheses that open and then close, with nothing in them. -/
def EmptyNest (tokens : List (Token K)) : Prop :=
  ∃ depth, tokens = List.replicate depth .opening ++ List.replicate depth .closing

theorem joinAfter_closings (after_operand : Bool) (count : Nat) :
    Token.joinAfter (K := K) after_operand (List.replicate count .closing) =
      List.replicate count .closing := by
  induction count generalizing after_operand with
  | zero => rfl
  | succ count induction =>
      rw [List.replicate_succ, Token.joinAfter, induction]
      simp [Token.startsOperand]

theorem joinNeighbours_nest (opened closed : Nat) :
    Token.joinNeighbours (K := K)
        (List.replicate opened .opening ++ List.replicate closed .closing) =
      List.replicate opened .opening ++ List.replicate closed .closing := by
  rw [Token.joinNeighbours_eq_joinAfter]
  induction opened with
  | zero => exact joinAfter_closings false closed
  | succ opened induction =>
      rw [List.replicate_succ, List.cons_append, Token.joinAfter, Token.endsOperand, induction]
      simp

theorem postfixAfter_nest (text : String) (opened closed : Nat) :
    postfixAfter (K := K) text (List.replicate opened .opening)
        (List.replicate closed .opening ++ List.replicate (opened + closed) .closing) = .ok [] := by
  induction closed generalizing opened with
  | zero =>
      rw [List.replicate_zero, List.nil_append, Nat.add_zero]
      induction opened with
      | zero => rfl
      | succ opened induction =>
          rw [List.replicate_succ, List.replicate_succ, postfixAfter_closing rfl, induction]
          rfl
  | succ closed induction =>
      rw [List.replicate_succ, List.cons_append, postfixAfter_opening, ← List.replicate_succ]
      have shifted := induction (opened + 1)
      rw [Nat.add_right_comm, Nat.add_assoc] at shifted
      exact shifted

section

variable {text : String} {waiting tokens code : List (Token K)}

/-- Tokens after an operand without operands and products are closing parentheses. -/
theorem eq_closings_of_postfixAfter
    (translated : postfixAfter text waiting (Token.joinAfter true tokens) = .ok code)
    (no_operand : operands tokens = 0) (no_operator : operators (Token.joinAfter true tokens) = 0) :
    tokens = List.replicate (openings waiting) .closing := by
  induction tokens generalizing waiting code with
  | nil =>
      obtain ⟨outer_eq, -⟩ := postfixAfter_nil_eq_ok translated
      rw [← openings_outer, outer_eq]
      rfl
  | cons token rest induction =>
      rw [operators_joinAfter_cons] at no_operator
      rw [operands_cons] at no_operand
      cases token with
      | operand value => simp at no_operand
      | operator operator => simp at no_operator
      | opening => simp [Token.startsOperand] at no_operator
      | closing =>
          obtain ⟨left, tail, outer_eq, tail_eq, -⟩ := postfixAfter_closing_eq_ok translated
          rw [← openings_outer, outer_eq, openings_cons]
          change _ = List.replicate (openings left + 1) Token.closing
          rw [List.replicate_succ, ← induction tail_eq (by simpa using no_operand)
            (by simpa [Token.startsOperand, Token.endsOperand] using no_operator)]

/-- Tokens without operands and operators are parentheses that open and then close. -/
theorem exists_nest_of_postfixAfter
    (translated : postfixAfter text waiting (Token.joinAfter false tokens) = .ok code)
    (no_operand : operands tokens = 0)
    (no_operator : operators (Token.joinAfter false tokens) = 0) :
    ∃ opened, tokens = List.replicate opened .opening ++
      List.replicate (openings waiting + opened) .closing := by
  induction tokens generalizing waiting code with
  | nil =>
      obtain ⟨outer_eq, -⟩ := postfixAfter_nil_eq_ok translated
      exact ⟨0, by rw [← openings_outer, outer_eq]; rfl⟩
  | cons token rest induction =>
      have no_first := no_operator
      rw [operators_joinAfter_cons] at no_first
      have no_rest := no_operand
      rw [operands_cons] at no_rest
      cases token with
      | operand value => simp at no_rest
      | operator operator => simp at no_first
      | opening =>
          change postfixAfter text waiting (.opening :: Token.joinAfter false rest) = .ok code
            at translated
          rw [postfixAfter_opening] at translated
          obtain ⟨opened, rfl⟩ := induction translated (by simpa using no_rest)
            (by simpa [Token.endsOperand] using no_first)
          refine ⟨opened + 1, ?_⟩
          rw [openings_cons, List.replicate_succ, List.cons_append, Nat.add_right_comm]
          rfl
      | closing =>
          exact ⟨0, eq_closings_of_postfixAfter translated no_operand no_operator⟩

end

end Expression
end UnitAlgebra
