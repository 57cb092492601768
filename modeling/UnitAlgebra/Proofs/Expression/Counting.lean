import UnitAlgebra.Proofs.Expression.Postfix

/-!
# Counting operands and operators

The translation keeps the numbers of operands and operators and leaves out all parentheses, and
running code needs one operand more than it has operators.  Among tokens with all products written
out there are at least as many operators as operands but one; the numbers meet that bound only in
phrases, so code that can be run to a single value comes from a phrase.
-/

namespace UnitAlgebra
namespace Expression

variable {K : Type} [Scalar K]

/-- Whether a token is an operand. -/
@[simp]
def Token.isOperand : Token K → Bool
  | .operand _ => true
  | .operator _ | .opening | .closing => false

/-- Whether a token is an operator. -/
@[simp]
def Token.isOperator : Token K → Bool
  | .operator _ => true
  | .operand _ | .opening | .closing => false

/-! ## Successful translations -/

section

variable {text : String} {waiting rest code : List (Token K)}

theorem postfixAfter_nil_eq_ok (translated : postfixAfter text waiting [] = .ok code) :
    outer waiting = [] ∧ code = inner waiting := by
  rw [postfixAfter] at translated
  split at translated
  · rename_i outer_eq
    exact ⟨outer_eq, (Except.ok.inj translated).symm⟩
  · cases translated

theorem postfixAfter_operand_eq_ok {value : Value K}
    (translated : postfixAfter text waiting (.operand value :: rest) = .ok code) :
    ∃ tail, postfixAfter text waiting rest = .ok tail ∧ code = .operand value :: tail := by
  rw [postfixAfter_operand] at translated
  obtain ⟨tail, tail_eq, code_eq⟩ := Outcome.exists_of_map_eq_ok translated
  exact ⟨tail, tail_eq, code_eq.symm⟩

theorem postfixAfter_operator_eq_ok {operator : Operator}
    (translated : postfixAfter text waiting (.operator operator :: rest) = .ok code) :
    ∃ tail, postfixAfter text (.operator operator :: outer waiting) rest = .ok tail ∧
      code = inner waiting ++ tail := by
  rw [postfixAfter_operator] at translated
  obtain ⟨tail, tail_eq, code_eq⟩ := Outcome.exists_of_map_eq_ok translated
  exact ⟨tail, tail_eq, code_eq.symm⟩

theorem postfixAfter_closing_eq_ok
    (translated : postfixAfter text waiting (.closing :: rest) = .ok code) :
    ∃ left tail, outer waiting = .opening :: left ∧ postfixAfter text left rest = .ok tail ∧
      code = inner waiting ++ tail := by
  rcases outer_cases waiting with outer_eq | ⟨left, outer_eq⟩
  · rw [postfixAfter, outer_eq] at translated
    cases translated
  · rw [postfixAfter_closing outer_eq] at translated
    obtain ⟨tail, tail_eq, code_eq⟩ := Outcome.exists_of_map_eq_ok translated
    exact ⟨left, tail, outer_eq, tail_eq, code_eq.symm⟩

end

/-! ## Counts -/

/-- The number of operands among tokens. -/
def operands (tokens : List (Token K)) : Nat :=
  tokens.countP Token.isOperand

/-- The number of operators among tokens. -/
def operators (tokens : List (Token K)) : Nat :=
  tokens.countP Token.isOperator

/-- The number of opening parentheses among tokens. -/
def openings (tokens : List (Token K)) : Nat :=
  tokens.countP Token.isOpening

section

variable (token : Token K) (rest front back waiting : List (Token K))

@[simp]
theorem operands_nil : operands ([] : List (Token K)) = 0 := rfl

@[simp]
theorem operators_nil : operators ([] : List (Token K)) = 0 := rfl

@[simp]
theorem openings_nil : openings ([] : List (Token K)) = 0 := rfl

@[simp]
theorem operands_cons : operands (token :: rest) = operands rest + token.isOperand.toNat := by
  rw [operands, List.countP_cons]
  cases token.isOperand <;> rfl

@[simp]
theorem operators_cons : operators (token :: rest) = operators rest + token.isOperator.toNat := by
  rw [operators, List.countP_cons]
  cases token.isOperator <;> rfl

@[simp]
theorem openings_cons : openings (token :: rest) = openings rest + token.isOpening.toNat := by
  rw [openings, List.countP_cons]
  cases token.isOpening <;> rfl

@[simp]
theorem operands_append : operands (front ++ back) = operands front + operands back :=
  List.countP_append

@[simp]
theorem operators_append : operators (front ++ back) = operators front + operators back :=
  List.countP_append

theorem operands_inner_outer : operands (inner waiting) + operands (outer waiting) =
    operands waiting := by
  rw [← operands_append, inner_append_outer]

theorem operators_inner_outer : operators (inner waiting) + operators (outer waiting) =
    operators waiting := by
  rw [← operators_append, inner_append_outer]

/-- No open parenthesis is inside the innermost one. -/
theorem openings_outer : openings (outer waiting) = openings waiting := by
  have none_inside : openings (inner waiting) = 0 :=
    List.countP_eq_zero.mpr fun token mem => by simp [isOpening_of_mem_inner mem]
  have whole := congrArg openings (inner_append_outer waiting)
  rwa [openings, List.countP_append, ← openings, none_inside, Nat.zero_add] at whole

end

section

variable {text : String} {waiting tokens code : List (Token K)}

/-- The postfix order has the operands and the operators of the tokens, and those that waited. -/
theorem counts_of_postfixAfter (translated : postfixAfter text waiting tokens = .ok code) :
    operands code = operands tokens + operands waiting ∧
      operators code = operators tokens + operators waiting := by
  induction tokens generalizing waiting code with
  | nil =>
      obtain ⟨outer_eq, rfl⟩ := postfixAfter_nil_eq_ok translated
      have whole := inner_append_outer waiting
      rw [outer_eq, List.append_nil] at whole
      simp [whole]
  | cons token rest induction =>
      have operands_eq := operands_inner_outer waiting
      have operators_eq := operators_inner_outer waiting
      cases token with
      | operand value =>
          obtain ⟨tail, tail_eq, rfl⟩ := postfixAfter_operand_eq_ok translated
          obtain ⟨pushed, applied⟩ := induction tail_eq
          simp [pushed, applied]
          omega
      | operator operator =>
          obtain ⟨tail, tail_eq, rfl⟩ := postfixAfter_operator_eq_ok translated
          obtain ⟨pushed, applied⟩ := induction tail_eq
          simp [pushed, applied]
          omega
      | opening =>
          rw [postfixAfter_opening] at translated
          simpa using induction translated
      | closing =>
          obtain ⟨left, tail, outer_eq, tail_eq, rfl⟩ := postfixAfter_closing_eq_ok translated
          obtain ⟨pushed, applied⟩ := induction tail_eq
          rw [outer_eq] at operands_eq operators_eq
          simp [pushed, applied] at operands_eq operators_eq ⊢
          omega

/--
A token of the postfix order has waited or is one of the tokens.  It is no opening parenthesis, and
no closing one of the tokens.
-/
theorem mem_of_postfixAfter (translated : postfixAfter text waiting tokens = .ok code)
    {token : Token K} (mem : token ∈ code) :
    token.isOpening = false ∧ (token ∈ waiting ∨ token ∈ tokens ∧ token ≠ .closing) := by
  induction tokens generalizing waiting code with
  | nil =>
      obtain ⟨-, rfl⟩ := postfixAfter_nil_eq_ok translated
      exact ⟨isOpening_of_mem_inner mem, .inl (mem_of_mem_inner mem)⟩
  | cons first rest induction =>
      -- What follows after the first token is one of the tokens too.
      have later (mem_rest : token ∈ rest ∧ token ≠ .closing) :
          token ∈ first :: rest ∧ token ≠ .closing :=
        ⟨List.mem_cons_of_mem first mem_rest.1, mem_rest.2⟩
      cases first with
      | operand value =>
          obtain ⟨tail, tail_eq, rfl⟩ := postfixAfter_operand_eq_ok translated
          rcases List.mem_cons.mp mem with rfl | mem_tail
          · exact ⟨rfl, .inr ⟨List.mem_cons_self, nofun⟩⟩
          · obtain ⟨not_opening, found⟩ := induction tail_eq mem_tail
            exact ⟨not_opening, found.imp_right later⟩
      | operator operator =>
          obtain ⟨tail, tail_eq, rfl⟩ := postfixAfter_operator_eq_ok translated
          rcases List.mem_append.mp mem with mem_inner | mem_tail
          · exact ⟨isOpening_of_mem_inner mem_inner, .inl (mem_of_mem_inner mem_inner)⟩
          · obtain ⟨not_opening, waits | found⟩ := induction tail_eq mem_tail
            · rcases List.mem_cons.mp waits with rfl | mem_outer
              · exact ⟨rfl, .inr ⟨List.mem_cons_self, nofun⟩⟩
              · exact ⟨not_opening, .inl (mem_of_mem_outer mem_outer)⟩
            · exact ⟨not_opening, .inr (later found)⟩
      | opening =>
          rw [postfixAfter_opening] at translated
          obtain ⟨not_opening, waits | found⟩ := induction translated mem
          · rcases List.mem_cons.mp waits with rfl | mem_waiting
            · cases not_opening
            · exact ⟨not_opening, .inl mem_waiting⟩
          · exact ⟨not_opening, .inr (later found)⟩
      | closing =>
          obtain ⟨left, tail, outer_eq, tail_eq, rfl⟩ := postfixAfter_closing_eq_ok translated
          rcases List.mem_append.mp mem with mem_inner | mem_tail
          · exact ⟨isOpening_of_mem_inner mem_inner, .inl (mem_of_mem_inner mem_inner)⟩
          · obtain ⟨not_opening, waits | found⟩ := induction tail_eq mem_tail
            · have mem_outer : token ∈ outer waiting :=
                outer_eq ▸ List.mem_cons_of_mem Token.opening waits
              exact ⟨not_opening, .inl (mem_of_mem_outer mem_outer)⟩
            · exact ⟨not_opening, .inr (later found)⟩

/-- The postfix order of tokens has no parentheses, and its operands are theirs. -/
theorem mem_of_toPostfix (translated : toPostfix text tokens = .ok code) {token : Token K}
    (mem : token ∈ code) : token ≠ .opening ∧ token ≠ .closing ∧ token ∈ tokens := by
  obtain ⟨not_opening, waits | ⟨found, not_closing⟩⟩ := mem_of_postfixAfter translated mem
  · cases waits
  · refine ⟨fun equal => ?_, not_closing, found⟩
    subst equal
    cases not_opening

end

/-! ## Runs -/

section

variable {text : String} {code : List (Token K)} {stack after : List (Value K)} {token : Token K}

/-- A token leaves a value and puts one more on the stack or takes one from it. -/
theorem length_of_execute (executed : execute text stack token = .ok after) :
    after ≠ [] ∧ after.length + operators [token] = stack.length + operands [token] := by
  cases token with
  | operand value =>
      obtain rfl := Except.ok.inj executed
      simp
  | operator operator =>
      rcases stack with _ | ⟨right, _ | ⟨left, stack⟩⟩
      · cases executed
      · cases executed
      · obtain ⟨value, -, after_eq⟩ := Outcome.exists_of_bind_eq_ok executed
        obtain rfl := Except.ok.inj after_eq
        simp
  | opening => cases executed
  | closing => cases executed

/-- A run leaves on the stack what it puts on it, less one value for every operator. -/
theorem length_of_foldlM (ran : code.foldlM (execute text) stack = .ok after) :
    after.length + operators code = stack.length + operands code := by
  induction code generalizing stack with
  | nil =>
      obtain rfl := Except.ok.inj ran
      simp
  | cons token code induction =>
      rw [List.foldlM_cons] at ran
      obtain ⟨middle, executed, rest_ran⟩ := Outcome.exists_of_bind_eq_ok ran
      have first := (length_of_execute executed).2
      have rest := induction rest_ran
      simp at first ⊢
      omega

/-- Only the empty sequence leaves the stack empty. -/
theorem eq_nil_of_foldlM (ran : code.foldlM (execute text) stack = .ok []) :
    code = [] ∧ stack = [] := by
  induction code generalizing stack with
  | nil => exact ⟨rfl, Except.ok.inj ran⟩
  | cons token code induction =>
      rw [List.foldlM_cons] at ran
      obtain ⟨middle, executed, rest_ran⟩ := Outcome.exists_of_bind_eq_ok ran
      exact absurd (induction rest_ran).2 (length_of_execute executed).1

end

/-! ## Surplus of operators -/

theorem operands_joinAfter (after_operand : Bool) (tokens : List (Token K)) :
    operands (Token.joinAfter after_operand tokens) = operands tokens := by
  induction tokens generalizing after_operand with
  | nil => rfl
  | cons token rest induction =>
      rw [Token.joinAfter]
      split <;> simp [induction]

theorem mem_of_mem_joinAfter {after_operand : Bool} {tokens : List (Token K)} {value : Value K}
    (mem : .operand value ∈ Token.joinAfter after_operand tokens) : .operand value ∈ tokens := by
  induction tokens generalizing after_operand with
  | nil => cases mem
  | cons token rest induction =>
      rw [Token.joinAfter] at mem
      have found : .operand value ∈ token :: Token.joinAfter token.endsOperand rest := by
        split at mem
        · simpa using mem
        · exact mem
      rcases List.mem_cons.mp found with equal | later
      · exact equal ▸ List.mem_cons_self
      · exact List.mem_cons_of_mem token (induction later)

theorem mem_of_mem_joinNeighbours {tokens : List (Token K)} {value : Value K}
    (mem : .operand value ∈ Token.joinNeighbours tokens) : .operand value ∈ tokens := by
  rw [Token.joinNeighbours_eq_joinAfter] at mem
  exact mem_of_mem_joinAfter mem

theorem operators_joinAfter_cons (after_operand : Bool) (token : Token K) (rest : List (Token K)) :
    operators (Token.joinAfter after_operand (token :: rest)) =
      operators (Token.joinAfter token.endsOperand rest) + token.isOperator.toNat +
        (after_operand && token.startsOperand).toNat := by
  rw [Token.joinAfter]
  split <;> simp_all

/-- With the products written out there are as many operators as operands, but for one. -/
theorem operands_le_operators (after_operand : Bool) (tokens : List (Token K)) :
    operands tokens + after_operand.toNat ≤
      operators (Token.joinAfter after_operand tokens) + 1 := by
  induction tokens generalizing after_operand with
  | nil => cases after_operand <;> simp [Token.joinAfter]
  | cons token rest induction =>
      have bound := induction token.endsOperand
      rw [operators_joinAfter_cons, operands_cons]
      cases token <;> cases after_operand <;>
        simp [Token.endsOperand, Token.startsOperand] at bound ⊢ <;>
        omega

end Expression
end UnitAlgebra
