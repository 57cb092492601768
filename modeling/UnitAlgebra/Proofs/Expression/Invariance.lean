import UnitAlgebra.Proofs.Expression.Counting

/-!
# Properties of values

A property that the unit without dimensions and the values of words have, and that products and
quotients keep, is a property of every value that an expression is evaluated to.
-/

namespace UnitAlgebra
namespace Expression

variable {K : Type} [Scalar K] {registry : Registry K} {text : String}

/-- A property of values that the operators keep. -/
def Closed (property : Value K → Prop) : Prop :=
  ∀ {left right value : Value K} (operator : Operator), property left → property right →
    left.combine operator right = .ok value → property value

variable {property : Value K → Prop}

theorem Closed.execute (closed : Closed property) {stack after : List (Value K)}
    {token : Token K} (on_stack : ∀ value ∈ stack, property value)
    (pushed : ∀ value, token = .operand value → property value)
    (executed : Expression.execute text stack token = .ok after) :
    ∀ value ∈ after, property value := by
  cases token with
  | operand value =>
      obtain rfl := Except.ok.inj executed
      exact List.forall_mem_cons.mpr ⟨pushed value rfl, on_stack⟩
  | operator operator =>
      rcases stack with _ | ⟨right, _ | ⟨left, stack⟩⟩
      · cases executed
      · cases executed
      · obtain ⟨value, combined, after_eq⟩ := Outcome.exists_of_bind_eq_ok executed
        obtain rfl := Except.ok.inj after_eq
        rw [List.forall_mem_cons, List.forall_mem_cons] at on_stack
        obtain ⟨right_holds, left_holds, rest_hold⟩ := on_stack
        exact List.forall_mem_cons.mpr
          ⟨closed operator left_holds right_holds combined, rest_hold⟩
  | opening => cases executed
  | closing => cases executed

theorem Closed.compute (closed : Closed property)
    (dimensionless : property (.bare registry.dimensionless)) {code : List (Token K)}
    (pushed : ∀ value, .operand value ∈ code → property value) {value : Value K}
    (computed : Expression.compute registry text code = .ok value) : property value := by
  obtain ⟨stack, ran, finished⟩ := Outcome.exists_of_bind_eq_ok computed
  have on_stack : ∀ value ∈ stack, property value := by
    refine Outcome.foldlM_preserves (fun stack => ∀ value ∈ stack, property value) ?_
      (by simp) ran
    intro token member before after holds executed
    exact closed.execute holds (fun value equal => pushed value (equal ▸ member)) executed
  rcases stack with _ | ⟨top, _ | ⟨second, rest⟩⟩
  · obtain rfl := Except.ok.inj finished
    exact dimensionless
  · obtain rfl := Except.ok.inj finished
    exact on_stack top List.mem_cons_self
  · cases finished

theorem valueOfWord?_of_ofWord {word : Word} {value : Value K}
    (read : Token.ofWord registry word = .ok (.operand value)) :
    ∃ characters, Token.valueOfWord? registry characters = some value := by
  cases word with
  | mark mark => rcases mark with operator | _ | _ <;> cases read
  | plain characters =>
      rw [Token.ofWord] at read
      split at read
      · rename_i found read_value
        obtain rfl : found = value := by simpa using read
        exact ⟨characters, read_value⟩
      · cases read

/-- What holds of the values of words and is kept by the operators holds of an expression. -/
theorem Closed.evaluate (closed : Closed property)
    (dimensionless : property (.bare registry.dimensionless))
    (words_hold : ∀ {characters : List Char} {value : Value K},
      Token.valueOfWord? registry characters = some value → property value)
    {value : Value K} (evaluated : Expression.evaluate registry text = .ok value) :
    property value := by
  obtain ⟨tokens, read, translated⟩ := Outcome.exists_of_bind_eq_ok evaluated
  obtain ⟨plain, read_plain, tokens_eq⟩ := Outcome.exists_of_bind_eq_ok read
  obtain rfl := Except.ok.inj tokens_eq
  cases translated_eq : toPostfix text (Token.joinNeighbours plain) with
  | error fault =>
      rw [translated_eq] at translated
      cases translated
  | ok code =>
      rw [translated_eq] at translated
      refine closed.compute dimensionless ?_ translated
      intro value pushed
      have member := mem_of_mem_joinNeighbours (mem_of_toPostfix translated_eq pushed).2.2
      obtain ⟨word, -, read_word⟩ := Outcome.exists_of_mem_mapM read_plain member
      obtain ⟨characters, read_value⟩ := valueOfWord?_of_ofWord read_word
      exact words_hold read_value

end Expression
end UnitAlgebra
