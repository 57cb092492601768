import UnitAlgebra.Registry.Resolution

/-!
# Faithful memos

A memo is faithful if it remembers nothing but the values of expressions.  Answers keep it faithful,
and what is answered with it is what a registry without a memo resolves.
-/

namespace UnitAlgebra
namespace Registry

variable {K : Type} [Scalar K] {registry : Registry K} {memo : Memo K}

/-- A memo that remembers nothing but the values of expressions. -/
def Memo.IsFaithful (registry : Registry K) (memo : Memo K) : Prop :=
  ∀ {text : String} {value : Value K}, memo[text]? = some value →
    Expression.evaluate registry text = .ok value

theorem Memo.isFaithful_empty (registry : Registry K) : Memo.IsFaithful registry ∅ := by
  intro text value remembered
  simp at remembered

theorem answerWith_fst (faithful : memo.IsFaithful registry) (text : String)
    (allowExpression : Bool) :
    (registry.answerWith text allowExpression memo).1 =
      registry.resolveWith text allowExpression := by
  rw [answerWith, resolveWith]
  split
  · rfl
  · split
    · split
      · rename_i value remembered
        exact (faithful remembered).symm
      · cases Expression.evaluate registry text with
        | ok value => rfl
        | error failure => rfl
    · rfl

/-- An answer leaves the memo as it is or adds the value of an expression that is no name. -/
theorem answerWith_snd (registry : Registry K) (text : String) (allowExpression : Bool)
    (memo : Memo K) :
    (registry.answerWith text allowExpression memo).2 = memo ∨
      ∃ value, registry.lookup? text = none ∧ Expression.evaluate registry text = .ok value ∧
        (registry.answerWith text allowExpression memo).2 = memo.insert text value := by
  rw [answerWith]
  split
  · exact .inl rfl
  · rename_i unregistered
    split
    · split
      · exact .inl rfl
      · split
        · rename_i value evaluated
          exact .inr ⟨value, unregistered, evaluated, rfl⟩
        · exact .inl rfl
    · exact .inl rfl

theorem forall_answerWith {holds : String → Value K → Prop}
    (remembered : ∀ {text : String} {value : Value K}, memo[text]? = some value → holds text value)
    (evaluated : ∀ {text : String} {value : Value K}, registry.lookup? text = none →
      Expression.evaluate registry text = .ok value → holds text value)
    (text : String) (allowExpression : Bool) {other : String} {value : Value K}
    (found : (registry.answerWith text allowExpression memo).2[other]? = some value) :
    holds other value := by
  rcases registry.answerWith_snd text allowExpression memo with
    unchanged | ⟨added, unregistered, text_evaluated, memo_eq⟩
  · rw [unchanged] at found
    exact remembered found
  · rw [memo_eq, Std.TreeMap.getElem?_insert] at found
    split at found
    · rename_i same
      obtain rfl := Std.LawfulEqCmp.eq_of_compare same
      obtain rfl := Option.some.inj found
      exact evaluated unregistered text_evaluated
    · exact remembered found

theorem isFaithful_answerWith (faithful : memo.IsFaithful registry) (text : String)
    (allowExpression : Bool) :
    (registry.answerWith text allowExpression memo).2.IsFaithful registry :=
  forall_answerWith faithful (fun _ evaluated => evaluated) text allowExpression

/-! ## Histories -/

/-- The memo after some texts have been answered one after the other. -/
def memoAfter (registry : Registry K) (texts : List String) : Memo K :=
  texts.foldl (fun memo text => (registry.answer text memo).2) ∅

theorem isFaithful_foldl (faithful : memo.IsFaithful registry) (texts : List String) :
    Memo.IsFaithful registry
      (texts.foldl (fun memo text => (registry.answer text memo).2) memo) := by
  induction texts generalizing memo with
  | nil => exact faithful
  | cons text texts induction => exact induction (isFaithful_answerWith faithful text true)

/-- Texts that have been answered before do not change an answer. -/
theorem answer_memoAfter (registry : Registry K) (earlier : List String) (text : String) :
    (registry.answer text (registry.memoAfter earlier)).1 = registry.resolve text :=
  answerWith_fst (isFaithful_foldl (Memo.isFaithful_empty registry) earlier) text true

end Registry
end UnitAlgebra
