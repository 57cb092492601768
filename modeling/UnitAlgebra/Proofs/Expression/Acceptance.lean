import UnitAlgebra.Proofs.Expression.Recognition
import UnitAlgebra.Proofs.Expression.Rendering

/-!
# Accepted expressions

The evaluator accepts the texts whose words are all known and whose tokens are a phrase, and besides
them parentheses around nothing.  Of the words that are not known it reports the first one.  What
else it refuses it reports as malformed: a parenthesis without a partner, or an operator that lacks
an operand.
-/

namespace UnitAlgebra
namespace Expression

variable {K : Type} [Scalar K]

/-! ## Words that are known -/

/-- A word that has a meaning: a mark, a registered name or a number literal. -/
def IsKnown (registry : Registry K) : Word → Prop
  | .mark _ => True
  | .plain text =>
      registry.contains (String.ofList text) = true ∨ (Scalar.ofWord? K text).isSome = true

/-- The token that a word stands for; a registered name is no number. -/
inductive Reads (registry : Registry K) : Word → Token K → Prop where
  /-- A mark stands for itself. -/
  | mark (mark : Mark) : Reads registry (.mark mark) (.ofMark mark)
  /-- A registered name stands for its unit. -/
  | unit {text : List Char} {unit : CompoundUnit K}
      (registered : registry.lookup? (String.ofList text) = some unit) :
      Reads registry (.plain text) (.operand (.bare unit))
  /-- Any other number literal stands for its number without a unit. -/
  | number {text : List Char} {number : K}
      (unregistered : registry.lookup? (String.ofList text) = none)
      (literal : Scalar.ofWord? K text = some number) :
      Reads registry (.plain text)
        (.operand (.measured (.ofNumber number registry.dimensionless)))

/-- The first word without a meaning is a given name. -/
def FirstUnknown (registry : Registry K) (split : List Word) (name : String) : Prop :=
  ∃ (before : List Word) (text : List Char) (after : List Word),
    split = before ++ .plain text :: after ∧ (∀ word ∈ before, IsKnown registry word) ∧
      ¬IsKnown registry (.plain text) ∧ name = String.ofList text

section

variable {registry : Registry K} {word : Word} {split : List Word}

theorem IsKnown.exists_reads (known : IsKnown registry word) :
    ∃ token, Reads registry word token ∧ Token.ofWord registry word = .ok token := by
  cases word with
  | mark mark => exact ⟨.ofMark mark, .mark mark, rfl⟩
  | plain text =>
      cases lookup_eq : registry.lookup? (String.ofList text) with
      | some unit =>
          exact ⟨_, .unit lookup_eq, by simp [Token.ofWord, Token.valueOfWord?, lookup_eq]⟩
      | none =>
          have literal : (Scalar.ofWord? K text).isSome = true := by
            rcases known with registered | literal
            · obtain ⟨unit, found⟩ := contains_iff_lookup?.mp registered
              rw [lookup_eq] at found
              cases found
            · exact literal
          obtain ⟨number, read⟩ := Option.isSome_iff_exists.mp literal
          exact ⟨_, .number lookup_eq read, by
            simp [Token.ofWord, Token.valueOfWord?, lookup_eq, read]⟩

theorem ofWord_of_not_isKnown {text : List Char} (unknown : ¬IsKnown registry (.plain text)) :
    Token.ofWord registry (.plain text) = .error (.unknownUnit (String.ofList text)) := by
  rw [IsKnown, not_or] at unknown
  obtain ⟨unregistered, no_literal⟩ := unknown
  have lookup_eq : registry.lookup? (String.ofList text) = none := by
    cases lookup_eq : registry.lookup? (String.ofList text) with
    | none => rfl
    | some unit => exact absurd (contains_iff_lookup?.mpr ⟨unit, lookup_eq⟩) unregistered
  have literal_eq : Scalar.ofWord? K text = none := by simpa using no_literal
  simp [Token.ofWord, Token.valueOfWord?, lookup_eq, literal_eq]

theorem exists_tokens (known : ∀ word ∈ split, IsKnown registry word) :
    ∃ tokens, List.Forall₂ (Reads registry) split tokens ∧
      split.mapM (Token.ofWord registry) = .ok tokens := by
  induction split with
  | nil => exact ⟨[], .nil, rfl⟩
  | cons word rest induction =>
      rw [List.forall_mem_cons] at known
      obtain ⟨token, reads, read⟩ := known.1.exists_reads
      obtain ⟨tokens, rest_reads, rest_read⟩ := induction known.2
      exact ⟨token :: tokens, .cons reads rest_reads, Outcome.mapM_cons_eq_ok read rest_read⟩

theorem FirstUnknown.mapM_eq {name : String} (first : FirstUnknown registry split name) :
    split.mapM (Token.ofWord registry) = .error (.unknownUnit name) := by
  obtain ⟨before, text, after, rfl, known, unknown, rfl⟩ := first
  obtain ⟨tokens, -, read⟩ := exists_tokens known
  rw [List.mapM_append, read, List.mapM_cons, ofWord_of_not_isKnown unknown]
  rfl

theorem isKnown_or_firstUnknown (registry : Registry K) (split : List Word) :
    (∀ word ∈ split, IsKnown registry word) ∨ ∃ name, FirstUnknown registry split name := by
  induction split with
  | nil => exact .inl (by simp)
  | cons word rest induction =>
      by_cases known : IsKnown registry word
      · rcases induction with all_known | ⟨name, before, text, after, rfl, first⟩
        · exact .inl (List.forall_mem_cons.mpr ⟨known, all_known⟩)
        · refine .inr ⟨name, word :: before, text, after, rfl, ?_, first.2⟩
          exact List.forall_mem_cons.mpr ⟨known, first.1⟩
      · cases word with
        | mark mark => exact absurd trivial known
        | plain text => exact .inr ⟨_, [], text, rest, rfl, by simp, known, rfl⟩

theorem Reads.isSingle {value : Value K} (reads : Reads registry word (.operand value)) :
    value.IsSingle := by
  generalize token_eq : Token.operand value = token at reads
  cases reads with
  | mark mark => rcases mark with operator | _ | _ <;> cases token_eq
  | unit registered =>
      cases token_eq
      exact .bare _
  | number unregistered literal =>
      cases token_eq
      exact .measured _ _

theorem isSingle_of_reads {tokens : List (Token K)}
    (reads : List.Forall₂ (Reads registry) split tokens) {value : Value K}
    (mem : .operand value ∈ tokens) : value.IsSingle := by
  induction reads with
  | nil => cases mem
  | cons first rest induction =>
      rcases List.mem_cons.mp mem with rfl | later
      · exact first.isSingle
      · exact induction later

end

/-! ## Failures -/

section

variable {text : String}

/-- A failure that the evaluator reports of a text whose words are all known. -/
inductive IsMalformed (text : String) : UnitError → Prop where
  /-- A parenthesis closes that was never opened. -/
  | unmatchedClose : IsMalformed text (.malformedExpression (.unmatchedClose text))
  /-- A parenthesis is never closed. -/
  | unmatchedOpen : IsMalformed text (.malformedExpression (.unmatchedOpen text))
  /-- An operator lacks an operand. -/
  | missingOperand (operator : Operator) :
      IsMalformed text (.malformedExpression (.missingOperand operator text))

theorem IsMalformed.ne {fault : SyntaxFault}
    (malformed : IsMalformed text (.malformedExpression fault)) :
    (∀ parenthesis expression, fault ≠ .unexpectedParenthesis parenthesis expression) ∧
      ∀ expression operands, fault ≠ .unusedOperands expression operands := by
  cases malformed with
  | unmatchedClose => exact ⟨nofun, nofun⟩
  | unmatchedOpen => exact ⟨nofun, nofun⟩
  | missingOperand operator => exact ⟨nofun, nofun⟩

/-- A translation fails for a parenthesis without a partner only. -/
theorem isMalformed_of_postfixAfter {waiting tokens : List (Token K)} {fault : SyntaxFault}
    (failed : postfixAfter text waiting tokens = .error fault) :
    IsMalformed text (.malformedExpression fault) := by
  induction tokens generalizing waiting with
  | nil =>
      rw [postfixAfter] at failed
      split at failed
      · cases failed
      · obtain rfl := Except.error.inj failed
        exact .unmatchedOpen
  | cons token rest induction =>
      cases token with
      | operand value =>
          rw [postfixAfter_operand] at failed
          exact induction (Outcome.error_of_map_eq_error failed)
      | operator operator =>
          rw [postfixAfter_operator] at failed
          exact induction (Outcome.error_of_map_eq_error failed)
      | opening =>
          rw [postfixAfter_opening] at failed
          exact induction failed
      | closing =>
          rw [postfixAfter] at failed
          split at failed
          · rw [bind_pure_comp] at failed
            exact induction (Outcome.error_of_map_eq_error failed)
          · obtain rfl := Except.error.inj failed
            exact .unmatchedClose

/-- A token that is no parenthesis, and a single value if it is an operand. -/
def IsSingleOrOperator : Token K → Prop
  | .operand value => value.IsSingle
  | .operator _ => True
  | .opening | .closing => False

/-- On single values a token gives single values or lacks an operand. -/
theorem execute_isSingle {stack : List (Value K)} {token : Token K}
    (stack_single : ∀ value ∈ stack, value.IsSingle) (token_single : IsSingleOrOperator token) :
    (∃ after, execute text stack token = .ok after ∧ ∀ value ∈ after, value.IsSingle) ∨
      ∃ failure, execute text stack token = .error failure ∧ IsMalformed text failure := by
  cases token with
  | operand value =>
      exact .inl ⟨_, rfl, List.forall_mem_cons.mpr ⟨token_single, stack_single⟩⟩
  | operator operator =>
      rcases stack with _ | ⟨right, _ | ⟨left, stack⟩⟩
      · exact .inr ⟨_, rfl, .missingOperand operator⟩
      · exact .inr ⟨_, rfl, .missingOperand operator⟩
      · rw [List.forall_mem_cons, List.forall_mem_cons] at stack_single
        obtain ⟨right_single, left_single, rest_single⟩ := stack_single
        obtain ⟨value, combined, single⟩ := left_single.combine right_single operator
        refine .inl ⟨value :: stack, ?_, List.forall_mem_cons.mpr ⟨single, rest_single⟩⟩
        rw [execute, combined]
        rfl
  | opening => cases token_single
  | closing => cases token_single

theorem foldlM_isSingle {code : List (Token K)} {stack : List (Value K)}
    (stack_single : ∀ value ∈ stack, value.IsSingle)
    (code_single : ∀ token ∈ code, IsSingleOrOperator token) :
    (∃ after, code.foldlM (execute text) stack = .ok after) ∨
      ∃ failure, code.foldlM (execute text) stack = .error failure ∧ IsMalformed text failure := by
  induction code generalizing stack with
  | nil => exact .inl ⟨stack, rfl⟩
  | cons token code induction =>
      obtain ⟨first_single, later_single⟩ := List.forall_mem_cons.mp code_single
      rw [List.foldlM_cons]
      rcases execute_isSingle stack_single first_single with
        ⟨after, executed, after_single⟩ | ⟨failure, executed, malformed⟩
      · rw [executed]
        exact induction after_single later_single
      · rw [executed]
        exact .inr ⟨failure, rfl, malformed⟩

end

/-! ## Acceptance -/

section

variable {registry : Registry K} {text : String} {tokens : List (Token K)}

theorem Phrase.exists_value {category : Category} {tree : Tree (Value K)}
    (phrase : Phrase category tree tokens)
    (single : ∀ value, .operand value ∈ tokens → value.IsSingle) :
    ∃ value, tree.evaluate .ok = .ok value ∧ value.IsSingle := by
  -- Both operators combine the values of the two sides.
  have combined : ∀ {left right : Tree (Value K)} (operator : Operator),
      (∃ value, left.evaluate .ok = .ok value ∧ value.IsSingle) →
        (∃ value, right.evaluate .ok = .ok value ∧ value.IsSingle) →
        ∃ value, (Tree.node operator left right).evaluate .ok = .ok value ∧ value.IsSingle := by
    rintro left right operator ⟨left_value, left_eq, left_single⟩
      ⟨right_value, right_eq, right_single⟩
    obtain ⟨value, combined, value_single⟩ := left_single.combine right_single operator
    refine ⟨value, ?_, value_single⟩
    rw [Tree.evaluate, left_eq, right_eq]
    exact combined
  induction phrase with
  | operand value => exact ⟨value, rfl, single value List.mem_cons_self⟩
  | group inner induction => exact induction fun value mem => single value (by simp [mem])
  | term inner induction => exact induction single
  | operator operator before after before_induction after_induction =>
      exact combined operator (before_induction fun value mem => single value (by simp [mem]))
        (after_induction fun value mem => single value (by simp [mem]))
  | adjacent before after before_induction after_induction =>
      exact combined .times (before_induction fun value mem => single value (by simp [mem]))
        (after_induction fun value mem => single value (by simp [mem]))

theorem evaluate_of_read (read : (words text).mapM (Token.ofWord registry) = .ok tokens) :
    evaluate registry text =
      (toPostfix text (Token.joinNeighbours tokens)).mapError .malformedExpression >>=
        compute registry text := by
  rw [evaluate, Token.ofText, read]
  rfl

/-- A run ends in a failure, a value or nothing. -/
theorem compute_cases {code : List (Token K)}
    (single : ∀ token ∈ code, IsSingleOrOperator token)
    (bound : operands code ≤ operators code + 1) :
    (∃ failure, compute registry text code = .error failure ∧ IsMalformed text failure) ∨
      (∃ value, compute registry text code = .ok value ∧ operands code = operators code + 1) ∨
      code = [] := by
  have none_single : ∀ value ∈ ([] : List (Value K)), value.IsSingle := by simp
  rcases foldlM_isSingle none_single single with
    ⟨after, ran⟩ | ⟨failure, failed, malformed⟩
  · have balance := length_of_foldlM ran
    rcases after with _ | ⟨value, _ | ⟨second, rest⟩⟩
    · exact .inr (.inr (eq_nil_of_foldlM ran).1)
    · refine .inr (.inl ⟨value, by rw [compute, ran]; rfl, ?_⟩)
      simp at balance
      omega
    · simp at balance
      omega
  · exact .inl ⟨failure, by rw [compute, failed]; rfl, malformed⟩

/-- The postfix order of single values and marks holds single values and operators. -/
theorem isSingleOrOperator_of_toPostfix {code : List (Token K)}
    (translated : toPostfix text (Token.joinNeighbours tokens) = .ok code)
    (single : ∀ value, .operand value ∈ tokens → value.IsSingle) :
    ∀ token ∈ code, IsSingleOrOperator token := by
  intro token mem
  obtain ⟨not_opening, not_closing, mem_joined⟩ := mem_of_toPostfix translated mem
  cases token with
  | operand value => exact single value (mem_of_mem_joinNeighbours mem_joined)
  | operator operator => trivial
  | opening => exact not_opening rfl
  | closing => exact not_closing rfl

theorem evaluate_cases (read : (words text).mapM (Token.ofWord registry) = .ok tokens)
    (single : ∀ value, .operand value ∈ tokens → value.IsSingle) :
    (∃ failure, evaluate registry text = .error failure ∧ IsMalformed text failure) ∨
      (∃ value, evaluate registry text = .ok value ∧ ∃ tree, Phrase .expression tree tokens) ∨
      (evaluate registry text = .ok (.bare registry.dimensionless) ∧ EmptyNest tokens) := by
  rw [evaluate_of_read read]
  cases translated : toPostfix text (Token.joinNeighbours tokens) with
  | error fault => exact .inl ⟨_, rfl, isMalformed_of_postfixAfter translated⟩
  | ok code =>
      have joined := translated
      rw [toPostfix, Token.joinNeighbours_eq_joinAfter] at joined
      obtain ⟨pushed, applied⟩ := counts_of_postfixAfter joined
      rw [operands_joinAfter, operands_nil, Nat.add_zero] at pushed
      rw [operators_nil, Nat.add_zero] at applied
      have code_bound : operands code ≤ operators code + 1 := by
        rw [pushed, applied]
        exact operands_le_operators false tokens
      rcases compute_cases (isSingleOrOperator_of_toPostfix translated single) code_bound with
        failed | ⟨value, computed, balance⟩ | rfl
      · exact .inl failed
      · exact .inr (.inl ⟨value, computed, exists_phrase_of_toPostfix translated balance⟩)
      · obtain ⟨depth, tokens_eq⟩ := exists_nest_of_postfixAfter joined pushed.symm applied.symm
        exact .inr (.inr ⟨rfl, depth, by simpa using tokens_eq⟩)

theorem EmptyNest.evaluate_eq (nest : EmptyNest tokens)
    (read : (words text).mapM (Token.ofWord registry) = .ok tokens) :
    evaluate registry text = .ok (.bare registry.dimensionless) := by
  obtain ⟨depth, rfl⟩ := nest
  have translated := postfixAfter_nest (K := K) text 0 depth
  rw [Nat.zero_add] at translated
  rw [evaluate_of_read read, joinNeighbours_nest, toPostfix]
  change (postfixAfter text [] _).mapError _ >>= _ = _
  rw [show ([] : List (Token K)) = List.replicate 0 .opening from rfl, translated]
  rfl

/-- A text whose words are known is accepted exactly if it is a phrase or an empty nest. -/
theorem exists_value_iff (read : (words text).mapM (Token.ofWord registry) = .ok tokens)
    (single : ∀ value, .operand value ∈ tokens → value.IsSingle) :
    (∃ value, evaluate registry text = .ok value) ↔
      (∃ tree, Phrase .expression tree tokens) ∨ EmptyNest tokens := by
  constructor
  · rintro ⟨value, evaluated⟩
    rcases evaluate_cases read single with ⟨failure, failed, -⟩ | ⟨-, -, phrase⟩ | ⟨-, nest⟩
    · rw [evaluated] at failed
      cases failed
    · exact .inl phrase
    · exact .inr nest
  · rintro (⟨tree, phrase⟩ | nest)
    · obtain ⟨value, evaluated, -⟩ := phrase.exists_value single
      exact ⟨value, phrase.evaluate_eq read evaluated⟩
    · exact ⟨_, nest.evaluate_eq read⟩

theorem isMalformed_of_evaluate (read : (words text).mapM (Token.ofWord registry) = .ok tokens)
    (single : ∀ value, .operand value ∈ tokens → value.IsSingle) {failure : UnitError}
    (failed : evaluate registry text = .error failure) : IsMalformed text failure := by
  rcases evaluate_cases read single with
    ⟨other, failed_also, malformed⟩ | ⟨value, evaluated, -⟩ | ⟨evaluated, -⟩
  · rw [failed] at failed_also
    cases failed_also
    exact malformed
  · rw [failed] at evaluated
    cases evaluated
  · rw [failed] at evaluated
    cases evaluated

theorem FirstUnknown.evaluate_eq {name : String}
    (first : FirstUnknown registry (words text) name) :
    evaluate registry text = .error (.unknownUnit name) := by
  rw [evaluate, Token.ofText, first.mapM_eq]
  rfl

end

/--
The evaluator reports the first word without a meaning.  If there is none, it accepts the phrases of
the grammar and parentheses around nothing, whose value has no dimension, and calls everything else
malformed.  No parenthesis is left in the postfix order of a text, and no text is refused for a
parenthesis in its postfix order or for operands that are left over.
-/
theorem evaluate_accepts_phrases (registry : Registry K) (text : String) (split : List Word)
    (splits : Splits text.toList split) :
    (∀ name, evaluate registry text = .error (.unknownUnit name) ↔
        FirstUnknown registry split name) ∧
      ((∀ name, ¬FirstUnknown registry split name) →
        ∃ tokens, List.Forall₂ (Reads registry) split tokens ∧
          ((∃ value, evaluate registry text = .ok value) ↔
            (∃ tree, Phrase .expression tree tokens) ∨ EmptyNest tokens) ∧
          (EmptyNest tokens → evaluate registry text = .ok (.bare registry.dimensionless)) ∧
          ∀ failure, evaluate registry text = .error failure → IsMalformed text failure) ∧
      (∀ tokens code, Token.ofText registry text = .ok tokens → toPostfix text tokens = .ok code →
        .opening ∉ code ∧ .closing ∉ code) ∧
      ∀ fault, evaluate registry text = .error (.malformedExpression fault) →
        (∀ parenthesis expression, fault ≠ .unexpectedParenthesis parenthesis expression) ∧
          ∀ expression operands, fault ≠ .unusedOperands expression operands := by
  obtain rfl := splits_iff.mp splits
  have no_parenthesis (tokens code : List (Token K)) (_ : Token.ofText registry text = .ok tokens)
      (translated : toPostfix text tokens = .ok code) : .opening ∉ code ∧ .closing ∉ code :=
    ⟨fun mem => (mem_of_toPostfix translated mem).1 rfl,
      fun mem => (mem_of_toPostfix translated mem).2.1 rfl⟩
  rcases isKnown_or_firstUnknown registry (words text) with known | ⟨unknown, first⟩
  · obtain ⟨tokens, reads, read⟩ := exists_tokens known
    have single : ∀ value, .operand value ∈ tokens → value.IsSingle :=
      fun value mem => isSingle_of_reads reads mem
    refine ⟨fun name => ⟨fun failed => ?_, FirstUnknown.evaluate_eq⟩, fun _ => ?_, no_parenthesis,
      fun fault failed => (isMalformed_of_evaluate read single failed).ne⟩
    · cases isMalformed_of_evaluate read single failed
    · exact ⟨tokens, reads, exists_value_iff read single, fun nest => nest.evaluate_eq read,
        fun failure failed => isMalformed_of_evaluate read single failed⟩
  · have refused := first.evaluate_eq
    refine ⟨fun name => ⟨fun failed => ?_, FirstUnknown.evaluate_eq⟩,
      fun known => absurd first (known unknown), no_parenthesis, fun fault failed => ?_⟩
    · rw [refused] at failed
      cases failed
      exact first
    · rw [refused] at failed
      cases failed

/-- A registry that knows the second only. -/
private def secondOnly : Registry Rat :=
  { Catalogue.empty with
    references := ∅
    units := (∅ : Std.TreeMap String (CompoundUnit Rat)).insert "s"
      (.ofSides [⟨"s", "[time]", "s", 1, Scalar.isMultiplier_one⟩] [] .dimensionless) }

/-- A text with an unknown word after a known one, and parentheses around nothing. -/
theorem evaluate_unknown_and_nest :
    evaluate secondOnly "s*q)" = .error (.unknownUnit "q") ∧
      evaluate secondOnly "( )" = .ok (.bare secondOnly.dimensionless) := by
  constructor
  · refine ((evaluate_accepts_phrases secondOnly "s*q)"
      [.plain ['s'], .mark (.operator .times), .plain ['q'], .mark .closing]
      (splits_iff.mpr rfl)).1 "q").mpr ?_
    refine ⟨[.plain ['s'], .mark (.operator .times)], ['q'], [.mark .closing], rfl, ?_, ?_, rfl⟩
    · exact List.forall_mem_cons.mpr ⟨.inl (by decide), List.forall_mem_singleton.mpr trivial⟩
    · exact not_or.mpr ⟨by decide, by decide⟩
  · obtain ⟨tokens, reads, -, nest, -⟩ := (evaluate_accepts_phrases secondOnly "( )"
      [.mark .opening, .mark .closing] (splits_iff.mpr rfl)).2.1 (by
        rintro name ⟨before, text, after, words_eq, -⟩
        have mem : Word.plain text ∈ [Word.mark .opening, .mark .closing] := words_eq ▸ by simp
        simp at mem)
    rcases reads with _ | ⟨⟨_⟩, _ | ⟨⟨_⟩, _ | _⟩⟩
    exact nest ⟨1, rfl⟩

end Expression
end UnitAlgebra
