import UnitAlgebra.Proofs.Expression.Acceptance
import UnitAlgebra.Proofs.PhysicalValue
import UnitAlgebra.Proofs.Reachability

/-!
# Worths of expressions

Over the rationals a value is worth its number times the size of its unit, where a bare unit counts
once.  A quantity keeps the factor that an operator incurs, and two bare units drop it.  So an
expression is worth the product or quotient of what its words are worth, as its tree prescribes,
unless an operator of the tree joins two bare units that incur a factor.
-/

namespace UnitAlgebra

/-! ## Values -/

theorem Magnitude.pairs_scalar {K : Type} (step : K → K → K) (magnitude : Magnitude K)
    (number : K) :
    Pairs step magnitude (.scalar number) (magnitude.map fun value => step value number) := by
  cases magnitude with
  | scalar value => exact .scalars value number
  | list values => exact .listScalar values number

theorem Magnitude.scalar_pairs {K : Type} (step : K → K → K) (number : K)
    (magnitude : Magnitude K) :
    Pairs step (.scalar number) magnitude (magnitude.map (step number)) := by
  cases magnitude with
  | scalar value => exact .scalars number value
  | list values => exact .scalarList number values

namespace Value

/-- The physical value; a bare unit counts once. -/
def inBase (value : Value Rat) : Magnitude Rat :=
  value.toQuantity.inBase

@[simp]
theorem inBase_bare (unit : CompoundUnit Rat) : (bare unit).inBase = .scalar unit.size :=
  congrArg Magnitude.scalar (one_mul unit.size)

@[simp]
theorem inBase_measured (quantity : Quantity Rat) : (measured quantity).inBase = quantity.inBase :=
  rfl

/-- What a value of one number is worth. -/
def worth? (value : Value Rat) : Option Rat :=
  value.inBase.scalar?

theorem worth?_bare (unit : CompoundUnit Rat) : (bare unit).worth? = some unit.size := by
  rw [worth?, inBase_bare, Magnitude.scalar?]

theorem worth?_number (number : Rat) (registry : Registry Rat) :
    (measured (.ofNumber number registry.dimensionless)).worth? = some number := by
  have size_eq : registry.dimensionless.size = 1 :=
    (CompoundUnit.ofSides_isStandard [] []).size_eq_one (by decide)
  change some (number * registry.dimensionless.size) = some number
  rw [size_eq, mul_one]

/-- Two operands do not drop a factor: one of them is a quantity, or they incur none. -/
def KeepsFactor {K : Type} [Scalar K] (operator : Operator) (left right : Value K) : Prop :=
  ∀ leftUnit rightUnit, left = .bare leftUnit → right = .bare rightUnit →
    (leftUnit.combine operator rightUnit).2 = 1

/-- Two bare units that incur no factor are worth what the operator makes of their sizes. -/
theorem inBase_combine_bare {left right : CompoundUnit Rat} (left_standard : left.IsStandard)
    (right_standard : right.IsStandard) {operator : Operator}
    (factor_eq : (left.combine operator right).2 = 1) :
    (bare (left.combine operator right).1).inBase =
      .scalar (operator.operation.apply left.size right.size) := by
  have kept := left_standard.size_combine right_standard operator
  rw [factor_eq, one_mul] at kept
  rw [inBase_bare, kept]

/-- An operator that drops no factor acts on physical values as it acts on numbers. -/
theorem inBase_combine {left right value : Value Rat} {operator : Operator}
    (left_standard : left.unitOf.IsStandard) (right_standard : right.unitOf.IsStandard)
    (keeps : KeepsFactor operator left right) (combined : left.combine operator right = .ok value) :
    Magnitude.Pairs operator.operation.apply left.inBase right.inBase value.inBase := by
  cases left with
  | bare left =>
      change left.IsStandard at left_standard
      cases right with
      | bare right =>
          change right.IsStandard at right_standard
          have value_eq : bare (left.combine operator right).1 = value := by
            cases operator <;> exact Except.ok.inj combined
          rw [← value_eq, inBase_combine_bare left_standard right_standard (keeps _ _ rfl rfl),
            inBase_bare, inBase_bare]
          exact .scalars left.size right.size
      | measured right =>
          cases operator
          · obtain rfl := Except.ok.inj combined
            have commuted : ∀ number : Rat, number * left.size = left.size * number :=
              fun number => mul_comm number left.size
            simp only [inBase_bare, inBase_measured,
              Quantity.inBase_multiplyUnit right_standard left_standard, commuted]
            exact Magnitude.scalar_pairs _ left.size right.inBase
          · obtain ⟨quotient, divided, value_eq⟩ := Outcome.exists_of_bind_eq_ok combined
            obtain rfl := Except.ok.inj value_eq
            exact Quantity.inBase_divide left_standard right_standard divided
  | measured left =>
      cases right with
      | bare right =>
          change right.IsStandard at right_standard
          cases operator
          · obtain rfl := Except.ok.inj combined
            rw [inBase_bare, inBase_measured, inBase_measured,
              Quantity.inBase_multiplyUnit left_standard right_standard]
            exact Magnitude.pairs_scalar _ left.inBase right.size
          · obtain rfl := Except.ok.inj combined
            rw [inBase_bare, inBase_measured, inBase_measured,
              Quantity.inBase_divideUnit left_standard right_standard]
            exact Magnitude.pairs_scalar _ left.inBase right.size
      | measured right =>
          cases operator
          · obtain ⟨product, multiplied, value_eq⟩ := Outcome.exists_of_bind_eq_ok combined
            obtain rfl := Except.ok.inj value_eq
            exact Quantity.inBase_multiply left_standard right_standard multiplied
          · obtain ⟨quotient, divided, value_eq⟩ := Outcome.exists_of_bind_eq_ok combined
            obtain rfl := Except.ok.inj value_eq
            exact Quantity.inBase_divide left_standard right_standard divided

/-- The worth of single values that drop no factor is the product or quotient of their worths. -/
theorem worth?_combine {left right value : Value Rat} {operator : Operator}
    (left_standard : left.unitOf.IsStandard) (right_standard : right.unitOf.IsStandard)
    (keeps : KeepsFactor operator left right) (combined : left.combine operator right = .ok value)
    {leftWorth rightWorth : Rat} (left_worth : left.worth? = some leftWorth)
    (right_worth : right.worth? = some rightWorth) :
    value.worth? = some (operator.operation.apply leftWorth rightWorth) := by
  have paired := inBase_combine left_standard right_standard keeps combined
  rw [worth?] at left_worth right_worth ⊢
  generalize left.inBase = leftValue at paired left_worth
  generalize right.inBase = rightValue at paired right_worth
  generalize value.inBase = result at paired
  -- A list on either side is worth nothing, so both sides are single numbers.
  cases paired with
  | scalars left right =>
      obtain rfl := Option.some.inj left_worth
      obtain rfl := Option.some.inj right_worth
      rfl
  | listScalar left right => cases left_worth
  | scalarList left right => cases right_worth
  | lists same_length => cases left_worth

theorem exists_bare_of_combine {K : Type} [Scalar K] {left right : Value K} {operator : Operator}
    {unit : CompoundUnit K} (combined : left.combine operator right = .ok (.bare unit)) :
    ∃ leftUnit, left = .bare leftUnit := by
  cases left with
  | bare leftUnit => exact ⟨leftUnit, rfl⟩
  | measured quantity =>
      cases right with
      | bare rightUnit => cases operator <;> cases combined
      | measured other =>
          cases operator <;>
          · obtain ⟨result, -, value_eq⟩ := Outcome.exists_of_bind_eq_ok combined
            cases value_eq

end Value

namespace Expression

variable {K : Type} [Scalar K]

/-! ## Trees -/

namespace Tree

/-- What a tree is worth: the product or quotient of the worths of its leaves that it prescribes. -/
def worth? : Tree (Value Rat) → Option Rat
  | .leaf value => value.worth?
  | .node operator left right => do
      let leftWorth ← left.worth?
      let rightWorth ← right.worth?
      return operator.operation.apply leftWorth rightWorth

/-- No operator of a tree joins two bare units that incur a factor. -/
def IsLossless : Tree (Value K) → Prop
  | .leaf _ => True
  | .node operator left right =>
      left.IsLossless ∧ right.IsLossless ∧
        ∀ leftValue rightValue, left.evaluate .ok = .ok leftValue →
          right.evaluate .ok = .ok rightValue → Value.KeepsFactor operator leftValue rightValue

theorem All.mono {Leaf : Type} {property weaker : Leaf → Prop}
    (implies : ∀ value, property value → weaker value) {tree : Tree Leaf}
    (holds : tree.All property) : tree.All weaker := by
  induction tree with
  | leaf value => exact implies value holds
  | node operator left right left_induction right_induction =>
      exact ⟨left_induction holds.1, right_induction holds.2⟩

end Tree

theorem Closed.tree {property : Value K → Prop} (closed : Closed property)
    {tree : Tree (Value K)} (leaves : tree.All property) {value : Value K}
    (evaluated : tree.evaluate .ok = .ok value) : property value := by
  induction tree generalizing value with
  | leaf leaf =>
      obtain rfl := Except.ok.inj evaluated
      exact leaves
  | node operator left right left_induction right_induction =>
      obtain ⟨left_value, left_eq, rest_eq⟩ := Outcome.exists_of_bind_eq_ok evaluated
      obtain ⟨right_value, right_eq, combined⟩ := Outcome.exists_of_bind_eq_ok rest_eq
      exact closed operator (left_induction leaves.1 left_eq)
        (right_induction leaves.2 right_eq) combined

theorem closed_isStandard : Closed fun value : Value K => value.unitOf.IsStandard := by
  intro left right value operator left_standard right_standard combined
  -- A quantity may change sides in a product, so each of the two units may come first.
  rcases Value.unitOf_combine combined with unit_eq | unit_eq
  · rw [unit_eq]
    exact left_standard.combine right_standard operator
  · rw [unit_eq]
    exact right_standard.combine left_standard operator

/-- A tree that drops no factor is worth what its value is worth. -/
theorem Tree.exists_worth {tree : Tree (Value Rat)}
    (standard : tree.All fun value => value.unitOf.IsStandard)
    (single : tree.All fun value => ∃ worth, value.worth? = some worth) (lossless : tree.IsLossless)
    {value : Value Rat} (evaluated : tree.evaluate .ok = .ok value) :
    ∃ worth, tree.worth? = some worth ∧ value.worth? = some worth := by
  induction tree generalizing value with
  | leaf leaf =>
      obtain rfl := Except.ok.inj evaluated
      obtain ⟨worth, worth_eq⟩ := single
      exact ⟨worth, worth_eq, worth_eq⟩
  | node operator left right left_induction right_induction =>
      obtain ⟨left_lossless, right_lossless, keeps⟩ := lossless
      obtain ⟨left_value, left_eq, rest_eq⟩ := Outcome.exists_of_bind_eq_ok evaluated
      obtain ⟨right_value, right_eq, combined⟩ := Outcome.exists_of_bind_eq_ok rest_eq
      obtain ⟨left_worth, left_tree, left_worth_eq⟩ :=
        left_induction standard.1 single.1 left_lossless left_eq
      obtain ⟨right_worth, right_tree, right_worth_eq⟩ :=
        right_induction standard.2 single.2 right_lossless right_eq
      refine ⟨operator.operation.apply left_worth right_worth, ?_, ?_⟩
      · rw [Tree.worth?, left_tree, right_tree]
        rfl
      · exact Value.worth?_combine (closed_isStandard.tree standard.1 left_eq)
          (closed_isStandard.tree standard.2 right_eq)
          (keeps left_value right_value left_eq right_eq) combined left_worth_eq right_worth_eq

/-! ## Operands -/

theorem Reads.exists_operand {registry : Registry K} {word : Word} {value : Value K}
    (reads : Reads registry word (.operand value)) :
    ∃ text, word = .plain text ∧
      ((∃ unit, registry.lookup? (String.ofList text) = some unit ∧ value = .bare unit) ∨
        ∃ number, registry.lookup? (String.ofList text) = none ∧
          value = .measured (.ofNumber number registry.dimensionless)) := by
  generalize token_eq : Token.operand value = token at reads
  cases reads with
  | mark mark => rcases mark with operator | _ | _ <;> cases token_eq
  | unit registered =>
      cases token_eq
      exact ⟨_, rfl, .inl ⟨_, registered, rfl⟩⟩
  | number unregistered literal =>
      cases token_eq
      exact ⟨_, rfl, .inr ⟨_, unregistered, rfl⟩⟩

theorem Phrase.all {property : Value K → Prop} {category : Category} {tree : Tree (Value K)}
    {tokens : List (Token K)} (phrase : Phrase category tree tokens)
    (operands_hold : ∀ value, .operand value ∈ tokens → property value) : tree.All property := by
  induction phrase with
  | operand value => exact operands_hold value List.mem_cons_self
  | group inner induction => exact induction fun value mem => operands_hold value (by simp [mem])
  | term inner induction => exact induction operands_hold
  | operator operator before after before_induction after_induction =>
      exact ⟨before_induction fun value mem => operands_hold value (by simp [mem]),
        after_induction fun value mem => operands_hold value (by simp [mem])⟩
  | adjacent before after before_induction after_induction =>
      exact ⟨before_induction fun value mem => operands_hold value (by simp [mem]),
        after_induction fun value mem => operands_hold value (by simp [mem])⟩

theorem exists_word_of_mem {registry : Registry K} {split : List Word} {tokens : List (Token K)}
    (reads : List.Forall₂ (Reads registry) split tokens) {token : Token K}
    (member : token ∈ tokens) : ∃ word ∈ split, Reads registry word token := by
  induction reads with
  | nil => cases member
  | cons first rest induction =>
      rcases List.mem_cons.mp member with rfl | later
      · exact ⟨_, List.mem_cons_self, first⟩
      · obtain ⟨word, word_member, read⟩ := induction later
        exact ⟨word, List.mem_cons_of_mem _ word_member, read⟩

theorem worth_of_reads {table : DefinitionTable Rat} {registry : Registry Rat}
    (built : Registry.ofTable table = .ok registry) {word : Word} {value : Value Rat}
    (reads : Reads registry word (.operand value)) :
    value.unitOf.IsStandard ∧ ∃ worth, value.worth? = some worth := by
  obtain ⟨text, rfl, ⟨unit, found, rfl⟩ | ⟨number, -, rfl⟩⟩ := reads.exists_operand
  · obtain ⟨above, below, draws⟩ := (Registry.provides_of_ofTable built).drawn found
    exact ⟨draws.entries.isStandard, unit.size, Value.worth?_bare unit⟩
  · exact ⟨CompoundUnit.ofSides_isStandard [] [], number, Value.worth?_number number registry⟩

/-! ## Expressions without parentheses -/

/-- No word is a parenthesis. -/
def IsFlat (split : List Word) : Prop :=
  .mark .opening ∉ split ∧ .mark .closing ∉ split

/-- The first word is a number and no name. -/
def StartsWithNumber (registry : Registry K) (split : List Word) : Prop :=
  ∃ text rest, split = .plain text :: rest ∧ registry.lookup? (String.ofList text) = none

theorem Phrase.ne_nil {category : Category} {tree : Tree (Value K)} {tokens : List (Token K)}
    (phrase : Phrase category tree tokens) : tokens ≠ [] := by
  induction phrase with
  | operand value => simp
  | group inner induction => simp
  | term inner induction => exact induction
  | operator operator before after before_induction after_induction => simp
  | adjacent before after before_induction after_induction => simp [before_induction]

theorem Phrase.exists_leaf {tree : Tree (Value K)} {tokens : List (Token K)}
    (phrase : Phrase .term tree tokens) (flat : .opening ∉ tokens) :
    ∃ value, tree = .leaf value := by
  cases phrase with
  | operand value => exact ⟨value, rfl⟩
  | group inner => simp at flat

/-- A quantity on the left of a single operand drops no factor and gives a quantity. -/
theorem Tree.lossless_node {operator : Operator} {left right : Tree (Value K)}
    (left_lossless : left.IsLossless)
    (left_measured : ∀ unit, left.evaluate .ok ≠ .ok (.bare unit))
    (right_leaf : ∃ value, right = .leaf value) :
    (Tree.node operator left right).IsLossless ∧
      ∀ unit, (Tree.node operator left right).evaluate .ok ≠ .ok (.bare unit) := by
  obtain ⟨value, rfl⟩ := right_leaf
  refine ⟨⟨left_lossless, trivial, ?_⟩, ?_⟩
  · intro leftValue rightValue left_eq right_eq leftUnit rightUnit left_bare right_bare
    rw [left_bare] at left_eq
    exact absurd left_eq (left_measured leftUnit)
  · intro unit evaluated
    obtain ⟨left_value, left_eq, rest_eq⟩ := Outcome.exists_of_bind_eq_ok evaluated
    obtain ⟨right_value, -, combined⟩ := Outcome.exists_of_bind_eq_ok rest_eq
    obtain ⟨left_unit, rfl⟩ := Value.exists_bare_of_combine combined
    exact left_measured left_unit left_eq

/-- After a number every operator of an expression without parentheses has a quantity before it. -/
theorem Phrase.lossless_of_number {category : Category} {tree : Tree (Value K)}
    {tokens : List (Token K)} (phrase : Phrase category tree tokens) (flat : .opening ∉ tokens)
    {quantity : Quantity K} {rest : List (Token K)}
    (starts : tokens = .operand (.measured quantity) :: rest) :
    tree.IsLossless ∧ ∀ unit, tree.evaluate .ok ≠ .ok (.bare unit) := by
  induction phrase generalizing rest with
  | operand value =>
      obtain ⟨operand_eq, -⟩ := List.cons.inj starts
      obtain rfl := Token.operand.inj operand_eq
      exact ⟨trivial, fun unit equal => by cases equal⟩
  | group inner induction => simp at starts
  | term inner induction => exact induction flat starts
  | operator operator before after before_induction after_induction =>
      rw [List.mem_append, List.mem_cons, not_or, not_or] at flat
      rcases List.append_eq_cons_iff.mp starts with ⟨empty, -⟩ | ⟨tail, front_eq, -⟩
      · exact absurd empty before.ne_nil
      · obtain ⟨left_lossless, left_measured⟩ := before_induction flat.1 front_eq
        exact Tree.lossless_node left_lossless left_measured (after.exists_leaf flat.2.2)
  | adjacent before after before_induction after_induction =>
      rw [List.mem_append, not_or] at flat
      rcases List.append_eq_cons_iff.mp starts with ⟨empty, -⟩ | ⟨tail, front_eq, -⟩
      · exact absurd empty before.ne_nil
      · obtain ⟨left_lossless, left_measured⟩ := before_induction flat.1 front_eq
        exact Tree.lossless_node left_lossless left_measured (after.exists_leaf flat.2)

theorem StartsWithNumber.exists_tokens {registry : Registry K} {split : List Word}
    {tokens : List (Token K)} (starts : StartsWithNumber registry split)
    (reads : List.Forall₂ (Reads registry) split tokens) :
    ∃ quantity rest, tokens = .operand (.measured quantity) :: rest := by
  obtain ⟨text, words, rfl, unregistered⟩ := starts
  cases reads with
  | cons first rest =>
      cases first with
      | unit registered =>
          rw [unregistered] at registered
          cases registered
      | number _ literal => exact ⟨_, _, rfl⟩

theorem IsFlat.not_mem {registry : Registry K} {split : List Word} {tokens : List (Token K)}
    (flat : IsFlat split) (reads : List.Forall₂ (Reads registry) split tokens) :
    .opening ∉ tokens := by
  intro member
  obtain ⟨word, word_member, read⟩ := exists_word_of_mem reads member
  generalize token_eq : (Token.opening : Token K) = token at read
  cases read with
  | mark mark =>
      rcases mark with operator | _ | _
      · cases token_eq
      · exact flat.1 word_member
      · cases token_eq
  | unit registered => cases token_eq
  | number unregistered literal => cases token_eq

/-! ## Evaluation -/

/--
What is accepted is a phrase, or parentheses around nothing.  A phrase whose tree joins no two bare
units that incur a factor has the worth that its tree prescribes, where a divisor of worth zero
gives zero on both sides.  A text without parentheses that starts with a number is such a phrase.
-/
theorem evaluate_keeps_worth {table : DefinitionTable Rat} {registry : Registry Rat}
    (built : Registry.ofTable table = .ok registry) {text : String} {value : Value Rat}
    (evaluated : evaluate registry text = .ok value) :
    ∃ tokens, List.Forall₂ (Reads registry) (words text) tokens ∧
      ((∃ tree, Phrase .expression tree tokens) ∨ EmptyNest tokens) ∧
      ∀ tree, Phrase .expression tree tokens →
        (tree.IsLossless → ∃ worth, tree.worth? = some worth ∧ value.worth? = some worth) ∧
        (IsFlat (words text) → StartsWithNumber registry (words text) → tree.IsLossless) := by
  rcases isKnown_or_firstUnknown registry (words text) with known | ⟨unknown, first⟩
  · obtain ⟨tokens, reads, read⟩ := exists_tokens known
    have operands_read : ∀ value, .operand value ∈ tokens →
        ∃ word, Reads registry word (.operand value) := fun value member =>
      (exists_word_of_mem reads member).imp fun _ found => found.2
    have accepted := (exists_value_iff read fun value member =>
      isSingle_of_reads reads member).mp ⟨value, evaluated⟩
    refine ⟨tokens, reads, accepted, fun tree phrase => ⟨fun lossless => ?_, ?_⟩⟩
    · have worths : tree.All fun value =>
          value.unitOf.IsStandard ∧ ∃ worth, value.worth? = some worth :=
        phrase.all fun value member => (operands_read value member).elim fun _ reads =>
          worth_of_reads built reads
      obtain ⟨result, result_eq, -⟩ := phrase.exists_value fun value member =>
        isSingle_of_reads reads member
      obtain rfl : result = value := by
        rw [phrase.evaluate_eq read result_eq] at evaluated
        exact Except.ok.inj evaluated
      exact Tree.exists_worth (worths.mono fun _ => And.left) (worths.mono fun _ => And.right)
        lossless result_eq
    · intro flat starts
      obtain ⟨quantity, rest, tokens_eq⟩ := starts.exists_tokens reads
      exact (phrase.lossless_of_number (flat.not_mem reads) tokens_eq).1
  · rw [first.evaluate_eq] at evaluated
    cases evaluated

/-- A table of two lengths and two times. -/
private def journeys : DefinitionTable Rat where
  prefixes := [("kilo-", 1000)]
  dimensions :=
    [⟨dimensionlessName, [(dimensionlessName, .multiplier 1)]⟩,
      ⟨"length", [("meter", .multiplier 1)]⟩,
      ⟨"time", [("minute", .multiplier 1), ("hour", .multiplier 60)]⟩]

/-- The minute of ninety kilometers an hour, where an hour cancels a minute, is worth its meters. -/
theorem worth_of_minute_at_speed :
    ∃ registry value tokens tree, Registry.ofTable journeys = .ok registry ∧
      evaluate registry "90 kilometer / hour * minute" = .ok value ∧
      List.Forall₂ (Reads registry) (words "90 kilometer / hour * minute") tokens ∧
      Phrase .expression tree tokens ∧ tree.IsLossless ∧ tree.worth? = some 1500 := by
  have computed : Outcome.passes (Registry.ofTable journeys) (fun registry =>
      Outcome.passes (evaluate registry "90 kilometer / hour * minute")
          (fun value => decide (value.worth? = some 1500)) &&
        (registry.lookup? "90").isNone) = true := by decide +kernel
  have words_eq : words "90 kilometer / hour * minute" =
      [.plain "90".toList, .plain "kilometer".toList, .mark (.operator .over),
        .plain "hour".toList, .mark (.operator .times), .plain "minute".toList] := by
    decide +kernel
  obtain ⟨registry, built, tests⟩ := Outcome.exists_of_passes computed
  obtain ⟨evaluates, unregistered⟩ := Bool.and_eq_true_iff.mp tests
  obtain ⟨value, evaluated, worth_eq⟩ := Outcome.exists_of_passes evaluates
  have starts : StartsWithNumber registry (words "90 kilometer / hour * minute") :=
    ⟨"90".toList, _, words_eq, by simpa using unregistered⟩
  have flat : IsFlat (words "90 kilometer / hour * minute") := by
    rw [words_eq, IsFlat]
    decide
  obtain ⟨tokens, reads, accepted, keeps⟩ := evaluate_keeps_worth built evaluated
  rcases accepted with ⟨tree, phrase⟩ | ⟨depth, nest⟩
  · have lossless := (keeps tree phrase).2 flat starts
    obtain ⟨worth, tree_worth, value_worth⟩ := (keeps tree phrase).1 lossless
    rw [of_decide_eq_true worth_eq] at value_worth
    exact ⟨registry, value, tokens, tree, built, evaluated, reads, phrase, lossless,
      tree_worth.trans value_worth.symm⟩
  · obtain ⟨quantity, rest, rfl⟩ := starts.exists_tokens reads
    cases depth <;> simp [List.replicate_succ] at nest

end Expression
end UnitAlgebra
