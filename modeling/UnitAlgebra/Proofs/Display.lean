import UnitAlgebra.Proofs.Assembly
import UnitAlgebra.Proofs.Decimal.Display
import UnitAlgebra.Proofs.Expression.Invariance
import UnitAlgebra.Proofs.Expression.Spelling
import UnitAlgebra.Proofs.Memo

/-!
# Displayed values

Whatever a registry resolves, it resolves the text that shows it to an equal value, provided that
its names are words and no numbers.  The labels of all values that it gives are names of units with
the same entries, and the entries that a name spells out stand for themselves.
-/

namespace UnitAlgebra
namespace Registry

variable {K : Type} [Scalar K] {registry : Registry K}

/-! ## Units that a registry can name -/

/-- A unit that is drawn from a registry and whose label, if any, is registered for its entries. -/
structure Names (registry : Registry K) (unit : CompoundUnit K) (above below : Side K) : Prop where
  /-- The unit is drawn from the registry and has the entries. -/
  draws : registry.toCatalogue.Draws unit above below
  /-- The label stands for a unit of the same entries. -/
  labelled : ∀ {label : String}, unit.label = some label →
    ∃ named, registry.lookup? label = some named ∧ named.HasEntries above below

theorem exists_names_of_lookup? (provides : registry.toCatalogue.Provides registry.units)
    {name : String} {unit : CompoundUnit K} (found : registry.lookup? name = some unit) :
    ∃ above below, registry.Names unit above below := by
  obtain ⟨above, below, draws⟩ := provides.drawn found
  refine ⟨above, below, draws, fun labelled => ?_⟩
  rw [provides.label_eq found labelled]
  exact ⟨unit, found, draws.entries⟩

theorem names_dimensionless : registry.Names registry.dimensionless [] [] := by
  refine ⟨registry.toCatalogue.draws_dimensionless, fun labelled => ?_⟩
  cases labelled

/-- A single value in a unit that a registry can name. -/
def Shows (registry : Registry K) (value : Value K) : Prop :=
  value.IsSingle ∧ ∃ above below, registry.Names value.unitOf above below

theorem shows_of_valueOfWord? (provides : registry.toCatalogue.Provides registry.units)
    {characters : List Char} {value : Value K}
    (read : Expression.Token.valueOfWord? registry characters = some value) :
    registry.Shows value := by
  rw [Expression.Token.valueOfWord?] at read
  split at read
  · rename_i unit found
    obtain rfl := Option.some.inj read
    exact ⟨.bare unit, exists_names_of_lookup? provides found⟩
  · obtain ⟨number, -, rfl⟩ := Option.map_eq_some_iff.mp read
    exact ⟨.measured number registry.dimensionless, [], [], names_dimensionless⟩

variable [LawfulScalar K]

theorem Names.combine {left right : CompoundUnit K}
    {left_above left_below right_above right_below : Side K}
    (left_names : registry.Names left left_above left_below)
    (right_names : registry.Names right right_above right_below) (operator : Operator) :
    ∃ above below, registry.Names (left.combine operator right).1 above below := by
  rcases CompoundUnit.label_combine operator left right with is_left | is_right | unlabelled
  · rw [is_left]
    exact ⟨left_above, left_below, left_names⟩
  · rw [is_right]
    exact ⟨right_above, right_below, right_names⟩
  · obtain ⟨above, below, draws⟩ := left_names.draws.combine right_names.draws operator
    refine ⟨above, below, draws, fun labelled => ?_⟩
    rw [unlabelled] at labelled
    cases labelled

theorem closed_shows : Expression.Closed registry.Shows := by
  rintro left right value operator ⟨left_single, left_above, left_below, left_names⟩
    ⟨right_single, right_above, right_below, right_names⟩ combined
  constructor
  · obtain ⟨same, same_combined, single⟩ := left_single.combine right_single operator
    obtain rfl : same = value := Except.ok.inj (same_combined.symm.trans combined)
    exact single
  · rcases Value.unitOf_combine combined with unit_eq | unit_eq
    · rw [unit_eq]
      exact left_names.combine right_names operator
    · rw [unit_eq]
      exact right_names.combine left_names operator

/-- Whatever a registry resolves is a single value in a unit that it can name. -/
theorem shows_of_resolve (provides : registry.toCatalogue.Provides registry.units) {text : String}
    {value : Value K} (resolved : registry.resolve text = .ok value) : registry.Shows value := by
  rw [resolve, resolveWith] at resolved
  split at resolved
  · rename_i unit found
    obtain rfl := Except.ok.inj resolved
    exact ⟨.bare unit, exists_names_of_lookup? provides found⟩
  · have dimensionless : registry.Shows (.bare registry.dimensionless) :=
      ⟨.bare _, [], [], names_dimensionless⟩
    exact closed_shows.evaluate dimensionless (shows_of_valueOfWord? provides) resolved

end Registry

/-! ## Plain names -/

/-- Whether all numbers of a value are finite; a bare unit has none. -/
def Value.isFinite : Value Float → Bool
  | .bare _ => true
  | .measured quantity => quantity.magnitude.elements.all Float.isFinite

/-- Names that expressions can be written with. -/
structure Registry.HasPlainNames {K : Type} [Scalar K] (registry : Registry K) : Prop where
  /-- Every name is one word. -/
  isWord : ∀ {name : String}, registry.contains name = true → Expression.IsWord name.toList
  /-- No name is a number. -/
  not_literal : ∀ {name : String}, registry.contains name = true →
    Scalar.ofWord? K name.toList = none
  /-- The name of the unit without dimensions stands for a unit that equals it. -/
  dimensionless : ∃ unit, registry.lookup? dimensionlessName = some unit ∧
    (unit == registry.dimensionless) = true

namespace Registry

open Expression (Renders Spells lead leafValue contains_iff_lookup?)

variable {K : Type} [Scalar K] {registry : Registry K}
variable {unit : CompoundUnit K} {above below : Side K}
variable {word? : Option (List Char)} {number? : Option K}

theorem mem_names {name : String} : name ∈ registry.names ↔ registry.contains name = true := by
  rw [Registry.names, Std.TreeMap.mem_keys, contains, Std.TreeMap.contains_iff_mem]

theorem hasPlainNames_iff :
    registry.HasPlainNames ↔
      (∀ name ∈ registry.names,
        Expression.IsWord name.toList ∧ Scalar.ofWord? K name.toList = none) ∧
        (registry.lookup? dimensionlessName).any (· == registry.dimensionless) = true := by
  rw [Option.any_eq_true]
  constructor
  · intro plain
    refine ⟨fun name member => ?_, plain.dimensionless⟩
    have registered := mem_names.mp member
    exact ⟨plain.isWord registered, plain.not_literal registered⟩
  · rintro ⟨each, dimensionless⟩
    exact ⟨fun registered => (each _ (mem_names.mpr registered)).1,
      fun registered => (each _ (mem_names.mpr registered)).2, dimensionless⟩

instance (registry : Registry K) : Decidable registry.HasPlainNames :=
  decidable_of_iff _ hasPlainNames_iff.symm

namespace HasPlainNames

/-- Names need no lookup of their own, since they are expressions. -/
theorem resolve_eq_evaluate (plain : registry.HasPlainNames) (text : String) :
    registry.resolve text = Expression.evaluate registry text := by
  rw [resolve, resolveWith]
  split
  · rename_i unit found
    have registered := contains_iff_lookup?.mpr ⟨unit, found⟩
    have operand : Expression.IsOperand registry text.toList :=
      .inl ⟨plain.isWord registered, by rw [String.ofList_toList]; exact registered⟩
    have rendered : Renders .expression (.leaf text.toList) text.toList :=
      .term (.leaf text.toList)
    refine (rendered.evaluate_eq operand ?_).symm
    rw [Expression.Tree.evaluate, leafValue, String.ofList_toList, found]
  · rfl

theorem unregistered (plain : registry.HasPlainNames) {word : List Char} {number : K}
    (literal : Scalar.ofWord? K word = some number) :
    registry.lookup? (String.ofList word) = none := by
  cases found : registry.lookup? (String.ofList word) with
  | none => rfl
  | some unit =>
      have not_literal := plain.not_literal (contains_iff_lookup?.mpr ⟨unit, found⟩)
      rw [String.toList_ofList, literal] at not_literal
      cases not_literal

theorem spells_dimensionless (plain : registry.HasPlainNames)
    (provides : registry.toCatalogue.Provides registry.units) :
    Spells registry (.leaf dimensionlessName.toList) none [] [] := by
  obtain ⟨unit, found, equal⟩ := plain.dimensionless
  obtain ⟨above, below, draws⟩ := provides.drawn found
  obtain ⟨rfl, rfl⟩ := draws.entries.eq_nil_of_beq .dimensionless equal
  exact .name (plain.isWord (contains_iff_lookup?.mpr ⟨unit, found⟩)) found draws.entries

theorem spells_entry (plain : registry.HasPlainNames)
    (provides : registry.toCatalogue.Provides registry.units) {entry : BaseUnit K}
    (known : registry.baseUnits[entry.name]? = some entry)
    (has_dimension : entry.isDimensionless = false) :
    Spells registry (.leaf entry.name.toList) none [entry] [] := by
  have found : registry.lookup? entry.name = some (.ofSides [entry] [] .dimensionless) :=
    provides.direct known
  exact .name (plain.isWord (contains_iff_lookup?.mpr ⟨_, found⟩)) found (.singleton has_dimension)

variable [LawfulScalar K]

/-- The name of a unit is an expression of the unit, also with a number before it. -/
theorem exists_tree (plain : registry.HasPlainNames)
    (provides : registry.toCatalogue.Provides registry.units)
    (names : registry.Names unit above below) (leads : Spells.Leads registry word? number?) :
    ∃ tree, Renders .expression tree (lead word? ++ unit.name.toList) ∧
      Spells registry tree number? above below := by
  have entries := names.draws.entries
  cases label_eq : unit.label with
  | none =>
      rw [CompoundUnit.name, label_eq, Option.getD_none]
      exact Expression.exists_spelling entries (plain.spells_dimensionless provides)
        (fun entry member => plain.spells_entry provides (names.draws.knows_above entry member)
          (entries.above_canonical.have_dimension entry member))
        (fun entry member => plain.spells_entry provides (names.draws.knows_below entry member)
          (entries.below_canonical.have_dimension entry member))
        leads
  | some label =>
      obtain ⟨named, found, named_entries⟩ := names.labelled label_eq
      rw [CompoundUnit.name, label_eq, Option.getD_some]
      have word := plain.isWord (contains_iff_lookup?.mpr ⟨named, found⟩)
      exact ⟨_, (Renders.leaf label.toList).graft word?,
        (Spells.name word found named_entries).graft leads⟩

theorem exists_resolved (plain : registry.HasPlainNames)
    (provides : registry.toCatalogue.Provides registry.units)
    (names : registry.Names unit above below) (leads : Spells.Leads registry word? number?)
    {text : String} (text_eq : text.toList = lead word? ++ unit.name.toList) :
    ∃ again, again.HasEntries above below ∧
      registry.resolve text = .ok (Value.ofParts number? again) := by
  obtain ⟨tree, renders, spells⟩ := plain.exists_tree provides names leads
  obtain ⟨again, value_eq, entries⟩ := spells.value
  rw [← text_eq] at renders
  refine ⟨again, entries, ?_⟩
  rw [plain.resolve_eq_evaluate]
  exact renders.evaluate_eq spells.operands value_eq

/-- The text of a value is resolved to an equal value if the text of its number is read back. -/
theorem exists_redisplayed (plain : registry.HasPlainNames)
    (provides : registry.toCatalogue.Provides registry.units) {value : Value K}
    (shows : registry.Shows value)
    (read_back : ∀ number unit, value = .measured (.ofNumber number unit) →
      ∃ again, Scalar.ofWord? K (Scalar.text number).toList = some again ∧
        (again == number) = true) :
    ∃ again, registry.resolve value.display = .ok again ∧ (again == value) = true := by
  obtain ⟨single, above, below, names⟩ := shows
  cases single with
  | bare unit =>
      obtain ⟨again, entries, resolved⟩ := plain.exists_resolved provides names .nothing rfl
      exact ⟨.bare again, resolved, entries.beq names.draws.entries⟩
  | measured number unit =>
      obtain ⟨number_again, literal, number_equal⟩ := read_back number unit rfl
      have leads : Spells.Leads registry (some (Scalar.text number).toList) (some number_again) :=
        .number (plain.unregistered literal) literal
      have text_eq : (Value.measured (.ofNumber number unit)).display.toList =
          lead (some (Scalar.text number).toList) ++ unit.name.toList := by
        change (Scalar.text number ++ " " ++ unit.name).toList = _
        rw [String.toList_append, String.toList_append]
        rfl
      obtain ⟨again, entries, resolved⟩ := plain.exists_resolved provides names leads text_eq
      refine ⟨.measured (.ofNumber number_again again), resolved, ?_⟩
      have same_unit : ((Quantity.ofNumber number_again again).unit ==
          (Quantity.ofNumber number unit).unit) = true := entries.beq names.draws.entries
      change Quantity.equals (.ofNumber number_again again) (.ofNumber number unit) = true
      rw [Quantity.equals, if_pos same_unit]
      exact number_equal

end HasPlainNames

/--
What a registry of plain names answers to any text, it answers to the text that shows the answer,
up to equality, whatever it has answered before.
-/
theorem answer_display {table : DefinitionTable Float} {registry : Registry Float}
    (built : ofTable table = .ok registry) (plain : registry.HasPlainNames)
    (earlier later : List String) (text : String) {value : Value Float}
    (answered : (registry.answer text (registry.memoAfter earlier)).1 = .ok value)
    (finite : value.isFinite = true) :
    ∃ again, (registry.answer value.display (registry.memoAfter later)).1 = .ok again ∧
      (again == value) = true := by
  rw [answer_memoAfter] at answered ⊢
  have provides := provides_of_ofTable built
  refine plain.exists_redisplayed provides (shows_of_resolve provides answered) ?_
  rintro number unit rfl
  have number_finite : number.isFinite = true :=
    List.all_eq_true.mp finite number List.mem_cons_self
  exact Decimal.exists_ofWord?_text number_finite

/-- A table of two dimensions and of a composed unit that is shown under its own name. -/
private def oscillation : DefinitionTable Float where
  prefixes := [("milli-", 0.001)]
  dimensions :=
    [⟨dimensionlessName, [(dimensionlessName, .multiplier 1)]⟩,
      ⟨"length", [("m", .multiplier 1)]⟩,
      ⟨"time", [("s", .multiplier 1), ("Hz", .composed ⟨none, some ["s"]⟩)]⟩]

/-- A negative number of a unit with an empty numerator, read while other texts are remembered. -/
theorem answer_display_oscillation :
    ∃ registry value again, ofTable oscillation = .ok registry ∧
      (registry.answer "-2.5 Hz/(s * millim)" (registry.memoAfter ["Hz", "s*s"])).1 = .ok value ∧
      (registry.answer value.display (registry.memoAfter ["m/s"])).1 = .ok again ∧
      (again == value) = true := by
  -- Everything that the theorem asks of the registry and the value is computed.
  have computed : Outcome.passes (ofTable oscillation) (fun registry =>
      decide registry.HasPlainNames &&
        Outcome.passes (registry.resolve "-2.5 Hz/(s * millim)") Value.isFinite) = true := by
    decide +kernel
  obtain ⟨registry, built, tests⟩ := Outcome.exists_of_passes computed
  obtain ⟨plain, resolves⟩ := Bool.and_eq_true_iff.mp tests
  obtain ⟨value, resolved, answered_finite⟩ := Outcome.exists_of_passes resolves
  have answered : (registry.answer "-2.5 Hz/(s * millim)"
      (registry.memoAfter ["Hz", "s*s"])).1 = .ok value := by
    rw [answer_memoAfter, resolved]
  obtain ⟨again, answered_again, equal⟩ := answer_display built (of_decide_eq_true plain)
    ["Hz", "s*s"] ["m/s"] "-2.5 Hz/(s * millim)" answered answered_finite
  exact ⟨registry, value, again, built, answered, answered_again, equal⟩

end Registry
end UnitAlgebra
