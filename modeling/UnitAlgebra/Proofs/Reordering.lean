import Mathlib.Algebra.BigOperators.Group.List.Basic
import Mathlib.Algebra.Order.Field.Rat
import UnitAlgebra.Proofs.AlignedUnits
import UnitAlgebra.Proofs.ComposedUnit
import UnitAlgebra.Proofs.EvenCancellation

/-!
# The order of names in compositions

Writing the names on a side of a composition in another order changes neither which names a table
defines nor what they refer to, and every name keeps its exponents.  The unit may become another one
of the same dimensions, or its product may incur a factor, so that the table is refused: a part with
entries below the line cancels the first entry of their dimensions that stands above it so far.
Where only equal entries ever meet, nothing depends on the order.
-/

namespace UnitAlgebra

/-! ## Reordered tables -/

/-- Both compositions have the same names on either side, in some order. -/
structure Composition.Reorders (composition other : Composition) : Prop where
  /-- The names above the line, if that side is given. -/
  numerator : Option.Rel List.Perm composition.numerator other.numerator
  /-- The names below the line, if that side is given. -/
  denominator : Option.Rel List.Perm composition.denominator other.denominator

/-- The same multiplier, or the same names on either side of a composition. -/
inductive Definition.Reorders {K : Type} : Definition K → Definition K → Prop where
  /-- Multipliers stay as they are. -/
  | multiplier (value : K) : Reorders (.multiplier value) (.multiplier value)
  /-- The names of a composition come in some order. -/
  | composed {composition other : Composition} (reorders : composition.Reorders other) :
      Reorders (.composed composition) (.composed other)

/-- The same units in the same order, up to the order of the names in their compositions. -/
structure DimensionDefinitions.Reorders {K : Type} (definitions other : DimensionDefinitions K) :
    Prop where
  /-- The dimension is the same. -/
  name_eq : definitions.name = other.name
  /-- The units have the same names, and their definitions differ in the order of names only. -/
  units : List.Forall₂ (fun unit unit' => unit.1 = unit'.1 ∧ unit.2.Reorders unit'.2)
    definitions.units other.units

/-- The same definitions in the same order, up to the order of the names in their compositions. -/
structure DefinitionTable.Reorders {K : Type} (table other : DefinitionTable K) : Prop where
  /-- The prefixes are the same. -/
  prefixes_eq : table.prefixes = other.prefixes
  /-- The dimensions differ in the order of names only. -/
  dimensions : List.Forall₂ DimensionDefinitions.Reorders table.dimensions other.dimensions

namespace Composition

variable {composition other : Composition}

theorem getD_perm {side side' : Option (List String)} (permuted : Option.Rel List.Perm side side') :
    (side.getD []).Perm (side'.getD []) := by
  cases permuted with
  | none => exact List.Perm.refl _
  | some permuted => exact permuted

theorem Reorders.refl (composition : Composition) : composition.Reorders composition := by
  have perm_refl (side : Option (List String)) : Option.Rel List.Perm side side := by
    cases side with
    | none => exact .none
    | some names => exact .some (List.Perm.refl names)
  exact ⟨perm_refl composition.numerator, perm_refl composition.denominator⟩

theorem Reorders.above_perm (reorders : composition.Reorders other) :
    composition.above.Perm other.above :=
  getD_perm reorders.numerator

theorem Reorders.below_perm (reorders : composition.Reorders other) :
    composition.below.Perm other.below :=
  getD_perm reorders.denominator

theorem Reorders.parts_perm (reorders : composition.Reorders other) :
    composition.parts.Perm other.parts :=
  (reorders.above_perm.map _).append (reorders.below_perm.map _)

theorem Reorders.hasSide_eq (reorders : composition.Reorders other) :
    composition.hasSide = other.hasSide := by
  have isSome_eq {side side' : Option (List String)}
      (permuted : Option.Rel List.Perm side side') : side.isSome = side'.isSome := by
    cases permuted <;> rfl
  rw [hasSide, hasSide, isSome_eq reorders.numerator, isSome_eq reorders.denominator]

end Composition

theorem Definition.Reorders.refl {K : Type} (definition : Definition K) :
    definition.Reorders definition := by
  cases definition with
  | multiplier value => exact .multiplier value
  | composed composition => exact .composed (.refl composition)

namespace DimensionDefinitions

variable {K : Type} [Scalar K] {definitions other : DimensionDefinitions K}

omit [Scalar K] in
theorem Reorders.refl (definitions : DimensionDefinitions K) : definitions.Reorders definitions :=
  ⟨rfl, List.forall₂_same.mpr fun unit _ => ⟨rfl, .refl unit.2⟩⟩

omit [Scalar K] in
theorem Reorders.direct_eq (reorders : definitions.Reorders other) :
    definitions.direct = other.direct := by
  have units_reorder := reorders.units
  rw [direct, direct]
  generalize definitions.units = units, other.units = units' at units_reorder ⊢
  induction units_reorder with
  | nil => rfl
  | @cons unit unit' units units' same _ induction =>
      obtain ⟨name, definition⟩ := unit
      obtain ⟨name', definition'⟩ := unit'
      obtain ⟨rfl : name = name', same⟩ := same
      cases same with
      | multiplier value => exact congrArg ((name, value) :: ·) induction
      | composed _ => exact induction

omit [Scalar K] in
theorem Reorders.composed_rel (reorders : definitions.Reorders other) :
    List.Forall₂ (fun unit unit' => unit.1 = unit'.1 ∧ unit.2.Reorders unit'.2)
      definitions.composed other.composed := by
  have units_reorder := reorders.units
  rw [composed, composed]
  generalize definitions.units = units, other.units = units' at units_reorder ⊢
  induction units_reorder with
  | nil => exact .nil
  | @cons unit unit' units units' same _ induction =>
      obtain ⟨name, definition⟩ := unit
      obtain ⟨name', definition'⟩ := unit'
      obtain ⟨rfl : name = name', same⟩ := same
      cases same with
      | multiplier _ => exact induction
      | composed reorders => exact .cons ⟨rfl, reorders⟩ induction

theorem Reorders.directEvents_eq (reorders : definitions.Reorders other)
    (prefixes : List (String × K)) :
    definitions.directEvents prefixes = other.directEvents prefixes := by
  rw [directEvents, directEvents, reference?, reference?, reorders.name_eq, reorders.direct_eq]

theorem Reorders.isLoadable (reorders : definitions.Reorders other) {prefixes : List (String × K)}
    (loadable : definitions.IsLoadable prefixes) : other.IsLoadable prefixes := by
  obtain ⟨⟨reference, multiplier, expansion, dimensionless⟩, side⟩ := loadable
  rw [reorders.name_eq, reorders.direct_eq] at reference multiplier expansion dimensionless
  refine ⟨⟨reference, multiplier, expansion, dimensionless⟩, ?_⟩
  intro unit' member
  obtain ⟨unit, unit_member, -, composition_reorders⟩ :=
    exists_rel_of_mem reorders.composed_rel member
  rw [← composition_reorders.hasSide_eq]
  exact side unit unit_member

end DimensionDefinitions

/-! ## Events -/

/-- The same base unit, or a composition with its names in some order. -/
inductive Event.Reorders {K : Type} : Event K → Event K → Prop where
  /-- Base units stay as they are. -/
  | direct (name dimension reference : String) (multiplier : K) :
      Reorders (.direct name dimension reference multiplier)
        (.direct name dimension reference multiplier)
  /-- The names of a composition come in some order. -/
  | composed (name : String) {composition other : Composition}
      (reorders : composition.Reorders other) :
      Reorders (.composed name composition) (.composed name other)

theorem Event.Reorders.name_eq {K : Type} {event other : Event K}
    (reorders : event.Reorders other) : event.name = other.name := by
  cases reorders <;> rfl

theorem Event.Reorders.baseUnit?_eq {K : Type} [Scalar K] {event other : Event K}
    (reorders : event.Reorders other) : event.baseUnit? = other.baseUnit? := by
  cases reorders <;> rfl

theorem Event.Reorders.composition?_rel {K : Type} {event other : Event K}
    (reorders : event.Reorders other) :
    Option.Rel Composition.Reorders event.composition? other.composition? := by
  cases reorders with
  | direct _ _ _ _ => exact .none
  | composed name reorders => exact .some reorders

theorem Event.Reorders.refl {K : Type} (event : Event K) : event.Reorders event := by
  cases event with
  | direct name dimension reference multiplier => exact .direct name dimension reference multiplier
  | composed name composition => exact .composed name (.refl composition)

namespace DefinitionTable

variable {K : Type} [Scalar K] {table other : DefinitionTable K} {name : String}

/-- The events of reordered tables are the same, up to the order of names. -/
theorem Reorders.events_rel (reorders : table.Reorders other) :
    List.Forall₂ Event.Reorders table.events other.events := by
  rw [events, events, List.flatMap_def, List.flatMap_def, reorders.prefixes_eq]
  refine List.rel_flatten (List.forall₂_map_left_iff.mpr (List.forall₂_map_right_iff.mpr ?_))
  refine reorders.dimensions.imp fun definitions other reorders => ?_
  rw [DimensionDefinitions.events, DimensionDefinitions.events, reorders.directEvents_eq]
  refine List.rel_append (List.forall₂_same.mpr fun event _ => .refl event) ?_
  refine List.forall₂_map_left_iff.mpr (List.forall₂_map_right_iff.mpr ?_)
  refine reorders.composed_rel.imp fun unit unit' same => ?_
  obtain ⟨name_eq, unit_reorders⟩ := same
  rw [name_eq]
  exact .composed unit'.1 unit_reorders

theorem Reorders.meaning?_rel (reorders : table.Reorders other) (name : String) :
    Option.Rel Event.Reorders (table.meaning? name) (other.meaning? name) :=
  find?_rel (List.rel_reverse reorders.events_rel) fun event_reorders => by
    rw [event_reorders.name_eq]

theorem Reorders.baseUnit?_eq (reorders : table.Reorders other) (name : String) :
    table.baseUnit? name = other.baseUnit? name := by
  have meanings := reorders.meaning?_rel name
  rw [baseUnit?, baseUnit?]
  generalize table.meaning? name = event, other.meaning? name = event' at meanings ⊢
  cases meanings with
  | none => rfl
  | some event_reorders => exact event_reorders.baseUnit?_eq

theorem Reorders.composition?_rel (reorders : table.Reorders other) (name : String) :
    Option.Rel Composition.Reorders (table.composition? name) (other.composition? name) := by
  have meanings := reorders.meaning?_rel name
  rw [composition?, composition?]
  generalize table.meaning? name = event, other.meaning? name = event' at meanings ⊢
  cases meanings with
  | none => exact .none
  | some event_reorders => exact event_reorders.composition?_rel

theorem Reorders.exists_composition? (reorders : table.Reorders other) {composition' : Composition}
    (composed : other.composition? name = some composition') :
    ∃ composition, table.composition? name = some composition ∧
      composition.Reorders composition' := by
  have compositions := reorders.composition?_rel name
  rw [composed] at compositions
  cases found : table.composition? name with
  | none =>
      rw [found] at compositions
      cases compositions
  | some composition =>
      rw [found] at compositions
      cases compositions with
      | some composition_reorders => exact ⟨composition, rfl, composition_reorders⟩

theorem Reorders.defines_iff (reorders : table.Reorders other) :
    table.Defines name ↔ other.Defines name := by
  have meanings := reorders.meaning?_rel name
  rw [DefinitionTable.defines_iff, DefinitionTable.defines_iff]
  generalize table.meaning? name = event, other.meaning? name = event' at meanings ⊢
  cases meanings with
  | none => exact Iff.rfl
  | some _ => exact ⟨fun _ => ⟨_, rfl⟩, fun _ => ⟨_, rfl⟩⟩

theorem Reorders.refers (reorders : table.Reorders other) {part : String}
    (refers : other.Refers name part) : table.Refers name part := by
  obtain ⟨composition', composed, operator, member⟩ := refers
  obtain ⟨composition, table_composed, composition_reorders⟩ :=
    reorders.exists_composition? composed
  exact ⟨composition, table_composed, operator,
    composition_reorders.parts_perm.mem_iff.mpr member⟩

theorem Reorders.isLoadable (reorders : table.Reorders other) (loadable : table.IsLoadable) :
    other.IsLoadable := by
  obtain ⟨⟨definitions, listed, stands_for_none, one⟩, prefixes, dimensions⟩ := loadable
  have dimensions_flipped : List.Forall₂ (fun definitions' definitions =>
      definitions.Reorders definitions') other.dimensions table.dimensions :=
    reorders.dimensions.flip
  rw [reorders.prefixes_eq] at prefixes dimensions
  refine ⟨?_, prefixes, fun definitions' listed' => ?_⟩
  · obtain ⟨definitions', listed', definitions_reorder⟩ :=
      exists_rel_of_mem dimensions_flipped listed
    rw [definitions_reorder.name_eq] at stands_for_none
    rw [definitions_reorder.direct_eq] at one
    exact ⟨definitions', listed', stands_for_none, one⟩
  · obtain ⟨definitions, listed, definitions_reorder⟩ :=
      exists_rel_of_mem reorders.dimensions listed'
    exact definitions_reorder.isLoadable (dimensions definitions listed)

end DefinitionTable

/-! ## Exponents of products -/

/-- What an operator does to an exponent is to add something that depends on the other one. -/
theorem Operator.onExponents_eq_add (operator : Operator) (left right : Int) :
    operator.onExponents left right = left + operator.onExponents 0 right := by
  cases operator <;> simp only [onExponents] <;> omega

namespace Composition

variable {K : Type} [Scalar K] {unitOf : String → CompoundUnit K} {tag : String}

/-- The exponents of joined parts are added, those of divisors with the opposite sign. -/
theorem exponent_join [LawfulScalar K] (proper : tag ≠ noDimension)
    {known : CompoundUnit K × K} {parts : List (Operator × String)}
    (known_reduced : known.1.IsReduced) (reduced : ∀ part ∈ parts, (unitOf part.2).IsReduced) :
    (join unitOf known parts).1.exponent tag = known.1.exponent tag +
      (parts.map fun part => part.1.onExponents 0 ((unitOf part.2).exponent tag)).sum := by
  induction parts generalizing known with
  | nil => exact (Int.add_zero _).symm
  | cons part parts induction =>
      obtain ⟨part_reduced, parts_reduced⟩ := List.forall_mem_cons.mp reduced
      have next_reduced : (joinPart unitOf known part).1.IsReduced :=
        isReduced_join known_reduced (List.forall_mem_singleton.mpr part_reduced)
      obtain ⟨above, below, entries⟩ := known_reduced
      have next_exponent : (joinPart unitOf known part).1.exponent tag =
          known.1.exponent tag + part.1.onExponents 0 ((unitOf part.2).exponent tag) := by
        rw [joinPart, CompoundUnit.exponent_combine proper entries.isDimensionless_placeholder,
          Operator.onExponents_eq_add]
      change (join unitOf (joinPart unitOf known part) parts).1.exponent tag = _
      rw [induction next_reduced parts_reduced, next_exponent, List.map_cons, List.sum_cons,
        Int.add_assoc]

theorem Reorders.exponent_product_eq [LawfulScalar K] {composition composition' : Composition}
    {unitOf' : String → CompoundUnit K} (reorders : composition.Reorders composition')
    (reduced : ∀ part ∈ composition.parts, (unitOf part.2).IsReduced)
    (reduced' : ∀ part ∈ composition.parts, (unitOf' part.2).IsReduced)
    (proper : tag ≠ noDimension)
    (same : ∀ part ∈ composition.parts,
      (unitOf part.2).exponent tag = (unitOf' part.2).exponent tag) :
    (composition.product unitOf).1.exponent tag =
      (composition'.product unitOf').1.exponent tag := by
  let start : CompoundUnit K × K := (.ofSides [] [] .dimensionless, 1)
  have start_reduced : start.1.IsReduced := ⟨[], [], .dimensionless⟩
  have permuted := reorders.parts_perm
  calc
    (composition.product unitOf).1.exponent tag
      = start.1.exponent tag + (composition.parts.map fun part =>
          part.1.onExponents 0 ((unitOf part.2).exponent tag)).sum :=
        exponent_join proper start_reduced reduced
    _ = start.1.exponent tag + (composition.parts.map fun part =>
          part.1.onExponents 0 ((unitOf' part.2).exponent tag)).sum := by
        rw [List.map_congr_left fun part member => by rw [same part member]]
    _ = start.1.exponent tag + (composition'.parts.map fun part =>
          part.1.onExponents 0 ((unitOf' part.2).exponent tag)).sum := by
        rw [(permuted.map _).sum_eq]
    _ = (composition'.product unitOf').1.exponent tag := by
        refine (exponent_join proper start_reduced fun part member => ?_).symm
        exact reduced' part (permuted.mem_iff.mpr member)

/-- The product of some sizes depends on the sizes alone, in any order. -/
theorem prod_sizes_eq {unitOf unitOf' : String → CompoundUnit Rat} {names names' : List String}
    (permuted : names.Perm names')
    (same : ∀ name ∈ names, (unitOf name).size = (unitOf' name).size) :
    ((names.map unitOf).map CompoundUnit.size).prod =
      ((names'.map unitOf').map CompoundUnit.size).prod := by
  have sizes_eq :
      names.map (CompoundUnit.size ∘ unitOf) = names.map (CompoundUnit.size ∘ unitOf') :=
    List.map_congr_left same
  rw [List.map_map, List.map_map, sizes_eq]
  exact (permuted.map _).prod_eq

end Composition

/-! ## Denoted units -/

namespace DefinitionTable

variable {K : Type} [Scalar K] {table other : DefinitionTable K} {name : String}
  {unit unit' : CompoundUnit K}

theorem Denotes.isReduced [LawfulScalar K] (denotes : table.Denotes name unit) :
    unit.IsReduced := by
  induction denotes with
  | @direct name entry found =>
      cases empty : entry.isDimensionless with
      | true => exact ⟨[], [], .singleton_of_isDimensionless empty⟩
      | false => exact ⟨[entry], [], .singleton empty⟩
  | @composed name composition unitOf found parts induction =>
      have product_reduced : (composition.product unitOf).1.IsReduced :=
        Composition.isReduced_join ⟨[], [], .dimensionless⟩ induction
      obtain ⟨above, below, entries⟩ := product_reduced
      exact ⟨above, below, entries.withLabel name⟩

theorem Denotes.isStandard [LawfulScalar K] (denotes : table.Denotes name unit) :
    unit.IsStandard := by
  obtain ⟨above, below, entries⟩ := denotes.isReduced
  exact entries.isStandard

/--
What holds of every base unit and itself, and of products of reordered compositions if it holds of
their parts, holds of the two units that a name denotes in reordered tables.
-/
theorem Reorders.related_of_denotes (reorders : table.Reorders other)
    (related : CompoundUnit K → CompoundUnit K → Prop)
    (direct : ∀ entry : BaseUnit K,
      related (.ofSides [entry] [] .dimensionless) (.ofSides [entry] [] .dimensionless))
    (composed : ∀ {name : String} {composition composition' : Composition}
      {unitOf unitOf' : String → CompoundUnit K}, table.composition? name = some composition →
        other.composition? name = some composition' → composition.Reorders composition' →
          (∀ part ∈ composition.parts, table.Denotes part.2 (unitOf part.2)) →
            (∀ part ∈ composition.parts, other.Denotes part.2 (unitOf' part.2)) →
              (∀ part ∈ composition.parts, related (unitOf part.2) (unitOf' part.2)) →
                related ((composition.product unitOf).1.withLabel name)
                  ((composition'.product unitOf').1.withLabel name))
    (denotes : table.Denotes name unit) (other_denotes : other.Denotes name unit') :
    related unit unit' := by
  induction denotes generalizing unit' with
  | direct found =>
      rw [reorders.baseUnit?_eq] at found
      rw [other_denotes.unique (.direct found)]
      exact direct _
  | composed found parts induction =>
      cases other_denotes with
      | direct other_found =>
          rw [← reorders.baseUnit?_eq] at other_found
          rw [composition?_of_baseUnit? other_found] at found
          cases found
      | composed other_found other_parts =>
          obtain ⟨composition, composition_found, composition_reorders⟩ :=
            reorders.exists_composition? other_found
          obtain rfl := Option.some.inj (composition_found.symm.trans found)
          have other_denote := fun part member =>
            other_parts part (composition_reorders.parts_perm.mem_iff.mp member)
          exact composed found other_found composition_reorders parts other_denote
            fun part member => induction part member (other_denote part member)

theorem Reorders.aligned [LawfulScalar K] (reorders : table.Reorders other)
    (denotes : table.Denotes name unit) (other_denotes : other.Denotes name unit') :
    unit.Aligned unit' := by
  have same_exponents : ∀ tag, tag ≠ noDimension → unit.exponent tag = unit'.exponent tag := by
    intro tag proper
    refine reorders.related_of_denotes (fun unit unit' => unit.exponent tag = unit'.exponent tag)
      (fun _ => rfl) ?_ denotes other_denotes
    intro name composition composition' unitOf unitOf' _ _ composition_reorders parts parts' same
    exact composition_reorders.exponent_product_eq
      (fun part member => (parts part member).isReduced)
      (fun part member => (parts' part member).isReduced) proper same
  obtain ⟨above, below, entries⟩ := denotes.isReduced
  obtain ⟨above', below', entries'⟩ := other_denotes.isReduced
  obtain ⟨above_eq, below_eq⟩ := entries.side_tags_eq entries' same_exponents
  exact ⟨above_eq, below_eq⟩

theorem Reorders.size_eq {table other : DefinitionTable Rat} {unit unit' : CompoundUnit Rat}
    (reorders : table.Reorders other) (resolvable : table.IsResolvable)
    (other_resolvable : other.IsResolvable) (denotes : table.Denotes name unit)
    (other_denotes : other.Denotes name unit') : unit.size = unit'.size := by
  refine reorders.related_of_denotes (fun unit unit' => unit.size = unit'.size) (fun _ => rfl) ?_
    denotes other_denotes
  intro name composition composition' unitOf unitOf' composed composed' composition_reorders parts
    parts' same
  have parts'_denote : ∀ part ∈ composition'.parts, other.Denotes part.2 (unitOf' part.2) :=
    fun part member => parts' part (composition_reorders.parts_perm.mem_iff.mpr member)
  have no_factor := beq_iff_eq.mp (resolvable.lossless composed parts)
  have no_factor' := beq_iff_eq.mp (other_resolvable.lossless composed' parts'_denote)
  change (composition.product unitOf).1.size = (composition'.product unitOf').1.size
  rw [Composition.size_product (fun part member => (parts part member).isStandard) no_factor,
    Composition.size_product (fun part member => (parts'_denote part member).isStandard) no_factor']
  have above_eq := Composition.prod_sizes_eq composition_reorders.above_perm fun part member =>
    same (.times, part) (List.mem_append_left _ (List.mem_map_of_mem member))
  have below_eq := Composition.prod_sizes_eq composition_reorders.below_perm fun part member =>
    same (.over, part) (List.mem_append_right _ (List.mem_map_of_mem member))
  rw [above_eq, below_eq]

/-! ## Acceptance -/

/-- Wherever the names of a composition come in another order, only equal entries ever meet. -/
def RearrangesEvenly (table other : DefinitionTable K) (unitOf : String → CompoundUnit K) : Prop :=
  ∀ name composition composition', table.composition? name = some composition →
    other.composition? name = some composition' → composition.Rearranges unitOf composition'

/-- It is enough to look at the events that give a name a composition. -/
theorem rearrangesEvenly_of_events {unitOf : String → CompoundUnit K}
    (each : ∀ event ∈ table.events, ∀ event' ∈ other.events, event.name = event'.name →
      ∀ composition ∈ event.composition?, ∀ composition' ∈ event'.composition?,
        composition.Rearranges unitOf composition') : table.RearrangesEvenly other unitOf := by
  intro name composition composition' composed composed'
  obtain ⟨event, last, event_composed⟩ := Option.bind_eq_some_iff.mp composed
  obtain ⟨event', last', event_composed'⟩ := Option.bind_eq_some_iff.mp composed'
  have same_name := (Event.name_of_last? last).trans (Event.name_of_last? last').symm
  exact each event (Event.mem_of_last? last) event' (Event.mem_of_last? last') same_name
    composition event_composed composition' event_composed'

theorem Reorders.well_founded (reorders : table.Reorders other) (resolvable : table.IsResolvable) :
    (∀ {name part : String}, other.Refers name part → other.Defines part) ∧
      ∀ name, ¬Relation.TransGen other.Refers name name := by
  refine ⟨fun refers => ?_, fun name cycle => ?_⟩
  · exact reorders.defines_iff.mp (resolvable.defined (reorders.refers refers))
  · have same_cycle := Relation.TransGen.mono (fun _ _ refers => reorders.refers refers) _ _ cycle
    exact resolvable.acyclic name same_cycle

section

variable [DividingScalar K] {unitOf : String → CompoundUnit K}

/-- If only equal entries meet, reordered compositions have equal products and the same factor. -/
theorem RearrangesEvenly.product_resembles (evenly : table.RearrangesEvenly other unitOf)
    (known : ∀ {name unit}, table.Denotes name unit → unitOf name = unit)
    {composition composition' : Composition} (composed : table.composition? name = some composition)
    (composed' : other.composition? name = some composition')
    (reorders : composition.Reorders composition') {partOf partOf' : String → CompoundUnit K}
    (parts : ∀ part ∈ composition.parts, table.Denotes part.2 (partOf part.2))
    (same : ∀ part ∈ composition.parts, (partOf part.2).Resembles (partOf' part.2)) :
    CompoundUnit.ResultsResemble (composition.product partOf) (composition'.product partOf') := by
  have known_parts : ∀ part ∈ composition.parts, partOf part.2 = unitOf part.2 :=
    fun part member => (known (parts part member)).symm
  rw [Composition.product, Composition.productOf_congr known_parts]
  refine (evenly name composition composition' composed composed').product_resembles ?_ ?_
  · intro part member
    rw [← known_parts part member]
    exact (parts part member).isReduced
  · intro part member'
    have member := reorders.parts_perm.mem_iff.mpr member'
    rw [← known_parts part member]
    exact same part member

theorem Reorders.resembles (reorders : table.Reorders other)
    (evenly : table.RearrangesEvenly other unitOf)
    (known : ∀ {name unit}, table.Denotes name unit → unitOf name = unit)
    (denotes : table.Denotes name unit) (other_denotes : other.Denotes name unit') :
    unit.Resembles unit' := by
  refine reorders.related_of_denotes CompoundUnit.Resembles (fun _ => .refl _) ?_ denotes
    other_denotes
  intro name composition composition' partOf partOf' composed composed' composition_reorders parts _
    same
  have products := evenly.product_resembles known composed composed' composition_reorders parts same
  exact ⟨products.units.equal, products.units.placeholder_equal⟩

theorem Reorders.isResolvable (reorders : table.Reorders other)
    (evenly : table.RearrangesEvenly other unitOf) (loadable : table.IsLoadable)
    (resolvable : table.IsResolvable)
    (known : ∀ {name unit}, table.Denotes name unit → unitOf name = unit) :
    other.IsResolvable := by
  obtain ⟨defined, acyclic⟩ := reorders.well_founded resolvable
  refine ⟨defined, acyclic, ?_⟩
  intro name composition' partOf' composed' parts'
  obtain ⟨composition, composed, composition_reorders⟩ := reorders.exists_composition? composed'
  have exists_part : ∀ part ∈ composition.parts, ∃ unit, table.Denotes part.2 unit := by
    intro part member
    have refers : table.Refers name part.2 := ⟨composition, composed, part.1, member⟩
    exact exists_denotes loadable resolvable.defined resolvable.acyclic (resolvable.defined refers)
  have parts : ∀ part ∈ composition.parts, table.Denotes part.2 (unitOf part.2) := by
    intro part member
    obtain ⟨unit, denotes⟩ := exists_part part member
    rwa [known denotes]
  have same : ∀ part ∈ composition.parts, (unitOf part.2).Resembles (partOf' part.2) :=
    fun part member => reorders.resembles evenly known (parts part member)
      (parts' part (composition_reorders.parts_perm.mem_iff.mp member))
  have products := evenly.product_resembles known composed composed' composition_reorders parts same
  rw [← products.factor_eq]
  exact resolvable.lossless composed parts

end

end DefinitionTable

/-! ## Registries of reordered tables -/

namespace Registry

section

variable {K : Type} [Scalar K] {table other : DefinitionTable K} {registry registry' : Registry K}

theorem Realizes.rel_lookup? {related : CompoundUnit K → CompoundUnit K → Prop}
    (realizes : registry.Realizes table) (realizes' : registry'.Realizes other)
    (defines_iff : ∀ {name}, table.Defines name ↔ other.Defines name)
    (relates : ∀ {name unit unit'}, table.Denotes name unit → other.Denotes name unit' →
      related unit unit') (name : String) :
    Option.Rel related (registry.lookup? name) (registry'.lookup? name) := by
  cases found : registry.lookup? name with
  | some unit =>
      have denotes := realizes.explains.denotes found
      obtain ⟨unit', found'⟩ := realizes'.complete (defines_iff.mp denotes.defines)
      rw [lookup?, found']
      exact .some (relates denotes (realizes'.explains.denotes found'))
  | none =>
      cases found' : registry'.lookup? name with
      | none => exact .none
      | some unit' =>
          have defined := (realizes'.explains.denotes found').defines
          obtain ⟨unit, known⟩ := realizes.complete (defines_iff.mpr defined)
          rw [lookup?, known] at found
          cases found

theorem Realizes.unitIn_eq (realizes : registry.Realizes table) {name : String}
    {unit : CompoundUnit K} (denotes : table.Denotes name unit) :
    unitIn registry.units name = unit := by
  obtain ⟨known, found⟩ := realizes.complete denotes.defines
  rw [UnitAlgebra.unitIn_eq found]
  exact (realizes.explains.denotes found).unique denotes

/-- A reordered table of an accepted one is refused for a factor that a product incurs only. -/
theorem exists_lossyCancellation (built : ofTable table = .ok registry)
    (reorders : table.Reorders other) {failure : UnitError}
    (failed : ofTable other = .error failure) :
    ∃ name factor, failure = .invalidDefinition (.lossyCancellation name factor) := by
  obtain ⟨⟨loadable, resolvable⟩, -⟩ := (ofTable_meets table).of_ok built
  obtain ⟨defined, acyclic⟩ := reorders.well_founded resolvable
  rcases (ofTable_meets other).of_error failed with loading_fault | resolution_fault
  · exact absurd (reorders.isLoadable loadable) loading_fault.not_isLoadable
  · cases resolution_fault with
    | unknown refers undefined => exact absurd (defined refers) undefined
    | circular cycle => exact absurd cycle (acyclic _)
    | lossy _ _ _ => exact ⟨_, _, rfl⟩

theorem exists_registry_of_evenly [DividingScalar K] (built : ofTable table = .ok registry)
    (reorders : table.Reorders other)
    (evenly : table.RearrangesEvenly other (unitIn registry.units)) :
    ∃ registry', ofTable other = .ok registry' ∧ ∀ name,
      Option.Rel (fun unit unit' => (unit == unit') = true) (registry.lookup? name)
        (registry'.lookup? name) := by
  obtain ⟨⟨loadable, resolvable⟩, realizes⟩ := (ofTable_meets table).of_ok built
  have other_resolvable : other.IsResolvable :=
    reorders.isResolvable evenly loadable resolvable realizes.unitIn_eq
  cases accepted : ofTable other with
  | error failure =>
      rcases (ofTable_meets other).of_error accepted with loading_fault | resolution_fault
      · exact absurd (reorders.isLoadable loadable) loading_fault.not_isLoadable
      · exact absurd other_resolvable resolution_fault.not_isResolvable
  | ok registry' =>
      obtain ⟨-, realizes'⟩ := (ofTable_meets other).of_ok accepted
      refine ⟨registry', rfl, realizes.rel_lookup? realizes' reorders.defines_iff ?_⟩
      intro name unit unit' denotes denotes'
      exact (reorders.resembles evenly realizes.unitIn_eq denotes denotes').equal

end

/--
Other orders of the names in the compositions of an accepted table can make it refused only for
a factor that a product incurs.  If the table is still accepted, every name has a unit of the same
dimensions, which over the rationals converts by one.  If only equal entries ever meet where names
come in another order, it is accepted and every name has an equal unit.
-/
theorem ofTable_of_reorders :
    (∀ {K : Type} [Scalar K] [DividingScalar K] {table other : DefinitionTable K}
        {registry : Registry K}, ofTable table = .ok registry → table.Reorders other →
          (∀ failure, ofTable other = .error failure →
            ∃ name factor, failure = .invalidDefinition (.lossyCancellation name factor)) ∧
          (∀ registry', ofTable other = .ok registry' → ∀ name,
            Option.Rel CompoundUnit.Aligned (registry.lookup? name) (registry'.lookup? name)) ∧
          (table.RearrangesEvenly other (unitIn registry.units) →
            ∃ registry', ofTable other = .ok registry' ∧ ∀ name,
              Option.Rel (fun unit unit' => (unit == unit') = true) (registry.lookup? name)
                (registry'.lookup? name))) ∧
      ∀ {table other : DefinitionTable Rat} {registry registry' : Registry Rat},
        ofTable table = .ok registry → table.Reorders other → ofTable other = .ok registry' →
          ∀ name, Option.Rel (fun unit unit' => unit.conversionFactor unit' = .ok 1)
            (registry.lookup? name) (registry'.lookup? name) := by
  constructor
  · intro K _ _ table other registry built reorders
    obtain ⟨-, realizes⟩ := (ofTable_meets table).of_ok built
    refine ⟨fun failure => exists_lossyCancellation built reorders, fun registry' built' => ?_,
      exists_registry_of_evenly built reorders⟩
    obtain ⟨-, realizes'⟩ := (ofTable_meets other).of_ok built'
    exact realizes.rel_lookup? realizes' reorders.defines_iff reorders.aligned
  · intro table other registry registry' built reorders built'
    obtain ⟨⟨-, resolvable⟩, realizes⟩ := (ofTable_meets table).of_ok built
    obtain ⟨⟨-, resolvable'⟩, realizes'⟩ := (ofTable_meets other).of_ok built'
    refine realizes.rel_lookup? realizes' reorders.defines_iff ?_
    intro name unit unit' denotes denotes'
    rw [(reorders.aligned denotes denotes').conversionFactor_eq,
      reorders.size_eq resolvable resolvable' denotes denotes', div_self unit'.size_pos.ne']

/-- A table of some lengths, of the time, and of some units that are composed of these. -/
private def stairs {K : Type} [Scalar K] (lengths composed : List (String × Definition K)) :
    DefinitionTable K where
  prefixes := []
  dimensions :=
    [⟨dimensionlessName, [(dimensionlessName, .multiplier 1)]⟩, ⟨"length", lengths⟩,
      ⟨"time", [("second", .multiplier 1)]⟩, ⟨"way", composed⟩]

theorem stairs_reorders {K : Type} [Scalar K] (lengths : List (String × Definition K))
    {composed composed' : List (String × Definition K)}
    (reorder : List.Forall₂ (fun unit unit' => unit.1 = unit'.1 ∧ unit.2.Reorders unit'.2) composed
      composed') : (stairs lengths composed).Reorders (stairs lengths composed') :=
  ⟨rfl, .cons (.refl _) (.cons (.refl _) (.cons (.refl _) (.cons ⟨rfl, reorder⟩ .nil)))⟩

/-- A product of some names, among them the inverses of two lengths. -/
private def flights (names : List String) : DefinitionTable Float :=
  stairs [("rung", .multiplier 1), ("step", .multiplier 2), ("flight", .multiplier 4),
      ("storey", .multiplier 8)]
    [("per_step", .composed ⟨none, some ["step"]⟩),
      ("per_flight", .composed ⟨none, some ["flight"]⟩), ("climb", .composed ⟨some names, none⟩)]

theorem flights_reorders {names names' : List String} (permuted : names.Perm names') :
    (flights names).Reorders (flights names') :=
  stairs_reorders _ (.cons ⟨rfl, .refl _⟩ (.cons ⟨rfl, .refl _⟩
    (.cons ⟨rfl, .composed ⟨.some permuted, .none⟩⟩ .nil)))

/--
The order of names matters where different lengths cancel.  The inverse of a step cancels a step in
one order and a storey in another, which is refused; and two inverses cancel either the lengths that
come first or those that come last, so that other lengths are left.
-/
theorem order_of_names_matters :
    ((flights ["step", "storey", "per_step"]).Reorders (flights ["storey", "per_step", "step"]) ∧
      (∃ registry, ofTable (flights ["step", "storey", "per_step"]) = .ok registry) ∧
      ofTable (flights ["storey", "per_step", "step"]) =
        .error (.invalidDefinition (.lossyCancellation "climb" "4"))) ∧
      (flights ["rung", "storey", "per_step", "per_flight", "step", "flight"]).Reorders
          (flights ["step", "flight", "per_step", "per_flight", "rung", "storey"]) ∧
        ∃ registry registry' climb climb',
          ofTable (flights ["rung", "storey", "per_step", "per_flight", "step", "flight"]) =
              .ok registry ∧
            ofTable (flights ["step", "flight", "per_step", "per_flight", "rung", "storey"]) =
              .ok registry' ∧
            registry.lookup? "climb" = some climb ∧ registry'.lookup? "climb" = some climb' ∧
            (climb == climb') = false := by
  have accepted : Outcome.passes (ofTable (flights ["step", "storey", "per_step"]))
      (fun _ => true) = true := by decide +kernel
  have refused : (match ofTable (flights ["storey", "per_step", "step"]) with
      | .ok _ => false
      | .error failure => decide (failure =
          .invalidDefinition (.lossyCancellation "climb" "4"))) = true := by decide +kernel
  have differ : Outcome.passes
      (ofTable (flights ["rung", "storey", "per_step", "per_flight", "step", "flight"]))
      (fun registry => Outcome.passes
        (ofTable (flights ["step", "flight", "per_step", "per_flight", "rung", "storey"]))
        (fun registry' => (registry.lookup? "climb").any fun climb =>
          (registry'.lookup? "climb").any fun climb' => !(climb == climb'))) = true := by
    decide +kernel
  obtain ⟨registry, built, -⟩ := Outcome.exists_of_passes accepted
  obtain ⟨first, first_built, tests⟩ := Outcome.exists_of_passes differ
  obtain ⟨second, second_built, tests⟩ := Outcome.exists_of_passes tests
  simp only [Option.any_eq_true, Bool.not_eq_true'] at tests
  obtain ⟨climb, climb_found, climb', climb_found', different⟩ := tests
  refine ⟨⟨flights_reorders ?_, ⟨registry, built⟩, ?_⟩, flights_reorders ?_, first, second, climb,
    climb', first_built, second_built, climb_found, climb_found', different⟩
  · decide
  · split at refused
    · cases refused
    · rename_i failure failed
      rw [failed, of_decide_eq_true refused]
  · decide

/-- Some units that are composed of a length and a time, with their names in a given order. -/
private def hikes {K : Type} [Scalar K] (arrange : List String → List String) :
    DefinitionTable K :=
  stairs [("step", .multiplier 1)]
    [("pace", .composed ⟨some ["step"], some ["second"]⟩),
      ("per_step", .composed ⟨none, some ["step"]⟩),
      ("rest", .composed ⟨some (arrange ["pace", "second", "per_step", "second"]), none⟩),
      ("drag", .composed ⟨some ["second"], some (arrange ["pace", "step", "rest"])⟩)]

theorem hikes_reorder {K : Type} [Scalar K] {arrange arrange' : List String → List String}
    (permuted : ∀ names, (arrange names).Perm (arrange' names)) :
    (hikes arrange : DefinitionTable K).Reorders (hikes arrange') :=
  stairs_reorders _ (.cons ⟨rfl, .refl _⟩ (.cons ⟨rfl, .refl _⟩
    (.cons ⟨rfl, .composed ⟨.some (permuted _), .none⟩⟩
      (.cons ⟨rfl, .composed ⟨.some (.refl _), .some (permuted _)⟩⟩ .nil))))

/-- Only equal lengths and times meet, so that the names can be written backwards. -/
theorem hikes_backwards :
    (∃ registry registry' : Registry Float, ofTable (hikes id) = .ok registry ∧
        ofTable (hikes List.reverse) = .ok registry' ∧ registry.contains "drag" = true ∧
        Option.Rel (fun unit unit' => (unit == unit') = true) (registry.lookup? "drag")
          (registry'.lookup? "drag")) ∧
      ∃ registry registry' : Registry Rat, ofTable (hikes id) = .ok registry ∧
        ofTable (hikes List.reverse) = .ok registry' ∧ registry.contains "drag" = true ∧
        Option.Rel (fun unit unit' => unit.conversionFactor unit' = .ok 1)
          (registry.lookup? "drag") (registry'.lookup? "drag") := by
  have permuted (names : List String) : (id names).Perm names.reverse :=
    (List.reverse_perm names).symm
  have computed : Outcome.passes (ofTable (hikes id)) (fun registry : Registry Float =>
      registry.contains "drag" && decide
        (∀ event ∈ (hikes id : DefinitionTable Float).events,
          ∀ event' ∈ (hikes List.reverse : DefinitionTable Float).events,
            event.name = event'.name → ∀ composition ∈ event.composition?,
              ∀ composition' ∈ event'.composition?,
                composition.Rearranges (unitIn registry.units) composition')) = true := by
    decide +kernel
  have exact_computed : Outcome.passes (ofTable (hikes id))
      (fun registry : Registry Rat => registry.contains "drag") = true := by decide +kernel
  have exact_computed' : Outcome.passes (ofTable (hikes List.reverse))
      (fun _ : Registry Rat => true) = true := by decide +kernel
  constructor
  · obtain ⟨registry, built, tests⟩ := Outcome.exists_of_passes computed
    obtain ⟨contains_drag, each⟩ := Bool.and_eq_true_iff.mp tests
    have evenly := DefinitionTable.rearrangesEvenly_of_events (of_decide_eq_true each)
    obtain ⟨-, -, accepted⟩ := ofTable_of_reorders.1 built (hikes_reorder permuted)
    obtain ⟨registry', built', equal⟩ := accepted evenly
    exact ⟨registry, registry', built, built', contains_drag, equal "drag"⟩
  · obtain ⟨registry, built, contains_drag⟩ := Outcome.exists_of_passes exact_computed
    obtain ⟨registry', built', -⟩ := Outcome.exists_of_passes exact_computed'
    exact ⟨registry, registry', built, built', contains_drag,
      ofTable_of_reorders.2 built (hikes_reorder permuted) built' "drag"⟩

end Registry
end UnitAlgebra
