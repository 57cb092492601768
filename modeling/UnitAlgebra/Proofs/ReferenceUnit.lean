import UnitAlgebra.Proofs.Bookkeeping

/-!
# Reference units

The name of the reference unit of a dimension is chosen before the names of the dimension are
registered, and it is not chosen again when a later event gives the name another meaning.  The name
is always registered, and it always has an event as a unit of its dimension with the multiplier one.
It names such a unit exactly if that is its last event.
-/

namespace UnitAlgebra

variable {K : Type} [Scalar K]

/-! ## Events of reference units -/

namespace DefinitionTable

variable {table : DefinitionTable K} {dimension name : String}

theorem exists_of_references (referred : table.references[dimension]? = some name) :
    ∃ definitions ∈ table.dimensions, definitions.name = dimension ∧
      referenceOf? definitions = some name := by
  rw [references] at referred
  generalize table.dimensions = dimensions at referred ⊢
  induction dimensions using List.reverseRecOn with
  | nil => simp at referred
  | append_singleton front definitions induction =>
      rw [List.foldl_append, List.foldl_cons, List.foldl_nil] at referred
      have in_front : ∀ {reference}, (∃ other ∈ front, other.name = dimension ∧
          referenceOf? other = some reference) →
            ∃ other ∈ front ++ [definitions], other.name = dimension ∧
              referenceOf? other = some reference :=
        fun ⟨other, member, found⟩ => ⟨other, List.mem_append_left _ member, found⟩
      split at referred
      · rename_i reference found
        rw [Std.TreeMap.getElem?_insert] at referred
        split at referred
        · rename_i same
          obtain rfl := Option.some.inj referred
          exact ⟨definitions, by simp, Std.LawfulEqCmp.eq_of_compare same, found⟩
        · exact in_front (induction referred)
      · exact in_front (induction referred)

/-- The name of a reference unit has an event as such a unit. -/
theorem exists_event_of_references (loadable : table.IsLoadable)
    (one_eq : ((1 : K) == 1) = true) (referred : table.references[dimension]? = some name) :
    ∃ reference multiplier, .direct name dimension reference multiplier ∈ table.events ∧
      (multiplier == 1) = true := by
  obtain ⟨definitions, listed, rfl, found⟩ := exists_of_references referred
  rw [referenceOf?] at found
  split at found
  · rename_i stands_for_none
    obtain rfl := Option.some.inj found
    rw [stands_for_none]
    exact ⟨dimensionlessName, 1, loadable.dimensionless_mem_events, one_eq⟩
  · rename_i has_dimension
    obtain ⟨unit, direct, rfl, is_one⟩ := DimensionDefinitions.exists_of_reference? found
    refine ⟨unit.1, unit.2, mem_events listed ?_, is_one⟩
    rw [DimensionDefinitions.directEvents, if_neg has_dimension, found]
    exact List.mem_flatMap.mpr ⟨unit, direct, List.mem_cons_self⟩

end DefinitionTable

/-! ## Reference units of a registry -/

namespace Registry

variable {table : DefinitionTable K} {registry : Registry K} {dimension name : String}

/-- A name stands for a base unit of a dimension with the multiplier one. -/
def IsReference (registry : Registry K) (dimension name : String) : Prop :=
  ∃ unit, registry.baseUnit? name = some unit ∧ unit.dimension = dimensionTag dimension ∧
    (unit.multiplier == 1) = true

theorem references_of_ofTable (built : ofTable table = .ok registry) :
    registry.references = table.references := by
  obtain ⟨registrations, -, rest_built⟩ := Outcome.exists_of_bind_eq_ok built
  obtain ⟨units, -, registry_eq⟩ := Outcome.exists_of_bind_eq_ok rest_built
  obtain rfl := Except.ok.inj registry_eq
  rfl

theorem isReference_iff (realizes : registry.Realizes table) :
    registry.IsReference dimension name ↔ ∃ reference multiplier,
      table.meaning? name = some (.direct name dimension reference multiplier) ∧
        (multiplier == 1) = true := by
  constructor
  · rintro ⟨unit, found, tagged, is_one⟩
    have direct : table.baseUnit? name = some unit :=
      (realizes.follows.baseUnits_eq name).symm.trans found
    obtain ⟨event, last, made⟩ := Option.bind_eq_some_iff.mp direct
    cases event with
    | composed _ _ => cases made
    | direct event_name other reference multiplier =>
        obtain ⟨-, other_tagged, -, rfl⟩ := Event.fields_of_baseUnit? made
        obtain rfl : event_name = name := Event.name_of_last? last
        obtain rfl : other = dimension :=
          dimensionTag_inj.mp (other_tagged.symm.trans tagged)
        exact ⟨reference, _, last, is_one⟩
  · rintro ⟨reference, multiplier, last, is_one⟩
    have keeps := keeps_meaning? realizes name
    rw [last] at keeps
    obtain ⟨-, unit, found, -, tagged, -, multiplier_eq⟩ := keeps
    exact ⟨unit, found, tagged, by rw [multiplier_eq]; exact is_one⟩

theorem isDimensionless_of_isReference (realizes : registry.Realizes table)
    (reference : registry.IsReference dimensionlessName name) :
    ∃ unit, registry.lookup? name = some unit ∧ unit.isDimensionless = true := by
  obtain ⟨entry, found, tagged, -⟩ := reference
  have direct : table.baseUnit? name = some entry :=
    (realizes.follows.baseUnits_eq name).symm.trans found
  have no_dimension : entry.isDimensionless = true := by
    rw [BaseUnit.isDimensionless, tagged, beq_self_eq_true]
  exact ⟨_, realizes.explains.direct direct,
    (CompoundUnit.HasEntries.singleton_of_isDimensionless no_dimension).isDimensionless_iff.mpr
      ⟨rfl, rfl⟩⟩

/--
The name of the reference unit of a dimension is registered and has an event as such a unit.  It
stands for such a unit exactly if no later event has given it another meaning.
-/
theorem reference_registered {K : Type} [Scalar K] {table : DefinitionTable K}
    {registry : Registry K} (built : ofTable table = .ok registry)
    (one_eq : ((1 : K) == 1) = true) {dimension name : String}
    (referred : registry.reference? dimension = some name) :
    (∃ reference multiplier, .direct name dimension reference multiplier ∈ table.events ∧
        (multiplier == 1) = true) ∧
      registry.contains name = true ∧
      (registry.IsReference dimension name ↔ ∃ reference multiplier,
        table.meaning? name = some (.direct name dimension reference multiplier) ∧
          (multiplier == 1) = true) ∧
      (registry.IsReference dimensionlessName dimensionlessName →
        ∃ unit, registry.lookup? dimensionlessName = some unit ∧ unit.isDimensionless = true) := by
  obtain ⟨⟨loadable, -⟩, realizes⟩ := (ofTable_meets table).of_ok built
  rw [reference?, references_of_ofTable built] at referred
  have event := DefinitionTable.exists_event_of_references loadable one_eq referred
  refine ⟨event, ?_, isReference_iff realizes, isDimensionless_of_isReference realizes⟩
  obtain ⟨reference, multiplier, member, -⟩ := event
  exact (contains_iff_defines realizes name).mpr ⟨_, member, rfl⟩

/--
A table in which a length displaces the unit without dimensions, and a time the reference unit of
the lengths.
-/
private def displaced : DefinitionTable Float where
  prefixes := []
  dimensions :=
    [⟨dimensionlessName, [(dimensionlessName, .multiplier 1)]⟩,
      ⟨"length", [("meter", .multiplier 1), (dimensionlessName, .multiplier 2)]⟩,
      ⟨"time", [("second", .multiplier 1), ("meter", .multiplier 60)]⟩]

/-- The displaced meter still is the name of the reference unit of the lengths. -/
theorem displaced_meter :
    ∃ registry, ofTable displaced = .ok registry ∧
      registry.reference? "length" = some "meter" ∧
      (∃ reference multiplier,
        .direct "meter" "length" reference multiplier ∈ displaced.events ∧
          (multiplier == 1) = true) ∧
      registry.contains "meter" = true ∧
      (registry.IsReference "length" "meter" ↔ ∃ reference multiplier,
        displaced.meaning? "meter" = some (.direct "meter" "length" reference multiplier) ∧
          (multiplier == 1) = true) := by
  have computed : Outcome.passes (ofTable displaced) (fun registry =>
      decide (registry.reference? "length" = some "meter")) = true := by decide +kernel
  obtain ⟨registry, built, refers⟩ := Outcome.exists_of_passes computed
  have referred := of_decide_eq_true refers
  have one_eq : ((1 : Float) == 1) = true := by decide +kernel
  obtain ⟨event, registered, reference_iff, -⟩ := reference_registered built one_eq referred
  exact ⟨registry, built, referred, event, registered, reference_iff⟩

/--
No base unit of length stands under the name of the reference unit of the displaced lengths, and the
unit that is named dimensionless has a dimension.
-/
theorem displaced_references :
    ∃ registry, ofTable displaced = .ok registry ∧
      registry.reference? "length" = some "meter" ∧ ¬registry.IsReference "length" "meter" ∧
      registry.reference? dimensionlessName = some dimensionlessName ∧
      ¬registry.IsReference dimensionlessName dimensionlessName ∧
      ∃ unit, registry.lookup? dimensionlessName = some unit ∧ unit.isDimensionless = false := by
  have computed : Outcome.passes (ofTable displaced) (fun registry =>
      decide (registry.reference? "length" = some "meter") &&
        decide (registry.reference? dimensionlessName = some dimensionlessName) &&
        (registry.baseUnit? "meter").any (fun unit => unit.dimension == "[time]") &&
        (registry.baseUnit? dimensionlessName).any (fun unit => unit.dimension == "[length]") &&
        (registry.lookup? dimensionlessName).any (fun unit => !unit.isDimensionless)) = true := by
    decide +kernel
  obtain ⟨registry, built, tests⟩ := Outcome.exists_of_passes computed
  simp only [Bool.and_eq_true, decide_eq_true_eq, Option.any_eq_true, beq_iff_eq,
    Bool.not_eq_true'] at tests
  obtain ⟨⟨⟨⟨length_eq, none_eq⟩, meter, meter_found, meter_tag⟩, other, other_found, other_tag⟩,
    unit, unit_found, has_dimension⟩ := tests
  refine ⟨registry, built, length_eq, ?_, none_eq, ?_, unit, unit_found, has_dimension⟩
  · rintro ⟨same, same_found, tagged, -⟩
    obtain rfl := Option.some.inj (meter_found.symm.trans same_found)
    rw [meter_tag] at tagged
    exact absurd tagged (by decide)
  · rintro ⟨same, same_found, tagged, -⟩
    obtain rfl := Option.some.inj (other_found.symm.trans same_found)
    rw [other_tag] at tagged
    exact absurd tagged (by decide)

end Registry
end UnitAlgebra
