import UnitAlgebra.Proofs.Event
import UnitAlgebra.Proofs.Outcome

/-!
# Loading a table

Loading checks every prefix and every definition in turn and stops at the first fault.  It accepts
a table exactly if there is none, and then its registrations are what the events of the table
become.
-/

namespace UnitAlgebra

variable {K : Type} [Scalar K]

open Outcome (Meets)

/-! ## Prefixes -/

namespace Prefix

/-- A written prefix has a mark at its end and something before it. -/
def IsMarked (written : String) : Prop :=
  ∃ stem, stem ≠ [] ∧ written.toList = stem ++ [mark]

theorem stem?_eq_some_iff {written stem : String} :
    stem? written = some stem ↔ written.toList = stem.toList ++ [mark] := by
  rw [stem?]
  split
  · rename_i reversed
    simp [List.reverse_eq_nil_iff.mp reversed]
  · rename_i last front reversed
    rw [List.reverse_eq_cons_iff.mp reversed, ← List.concat_eq_append, ← List.concat_eq_append,
      List.concat_inj]
    simp [← String.toList_inj, and_comm]

theorem isMarked_iff {written : String} :
    IsMarked written ↔ ∃ stem, stem? written = some stem ∧ stem.isEmpty = false := by
  constructor
  · rintro ⟨front, nonempty, written_eq⟩
    refine ⟨String.ofList front, stem?_eq_some_iff.mpr (by simpa using written_eq), ?_⟩
    simpa using nonempty
  · rintro ⟨stem, read, nonempty⟩
    exact ⟨stem.toList, by simpa using nonempty, stem?_eq_some_iff.mp read⟩

/-- A prefix is refused exactly if it lacks the mark or what stands before it. -/
theorem check_meets (written : String) :
    Meets (fun failure => failure = .invalidDefinition (.prefixMark written mark.toString) ∧
        ¬IsMarked written)
      (fun _ => IsMarked written) (check written) := by
  rw [check]
  cases read : stem? written with
  | none => exact .error ⟨rfl, by simp [isMarked_iff, read]⟩
  | some stem =>
      dsimp only
      split
      · rename_i empty
        exact .error ⟨rfl, by simpa [isMarked_iff, read] using empty⟩
      · rename_i nonempty
        exact .ok (isMarked_iff.mpr ⟨stem, read, by simpa using nonempty⟩)

end Prefix

/-! ## Dimensions -/

theorem BaseUnit.make_meets (name dimension reference : String) (multiplier : K) :
    Meets
      (fun failure =>
        failure = .invalidDefinition (.multiplierNotPositive name (Scalar.text multiplier)) ∧
          Scalar.isMultiplier multiplier = false)
      (fun unit => Scalar.isMultiplier multiplier = true ∧
        (Event.direct name dimension reference multiplier).Becomes (.direct dimension unit))
      (make name (dimensionTag dimension) reference multiplier) := by
  rw [make]
  split
  · rename_i positive
    exact .ok ⟨positive, .direct (by rw [make, dif_pos positive])⟩
  · rename_i unfit
    exact .error ⟨rfl, by simpa using unfit⟩

namespace DimensionDefinitions

/-- A dimension whose direct units can all be registered. -/
structure DirectIsLoadable (prefixes : List (String × K)) (definitions : DimensionDefinitions K) :
    Prop where
  /-- A dimension with direct units has one with the multiplier one. -/
  reference : definitions.name ≠ dimensionlessName → definitions.direct ≠ [] →
    ∃ unit ∈ definitions.direct, (unit.2 == 1) = true
  /-- The multipliers of a dimension are finite and greater than zero. -/
  multiplier : definitions.name ≠ dimensionlessName → ∀ unit ∈ definitions.direct,
    Scalar.isMultiplier unit.2 = true
  /-- So are their products with the prefixes. -/
  expansion : definitions.name ≠ dimensionlessName → ∀ unit ∈ definitions.direct,
    ∀ written ∈ prefixes, Scalar.isMultiplier (written.2 * unit.2) = true
  /-- A unit without dimension has the multiplier one. -/
  dimensionless : definitions.name = dimensionlessName → ∀ unit ∈ definitions.direct,
    (unit.2 == 1) = true

/-- A dimension whose definitions can all be registered. -/
structure IsLoadable (prefixes : List (String × K)) (definitions : DimensionDefinitions K) : Prop
    extends DirectIsLoadable prefixes definitions where
  /-- A composed unit has at least one side. -/
  side : ∀ unit ∈ definitions.composed, unit.2.hasSide = true

/-- Why a dimension cannot be registered. -/
inductive Fault (prefixes : List (String × K)) (definitions : DimensionDefinitions K) :
    UnitError → Prop where
  /-- A dimension with direct units has none with the multiplier one. -/
  | noBaseUnit (has_dimension : definitions.name ≠ dimensionlessName)
      (direct : definitions.direct ≠ [])
      (no_reference : ∀ unit ∈ definitions.direct, (unit.2 == 1) = false) :
      Fault prefixes definitions (.invalidDefinition (.noBaseUnit definitions.name))
  /-- A multiplier is not finite or not greater than zero. -/
  | multiplier {unit : String × K} (has_dimension : definitions.name ≠ dimensionlessName)
      (direct : unit ∈ definitions.direct) (unfit : Scalar.isMultiplier unit.2 = false) :
      Fault prefixes definitions
        (.invalidDefinition (.multiplierNotPositive unit.1 (Scalar.text unit.2)))
  /-- The product of a multiplier with a prefix is not finite or not greater than zero. -/
  | expansion {unit written : String × K} (has_dimension : definitions.name ≠ dimensionlessName)
      (direct : unit ∈ definitions.direct) (prefixed : written ∈ prefixes)
      (unfit : Scalar.isMultiplier (written.2 * unit.2) = false) :
      Fault prefixes definitions (.invalidDefinition (.multiplierNotPositive
        (Prefix.expand written.1 unit.1) (Scalar.text (written.2 * unit.2))))
  /-- A unit without dimension has a multiplier other than one. -/
  | dimensionless {unit : String × K} (stands_for_none : definitions.name = dimensionlessName)
      (direct : unit ∈ definitions.direct) (other : (unit.2 == 1) = false) :
      Fault prefixes definitions
        (.invalidDefinition (.dimensionlessMultiplier unit.1 (Scalar.text unit.2)))
  /-- A composed unit has no side. -/
  | noSides {unit : String × Composition} (composed : unit ∈ definitions.composed)
      (bare : unit.2.hasSide = false) :
      Fault prefixes definitions (.invalidConstruction (.noSides unit.1))

variable {prefixes : List (String × K)} {definitions : DimensionDefinitions K}

theorem Fault.not_isLoadable {failure : UnitError} (fault : Fault prefixes definitions failure) :
    ¬definitions.IsLoadable prefixes := by
  intro loadable
  cases fault with
  | noBaseUnit has_dimension direct no_reference =>
      obtain ⟨unit, member, is_one⟩ := loadable.reference has_dimension direct
      simp [no_reference unit member] at is_one
  | multiplier has_dimension direct unfit =>
      simp [loadable.multiplier has_dimension _ direct] at unfit
  | expansion has_dimension direct prefixed unfit =>
      simp [loadable.expansion has_dimension _ direct _ prefixed] at unfit
  | dimensionless stands_for_none direct other =>
      simp [loadable.dimensionless stands_for_none _ direct] at other
  | noSides composed bare => simp [loadable.side _ composed] at bare

/-- A direct unit is registered with all its expansions, or refused for an unfit multiplier. -/
theorem expansions_meets (prefixes : List (String × K))
    (has_dimension : definitions.name ≠ dimensionlessName) (reference : String) {unit : String × K}
    (direct : unit ∈ definitions.direct) :
    Meets (Fault prefixes definitions)
      (fun registrations => (Scalar.isMultiplier unit.2 = true ∧
          ∀ written ∈ prefixes, Scalar.isMultiplier (written.2 * unit.2) = true) ∧
        List.Forall₂ Event.Becomes (expansionEvents prefixes definitions.name reference unit)
          registrations)
      (expansions prefixes definitions.name reference unit) := by
  have plain_meets := BaseUnit.make_meets unit.1 definitions.name reference unit.2
  refine (plain_meets.imp ?_ id).bind fun plain ⟨positive, plain_becomes⟩ => ?_
  · rintro failure ⟨rfl, unfit⟩
    exact .multiplier has_dimension direct unfit
  have expanded_meets : Meets (Fault prefixes definitions) _ (prefixes.mapM _) :=
    .mapM fun written prefixed => (BaseUnit.make_meets (Prefix.expand written.1 unit.1)
      definitions.name reference (written.2 * unit.2)).imp ?_ id
  · refine expanded_meets.bind fun expanded ⟨products_positive, expanded_become⟩ => ?_
    refine .ok ⟨⟨positive, products_positive⟩, .cons plain_becomes ?_⟩
    exact List.forall₂_map_left_iff.mpr (List.forall₂_map_right_iff.mpr expanded_become)
  · rintro failure ⟨rfl, unfit⟩
    exact .expansion has_dimension direct prefixed unfit

theorem dimensionlessRegistration_meets (stands_for_none : definitions.name = dimensionlessName)
    {unit : String × K} (direct : unit ∈ definitions.direct) :
    Meets (Fault prefixes definitions)
      (fun registration => (unit.2 == 1) = true ∧
        (Event.direct unit.1 dimensionlessName dimensionlessName 1).Becomes registration)
      (dimensionlessRegistration unit) := by
  rw [dimensionlessRegistration]
  split
  · rename_i is_one
    exact .ok ⟨is_one, .direct (by rw [BaseUnit.make, dif_pos Scalar.isMultiplier_one]; rfl)⟩
  · rename_i other
    exact .error (.dimensionless stands_for_none direct (by simpa using other))

theorem ne_one_of_reference? (missing : definitions.reference? = none) :
    ∀ unit ∈ definitions.direct, (unit.2 == 1) = false := by
  rw [reference?, Option.map_eq_none_iff, List.find?_eq_none] at missing
  intro unit direct
  simpa using missing unit direct

theorem exists_of_reference? {reference : String}
    (referred : definitions.reference? = some reference) :
    ∃ unit ∈ definitions.direct, unit.1 = reference ∧ (unit.2 == 1) = true := by
  rw [reference?, Option.map_eq_some_iff] at referred
  obtain ⟨unit, found, name_eq⟩ := referred
  have is_one := List.find?_some found
  exact ⟨unit, List.mem_of_find?_eq_some found, name_eq, is_one⟩

theorem dimensionless_meets (prefixes : List (String × K))
    (stands_for_none : definitions.name = dimensionlessName) :
    Meets (Fault prefixes definitions)
      (fun registrations => definitions.DirectIsLoadable prefixes ∧
        List.Forall₂ Event.Becomes (definitions.directEvents prefixes) registrations)
      (definitions.directRegistrations prefixes) := by
  rw [directRegistrations, directEvents, if_pos stands_for_none, if_pos stands_for_none]
  refine (Meets.mapM fun unit direct =>
    dimensionlessRegistration_meets stands_for_none direct).imp id ?_
  rintro registrations ⟨all_one, become⟩
  refine ⟨?_, List.forall₂_map_left_iff.mpr become⟩
  constructor
  · exact fun has_dimension => absurd stands_for_none has_dimension
  · exact fun has_dimension => absurd stands_for_none has_dimension
  · exact fun has_dimension => absurd stands_for_none has_dimension
  · exact fun _ => all_one

theorem dimensional_meets (prefixes : List (String × K))
    (has_dimension : definitions.name ≠ dimensionlessName) :
    Meets (Fault prefixes definitions)
      (fun registrations => definitions.DirectIsLoadable prefixes ∧
        List.Forall₂ Event.Becomes (definitions.directEvents prefixes) registrations)
      (definitions.directRegistrations prefixes) := by
  rw [directRegistrations, directEvents, if_neg has_dimension, if_neg has_dimension]
  cases referred : definitions.reference? with
  | none =>
      dsimp only
      split
      · rename_i empty
        refine .ok ⟨?_, .nil⟩
        constructor <;> simp [List.isEmpty_iff.mp empty]
      · rename_i nonempty
        exact .error (.noBaseUnit has_dimension (by simpa using nonempty)
          (ne_one_of_reference? referred))
  | some reference =>
      obtain ⟨unit, direct, -, is_one⟩ := exists_of_reference? referred
      rw [if_neg (by simpa using List.ne_nil_of_mem direct)]
      have groups_meet := Meets.mapM fun unit direct =>
        expansions_meets prefixes has_dimension reference direct
      refine groups_meet.bind fun groups group_meets => .ok ⟨?_, ?_⟩
      · constructor
        · exact fun _ _ => ⟨unit, direct, is_one⟩
        · exact fun _ other other_direct => (group_meets.1 other other_direct).1
        · exact fun _ other other_direct => (group_meets.1 other other_direct).2
        · exact fun stands_for_none => absurd stands_for_none has_dimension
      · dsimp only
        rw [List.flatMap_def]
        exact List.rel_flatten (List.forall₂_map_left_iff.mpr group_meets.2)

theorem directRegistrations_meets (prefixes : List (String × K))
    (definitions : DimensionDefinitions K) :
    Meets (Fault prefixes definitions)
      (fun registrations => definitions.DirectIsLoadable prefixes ∧
        List.Forall₂ Event.Becomes (definitions.directEvents prefixes) registrations)
      (definitions.directRegistrations prefixes) := by
  by_cases stands_for_none : definitions.name = dimensionlessName
  · exact dimensionless_meets prefixes stands_for_none
  · exact dimensional_meets prefixes stands_for_none

theorem composedRegistration_meets {unit : String × Composition}
    (composed : unit ∈ definitions.composed) :
    Meets (Fault prefixes definitions)
      (fun registration => unit.2.hasSide = true ∧
        (Event.composed unit.1 unit.2).Becomes registration)
      (composedRegistration (K := K) unit) := by
  rw [composedRegistration, Composition.check]
  split
  · rename_i has_side
    exact .ok ⟨has_side, .composed unit.1 unit.2⟩
  · rename_i bare
    exact .error (.noSides composed (by simpa using bare))

/-- A dimension is registered in the order of its events, or refused for a fault in it. -/
theorem registrations_meets (prefixes : List (String × K)) (definitions : DimensionDefinitions K) :
    Meets (Fault prefixes definitions)
      (fun registrations => definitions.IsLoadable prefixes ∧
        List.Forall₂ Event.Becomes (definitions.events prefixes) registrations)
      (definitions.registrations prefixes) := by
  refine (directRegistrations_meets prefixes definitions).bind
    fun direct ⟨direct_loadable, direct_become⟩ => ?_
  refine (Meets.mapM fun unit composed => composedRegistration_meets composed).bind
    fun composed ⟨sides, composed_become⟩ => ?_
  exact .ok ⟨⟨direct_loadable, sides⟩,
    List.rel_append direct_become (List.forall₂_map_left_iff.mpr composed_become)⟩

end DimensionDefinitions

/-! ## Tables -/

namespace DefinitionTable

/-- A table whose definitions can all be registered. -/
structure IsLoadable (table : DefinitionTable K) : Prop where
  /-- The dimension that stands for none has the dimensionless unit with the multiplier one. -/
  dimensionless : ∃ definitions ∈ table.dimensions, definitions.name = dimensionlessName ∧
    ∃ unit ∈ definitions.direct, unit.1 = dimensionlessName ∧ (unit.2 == 1) = true
  /-- Every prefix ends in the mark. -/
  prefixes : ∀ written ∈ table.prefixes, Prefix.IsMarked written.1
  /-- Every dimension can be registered. -/
  dimensions : ∀ definitions ∈ table.dimensions, definitions.IsLoadable table.prefixes

theorem IsLoadable.dimensionless_mem_events {table : DefinitionTable K}
    (loadable : table.IsLoadable) :
    .direct dimensionlessName dimensionlessName dimensionlessName 1 ∈ table.events := by
  obtain ⟨definitions, listed, stands_for_none, unit, direct, unit_name, -⟩ :=
    loadable.dimensionless
  refine mem_events listed ?_
  rw [DimensionDefinitions.directEvents, if_pos stands_for_none]
  exact List.mem_map.mpr ⟨unit, direct, by rw [unit_name]⟩

/-- Why a table cannot be loaded. -/
inductive LoadingFault (table : DefinitionTable K) : UnitError → Prop where
  /-- There is no dimensionless unit with the multiplier one. -/
  | noDimensionless (undefined : table.definesDimensionless = false) :
      LoadingFault table (.invalidDefinition .noDimensionless)
  /-- A prefix lacks the mark or a stem before it. -/
  | prefixMark {written : String × K} (prefixed : written ∈ table.prefixes)
      (unmarked : ¬Prefix.IsMarked written.1) :
      LoadingFault table (.invalidDefinition (.prefixMark written.1 Prefix.mark.toString))
  /-- A dimension cannot be registered. -/
  | dimension {definitions : DimensionDefinitions K} {failure : UnitError}
      (listed : definitions ∈ table.dimensions) (fault : definitions.Fault table.prefixes failure) :
      LoadingFault table failure

variable {table : DefinitionTable K}

theorem definesDimensionless_iff : table.definesDimensionless = true ↔
    ∃ definitions ∈ table.dimensions, definitions.name = dimensionlessName ∧
      ∃ unit ∈ definitions.direct, unit.1 = dimensionlessName ∧ (unit.2 == 1) = true := by
  constructor
  · intro defines
    obtain ⟨definitions, listed, defined⟩ := List.any_eq_true.mp defines
    rw [Bool.and_eq_true, beq_iff_eq, List.any_eq_true] at defined
    obtain ⟨stands_for_none, ⟨name, definition⟩, unit_listed, name_and_one⟩ := defined
    rw [Bool.and_eq_true, beq_iff_eq] at name_and_one
    obtain ⟨name_eq, is_one⟩ := name_and_one
    cases definition with
    | composed composition => cases is_one
    | multiplier value =>
        exact ⟨definitions, listed, stands_for_none, (name, value),
          List.mem_filterMap.mpr ⟨_, unit_listed, rfl⟩, name_eq, is_one⟩
  · rintro ⟨definitions, listed, stands_for_none, ⟨name, value⟩, direct, name_eq, is_one⟩
    obtain ⟨⟨other, definition⟩, unit_listed, written⟩ := List.mem_filterMap.mp direct
    cases definition with
    | composed composition => cases written
    | multiplier other_value =>
        obtain ⟨rfl, rfl⟩ : other = name ∧ other_value = value := by simpa using written
        refine List.any_eq_true.mpr ⟨definitions, listed, ?_⟩
        rw [Bool.and_eq_true, beq_iff_eq, List.any_eq_true]
        refine ⟨stands_for_none, _, unit_listed, ?_⟩
        rw [Bool.and_eq_true, beq_iff_eq]
        exact ⟨name_eq, is_one⟩

theorem LoadingFault.not_isLoadable {failure : UnitError} (fault : table.LoadingFault failure) :
    ¬table.IsLoadable := by
  intro loadable
  cases fault with
  | noDimensionless undefined =>
      simp [definesDimensionless_iff.mpr loadable.dimensionless] at undefined
  | prefixMark prefixed unmarked => exact unmarked (loadable.prefixes _ prefixed)
  | dimension listed fault => exact fault.not_isLoadable (loadable.dimensions _ listed)

theorem LoadingFault.ne_unknownUnit {failure : UnitError} (fault : table.LoadingFault failure)
    (name : String) : failure ≠ .unknownUnit name := by
  rintro rfl
  cases fault with
  | dimension listed fault => cases fault

/-- A table is loaded in the order of its events, or refused for a fault in it. -/
theorem registrations_meets (table : DefinitionTable K) :
    Meets table.LoadingFault
      (fun registrations => table.IsLoadable ∧
        List.Forall₂ Event.Becomes table.events registrations)
      table.registrations := by
  have dimensionless_checked : Meets table.LoadingFault
      (fun _ => table.definesDimensionless = true) table.checkDimensionless := by
    rw [checkDimensionless]
    split
    · rename_i defined
      exact .ok defined
    · rename_i undefined
      exact .error (.noDimensionless (by simpa using undefined))
  refine dimensionless_checked.bind fun _ defined => ?_
  have prefixes_checked : Meets table.LoadingFault
      (fun _ => ∀ written ∈ table.prefixes, Prefix.IsMarked written.1)
      (table.prefixes.forM fun written => Prefix.check written.1) := by
    refine .forM fun written prefixed => (Prefix.check_meets written.1).imp ?_ id
    rintro failure ⟨rfl, unmarked⟩
    exact .prefixMark prefixed unmarked
  refine prefixes_checked.bind fun _ marked => ?_
  have groups_meet := Meets.mapM fun definitions listed =>
    (DimensionDefinitions.registrations_meets table.prefixes definitions).imp
      (fun fault => LoadingFault.dimension listed fault) id
  refine groups_meet.bind fun groups ⟨loadable, become⟩ => .ok ⟨?_, ?_⟩
  · exact ⟨definesDimensionless_iff.mp defined, marked, loadable⟩
  · rw [events, List.flatMap_def]
    exact List.rel_flatten (List.forall₂_map_left_iff.mpr become)

end DefinitionTable
end UnitAlgebra
