import UnitAlgebra.Proofs.Loading

/-!
# Registrations of a table

Every registration of a table comes from one of its definitions: a unit of the dimension that stands
for none, a direct unit of another dimension, its expansion with a prefix, or a composed unit.  The
names of the registry are the names that its table writes, with or without a prefix.
-/

namespace UnitAlgebra

variable {K : Type} [Scalar K]

/-- The registrations that a table makes. -/
inductive DefinitionTable.Makes (table : DefinitionTable K) : Registration K → Prop where
  /-- A unit without dimension. -/
  | dimensionless {definitions : DimensionDefinitions K} {unit : String × K}
      (listed : definitions ∈ table.dimensions)
      (stands_for_none : definitions.name = dimensionlessName)
      (direct : unit ∈ definitions.direct) :
      Makes table (.direct dimensionlessName (.dimensionlessAs unit.1))
  /-- A direct unit of a dimension. -/
  | plain {definitions : DimensionDefinitions K} {reference : String} {unit : String × K}
      {entry : BaseUnit K} (listed : definitions ∈ table.dimensions)
      (has_dimension : definitions.name ≠ dimensionlessName)
      (referred : definitions.reference? = some reference) (direct : unit ∈ definitions.direct)
      (made : BaseUnit.make unit.1 (dimensionTag definitions.name) reference unit.2 = .ok entry) :
      Makes table (.direct definitions.name entry)
  /-- A direct unit of a dimension with a prefix. -/
  | expanded {definitions : DimensionDefinitions K} {reference : String} {unit written : String × K}
      {entry : BaseUnit K} (listed : definitions ∈ table.dimensions)
      (has_dimension : definitions.name ≠ dimensionlessName)
      (referred : definitions.reference? = some reference) (direct : unit ∈ definitions.direct)
      (prefixed : written ∈ table.prefixes)
      (made : BaseUnit.make (Prefix.expand written.1 unit.1) (dimensionTag definitions.name)
        reference (written.2 * unit.2) = .ok entry) :
      Makes table (.direct definitions.name entry)
  /-- A composed unit. -/
  | composed {definitions : DimensionDefinitions K} {unit : String × Composition}
      (listed : definitions ∈ table.dimensions) (composed : unit ∈ definitions.composed)
      (has_side : unit.2.hasSide = true) : Makes table (.composed unit.1 unit.2)

namespace DefinitionTable

variable {table : DefinitionTable K} {registrations : List (Registration K)}

theorem makes_of_direct {definitions : DimensionDefinitions K} {event : Event K}
    {registration : Registration K} (listed : definitions ∈ table.dimensions)
    (member : event ∈ definitions.directEvents table.prefixes)
    (becomes : event.Becomes registration) : table.Makes registration := by
  rw [DimensionDefinitions.directEvents] at member
  split at member
  · rename_i stands_for_none
    obtain ⟨unit, direct, rfl⟩ := List.mem_map.mp member
    cases becomes with
    | direct made =>
        rw [BaseUnit.make, dif_pos Scalar.isMultiplier_one] at made
        obtain rfl := Except.ok.inj made
        exact .dimensionless listed stands_for_none direct
  · rename_i has_dimension
    split at member
    · cases member
    · rename_i reference referred
      obtain ⟨unit, direct, in_expansions⟩ := List.mem_flatMap.mp member
      rcases List.mem_cons.mp in_expansions with rfl | in_prefixed
      · cases becomes with
        | direct made => exact .plain listed has_dimension referred direct made
      · obtain ⟨written, prefixed, rfl⟩ := List.mem_map.mp in_prefixed
        cases becomes with
        | direct made => exact .expanded listed has_dimension referred direct prefixed made

theorem makes_of_mem (given : table.registrations = .ok registrations)
    {registration : Registration K} (member : registration ∈ registrations) :
    table.Makes registration := by
  obtain ⟨loadable, carried⟩ := table.registrations_meets.of_ok given
  obtain ⟨event, event_member, becomes⟩ := exists_rel_of_mem carried member
  obtain ⟨definitions, listed, in_dimension⟩ := List.mem_flatMap.mp event_member
  rcases List.mem_append.mp in_dimension with in_direct | in_composed
  · exact makes_of_direct listed in_direct becomes
  · obtain ⟨unit, composed, rfl⟩ := List.mem_map.mp in_composed
    cases becomes with
    | composed name composition =>
        exact .composed listed composed ((loadable.dimensions _ listed).side unit composed)

theorem exists_last?_dimensionless (given : table.registrations = .ok registrations) :
    ∃ registration, Registration.last? registrations dimensionlessName = some registration := by
  obtain ⟨loadable, carried⟩ := table.registrations_meets.of_ok given
  obtain ⟨event, last⟩ :=
    defines_iff.mp ⟨_, loadable.dimensionless_mem_events, rfl⟩
  obtain ⟨registration, registration_last, -⟩ :=
    Event.exists_of_rel (Event.last?_becomes carried dimensionlessName) last
  exact ⟨registration, registration_last⟩

end DefinitionTable
end UnitAlgebra
