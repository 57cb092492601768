import Mathlib.Data.List.Forall2
import UnitAlgebra.Proofs.Catalogue

/-!
# Events of a table

A table gives meanings to names in a fixed order: dimension by dimension, every direct unit followed
by its expansions with the prefixes, then the composed units.  These events are read off the table
alone.  Whoever carries them out keeps the last event of every name: the catalogue of a list of
registrations that the events become knows exactly what the last events say.
-/

namespace UnitAlgebra

variable {K : Type} [Scalar K]

/-- Tests that agree on related items find related items first. -/
theorem find?_rel {First Second : Type} {related : First → Second → Prop} {firsts : List First}
    {seconds : List Second} {test : First → Bool} {test' : Second → Bool}
    (items_related : List.Forall₂ related firsts seconds)
    (agree : ∀ {first second}, related first second → test first = test' second) :
    Option.Rel related (firsts.find? test) (seconds.find? test') := by
  induction items_related with
  | nil => exact .none
  | cons item_related _ induction =>
      rw [List.find?_cons, List.find?_cons, agree item_related]
      split
      · exact .some item_related
      · exact induction

theorem exists_rel_of_mem {First Second : Type} {related : First → Second → Prop}
    {firsts : List First} {seconds : List Second}
    (items_related : List.Forall₂ related firsts seconds) {second : Second}
    (member : second ∈ seconds) : ∃ first ∈ firsts, related first second := by
  induction items_related with
  | nil => cases member
  | cons item_related _ induction =>
      rcases List.mem_cons.mp member with rfl | later
      · exact ⟨_, List.mem_cons_self, item_related⟩
      · obtain ⟨first, first_member, first_related⟩ := induction later
        exact ⟨first, List.mem_cons_of_mem _ first_member, first_related⟩

/-- One line of the reading of a table: a name and what it is to mean from here on. -/
inductive Event (K : Type) where
  /-- A base unit of a dimension. -/
  | direct (name dimension reference : String) (multiplier : K)
  /-- A composed unit. -/
  | composed (name : String) (composition : Composition)
  deriving DecidableEq, Repr

namespace Event

/-- The name that an event gives a meaning to. -/
def name {K : Type} : Event K → String
  | .direct name _ _ _ => name
  | .composed name _ => name

/-- The base unit that an event gives a name to, if any. -/
def baseUnit? : Event K → Option (BaseUnit K)
  | .direct name dimension reference multiplier =>
      (BaseUnit.make name (dimensionTag dimension) reference multiplier).toOption
  | .composed _ _ => none

/-- The composition that an event gives a name to, if any. -/
def composition? {K : Type} : Event K → Option Composition
  | .direct _ _ _ _ => none
  | .composed _ composition => some composition

/-- The last event of a name. -/
def last? {K : Type} (events : List (Event K)) (name : String) : Option (Event K) :=
  events.reverse.find? fun event => event.name == name

theorem name_of_last? {K : Type} {events : List (Event K)} {event : Event K} {name : String}
    (last : last? events name = some event) : event.name = name := by
  have same_name := List.find?_some last
  simpa using same_name

theorem mem_of_last? {K : Type} {events : List (Event K)} {event : Event K} {name : String}
    (last : last? events name = some event) : event ∈ events :=
  List.mem_reverse.mp (List.mem_of_find?_eq_some last)

end Event

/-! ## Reading a table -/

namespace DimensionDefinitions

/-- The events of a direct unit: itself and its expansions with the prefixes. -/
def expansionEvents (prefixes : List (String × K)) (dimension reference : String)
    (unit : String × K) : List (Event K) :=
  .direct unit.1 dimension reference unit.2 :: prefixes.map fun written =>
    .direct (Prefix.expand written.1 unit.1) dimension reference (written.2 * unit.2)

/--
The events of the direct units of a dimension.  A unit without dimension is never expanded, and
a dimension without a reference unit has nothing to refer its units to.
-/
def directEvents (prefixes : List (String × K)) (definitions : DimensionDefinitions K) :
    List (Event K) :=
  if definitions.name = dimensionlessName then
    definitions.direct.map fun unit => .direct unit.1 dimensionlessName dimensionlessName 1
  else
    match definitions.reference? with
    | none => []
    | some reference =>
        definitions.direct.flatMap (expansionEvents prefixes definitions.name reference)

/-- The events of a dimension. -/
def events (prefixes : List (String × K)) (definitions : DimensionDefinitions K) :
    List (Event K) :=
  definitions.directEvents prefixes ++
    definitions.composed.map fun unit => .composed unit.1 unit.2

end DimensionDefinitions

namespace DefinitionTable

/-- The events of a table in order. -/
def events (table : DefinitionTable K) : List (Event K) :=
  table.dimensions.flatMap (DimensionDefinitions.events table.prefixes)

/-- Some event of a table is about a name. -/
def Defines (table : DefinitionTable K) (name : String) : Prop :=
  ∃ event ∈ table.events, event.name = name

/-- What a name means after all events of a table. -/
def meaning? (table : DefinitionTable K) (name : String) : Option (Event K) :=
  Event.last? table.events name

/-- The base unit that a table leaves under a name. -/
def baseUnit? (table : DefinitionTable K) (name : String) : Option (BaseUnit K) :=
  (table.meaning? name).bind Event.baseUnit?

/-- The composition that a table leaves under a name. -/
def composition? (table : DefinitionTable K) (name : String) : Option Composition :=
  (table.meaning? name).bind Event.composition?

variable {table : DefinitionTable K} {name : String}

theorem composition?_of_baseUnit? {unit : BaseUnit K} (direct : table.baseUnit? name = some unit) :
    table.composition? name = none := by
  obtain ⟨event, last, event_direct⟩ := Option.bind_eq_some_iff.mp direct
  rw [composition?, last]
  cases event with
  | direct _ _ _ _ => rfl
  | composed _ _ => cases event_direct

theorem mem_events {definitions : DimensionDefinitions K} {event : Event K}
    (listed : definitions ∈ table.dimensions)
    (direct : event ∈ definitions.directEvents table.prefixes) : event ∈ table.events :=
  List.mem_flatMap.mpr ⟨definitions, listed, List.mem_append_left _ direct⟩

theorem dimension_of_mem_events {reference : String} {dimension : String} {multiplier : K}
    (member : .direct name dimension reference multiplier ∈ table.events) :
    ∃ definitions ∈ table.dimensions, definitions.name = dimension := by
  obtain ⟨definitions, listed, in_dimension⟩ := List.mem_flatMap.mp member
  refine ⟨definitions, listed, ?_⟩
  rcases List.mem_append.mp in_dimension with direct | composed
  · rw [DimensionDefinitions.directEvents] at direct
    split at direct
    · rename_i stands_for_none
      obtain ⟨unit, -, event_eq⟩ := List.mem_map.mp direct
      cases event_eq
      exact stands_for_none
    · split at direct
      · cases direct
      · obtain ⟨unit, -, expanded⟩ := List.mem_flatMap.mp direct
        rcases List.mem_cons.mp expanded with event_eq | with_prefix
        · cases event_eq
          rfl
        · obtain ⟨written, -, event_eq⟩ := List.mem_map.mp with_prefix
          cases event_eq
          rfl
  · obtain ⟨unit, -, event_eq⟩ := List.mem_map.mp composed
    cases event_eq

theorem defines_iff : table.Defines name ↔ ∃ event, table.meaning? name = some event := by
  rw [← Option.isSome_iff_exists, meaning?, Event.last?, List.find?_isSome]
  simp [Defines]

theorem defines_of_baseUnit? {unit : BaseUnit K} (direct : table.baseUnit? name = some unit) :
    table.Defines name := by
  obtain ⟨event, last, -⟩ := Option.bind_eq_some_iff.mp direct
  exact defines_iff.mpr ⟨event, last⟩

theorem defines_of_composition? {composition : Composition}
    (composed : table.composition? name = some composition) : table.Defines name := by
  obtain ⟨event, last, -⟩ := Option.bind_eq_some_iff.mp composed
  exact defines_iff.mpr ⟨event, last⟩

end DefinitionTable

/-! ## Carrying events out -/

theorem BaseUnit.fields_of_make {name dimension reference : String} {multiplier : K}
    {unit : BaseUnit K} (made : make name dimension reference multiplier = .ok unit) :
    unit.name = name ∧ unit.dimension = dimension ∧ unit.reference = reference ∧
      unit.multiplier = multiplier := by
  rw [make] at made
  split at made
  · obtain rfl := Except.ok.inj made
    exact ⟨rfl, rfl, rfl, rfl⟩
  · cases made

theorem BaseUnit.name_of_make {name dimension reference : String} {multiplier : K}
    {unit : BaseUnit K} (made : make name dimension reference multiplier = .ok unit) :
    unit.name = name :=
  (fields_of_make made).1

/-- The registration that an event becomes. -/
inductive Event.Becomes : Event K → Registration K → Prop where
  /-- A base unit with the tag of its dimension. -/
  | direct {name dimension reference : String} {multiplier : K} {unit : BaseUnit K}
      (made : BaseUnit.make name (dimensionTag dimension) reference multiplier = .ok unit) :
      Becomes (.direct name dimension reference multiplier) (.direct dimension unit)
  /-- A composed unit. -/
  | composed (name : String) (composition : Composition) :
      Becomes (.composed name composition) (.composed name composition)

namespace Event

variable {event : Event K} {registration : Registration K} {events : List (Event K)}
  {registrations : List (Registration K)}

theorem Becomes.name_eq (becomes : event.Becomes registration) :
    registration.name = event.name := by
  cases becomes with
  | direct made => exact BaseUnit.name_of_make made
  | composed name composition => rfl

theorem Becomes.baseUnit?_eq (becomes : event.Becomes registration) :
    registration.baseUnit? = event.baseUnit? := by
  cases becomes with
  | direct made =>
      rw [baseUnit?, made]
      rfl
  | composed name composition => rfl

theorem Becomes.composition?_eq (becomes : event.Becomes registration) :
    registration.composition? = event.composition? := by
  cases becomes <;> rfl

theorem fields_of_baseUnit? {name dimension reference : String} {multiplier : K} {unit : BaseUnit K}
    (found : (direct name dimension reference multiplier).baseUnit? = some unit) :
    unit.name = name ∧ unit.dimension = dimensionTag dimension ∧ unit.reference = reference ∧
      unit.multiplier = multiplier := by
  rw [baseUnit?] at found
  cases made : BaseUnit.make name (dimensionTag dimension) reference multiplier with
  | error failure =>
      rw [made] at found
      cases found
  | ok other =>
      rw [made] at found
      obtain rfl := Option.some.inj found
      exact BaseUnit.fields_of_make made

/-- What the last event of a name becomes is the last registration of the name. -/
theorem last?_becomes (carried : List.Forall₂ Becomes events registrations) (name : String) :
    Option.Rel Becomes (last? events name) (Registration.last? registrations name) :=
  find?_rel (List.rel_reverse carried) fun becomes => by rw [becomes.name_eq]

theorem bind_eq_of_rel {Meaning : Type} {event? : Option (Event K)}
    {registration? : Option (Registration K)} {read : Event K → Option Meaning}
    {kept : Registration K → Option Meaning}
    (kept_eq : ∀ {event registration}, Becomes event registration → kept registration = read event)
    (becomes : Option.Rel Becomes event? registration?) :
    registration?.bind kept = event?.bind read := by
  cases becomes with
  | none => rfl
  | some becomes => exact kept_eq becomes

theorem exists_of_rel {event? : Option (Event K)} {registration? : Option (Registration K)}
    (becomes : Option.Rel Becomes event? registration?) (read : event? = some event) :
    ∃ registration, registration? = some registration ∧ event.Becomes registration := by
  cases becomes with
  | none => cases read
  | some becomes =>
      obtain rfl := Option.some.inj read
      exact ⟨_, rfl, becomes⟩

end Event

theorem Event.Becomes.baseUnit_or_composition {event : Event K} {registration : Registration K}
    (becomes : event.Becomes registration) :
    (∃ unit, event.baseUnit? = some unit) ∨
      ∃ composition, event.composition? = some composition := by
  rw [← becomes.baseUnit?_eq, ← becomes.composition?_eq]
  cases registration with
  | direct dimension unit => exact .inl ⟨unit, rfl⟩
  | composed name composition => exact .inr ⟨composition, rfl⟩

/-- A catalogue that knows under every name what a table leaves under it. -/
structure Catalogue.Follows (catalogue : Catalogue K) (table : DefinitionTable K) : Prop where
  /-- The base units are those that the table leaves. -/
  baseUnits_eq (name : String) : catalogue.baseUnits[name]? = table.baseUnit? name
  /-- The compositions are those that the table leaves. -/
  compositions_eq (name : String) : catalogue.compositions[name]? = table.composition? name
  /-- Every defined name is that of a base unit or of a composition. -/
  baseUnit_or_composition {name : String} (defined : table.Defines name) :
    (∃ unit, table.baseUnit? name = some unit) ∨
      ∃ composition, table.composition? name = some composition

/-- The names with a composition are those to which the table leaves one. -/
theorem Catalogue.Follows.mem_keys_compositions {catalogue : Catalogue K}
    {table : DefinitionTable K} (follows : catalogue.Follows table) {name : String} :
    name ∈ catalogue.compositions.keys ↔
      ∃ composition, table.composition? name = some composition := by
  rw [Std.TreeMap.mem_keys, Std.TreeMap.mem_iff_isSome_getElem?, follows.compositions_eq,
    Option.isSome_iff_exists]

/-- Carrying out the events of a table gives a catalogue that follows the table. -/
theorem Catalogue.ofRegistrations_follows {table : DefinitionTable K}
    {registrations : List (Registration K)}
    (carried : List.Forall₂ Event.Becomes table.events registrations) :
    (ofRegistrations registrations).Follows table := by
  constructor
  · intro name
    rw [baseUnits_ofRegistrations, DefinitionTable.baseUnit?, DefinitionTable.meaning?]
    exact Event.bind_eq_of_rel (fun becomes => becomes.baseUnit?_eq)
      (Event.last?_becomes carried name)
  · intro name
    rw [compositions_ofRegistrations, DefinitionTable.composition?, DefinitionTable.meaning?]
    exact Event.bind_eq_of_rel (fun becomes => becomes.composition?_eq)
      (Event.last?_becomes carried name)
  · intro name defined
    obtain ⟨event, last⟩ := DefinitionTable.defines_iff.mp defined
    obtain ⟨registration, -, becomes⟩ :=
      Event.exists_of_rel (Event.last?_becomes carried name) last
    rw [DefinitionTable.baseUnit?, DefinitionTable.composition?, last]
    exact becomes.baseUnit_or_composition

end UnitAlgebra
