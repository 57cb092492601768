import UnitAlgebra.Proofs.CanonicalOrder
import UnitAlgebra.Proofs.WellFormed

/-!
# Bookkeeping of a registry

A registry keeps what it knows in several maps: base units and compositions by name, multipliers by
dimension and name, and units by name.  After any table they agree.  The last event of a name
decides what stands under it, multipliers are those of the base units of their dimension, and units
are made of base units that still stand under their names.
-/

namespace UnitAlgebra

variable {K : Type} [Scalar K]

/-! ## Multipliers -/

theorem dimensionTag_inj {dimension other : String} :
    dimensionTag dimension = dimensionTag other ↔ dimension = other := by
  constructor
  · intro same
    have inner : toString dimension = toString other := by simpa [dimensionTag] using same
    exact inner
  · exact congrArg dimensionTag

/-- The multiplier that a registration enters into a dimension, if any. -/
def Registration.multiplierIn? (dimension : String) : Registration K → Option K
  | .direct other unit => if other = dimension then some unit.multiplier else none
  | .composed _ _ => none

namespace Catalogue

/-- The multiplier of a name in a dimension. -/
def multiplier? (catalogue : Catalogue K) (dimension name : String) : Option K :=
  (catalogue.multipliers[dimension]?).bind fun table => table[name]?

theorem multiplier?_forget (catalogue : Catalogue K) (forgotten dimension name : String) :
    (catalogue.forget forgotten).multiplier? dimension name =
      if forgotten = name then none else catalogue.multiplier? dimension name := by
  rw [multiplier?, multiplier?, forget, Std.TreeMap.getElem?_map]
  cases catalogue.multipliers[dimension]? with
  | none => simp
  | some table => simp [Std.TreeMap.getElem?_erase]

theorem multiplier?_insertBaseUnit (catalogue : Catalogue K) (entered : String) (unit : BaseUnit K)
    (dimension name : String) :
    (catalogue.insertBaseUnit entered unit).multiplier? dimension name =
      if entered = dimension ∧ unit.name = name then some unit.multiplier
      else catalogue.multiplier? dimension name := by
  rw [multiplier?, multiplier?, insertBaseUnit, Std.TreeMap.getElem?_insert]
  by_cases same_dimension : entered = dimension
  · subst same_dimension
    by_cases same_name : unit.name = name
    · simp [same_name]
    · cases catalogue.multipliers[entered]? <;> simp [Std.TreeMap.getElem?_insert, same_name]
  · simp [same_dimension]

/-- A name that is released has no multiplier any more, if none had one without a meaning. -/
theorem multiplier?_release {catalogue : Catalogue K} {released dimension : String}
    (without_meaning : catalogue.defines released = false →
      catalogue.multiplier? dimension released = none) (name : String) :
    (catalogue.release released).multiplier? dimension name =
      if released = name then none else catalogue.multiplier? dimension name := by
  rw [release]
  split
  · exact multiplier?_forget catalogue released dimension name
  · rename_i undefined
    split
    · rename_i same
      rw [← same]
      exact without_meaning (by simpa using undefined)
    · rfl

theorem multiplier?_enter {catalogue : Catalogue K} {registration : Registration K}
    {dimension : String} (without_meaning : catalogue.defines registration.name = false →
      catalogue.multiplier? dimension registration.name = none) (name : String) :
    (catalogue.enter registration).multiplier? dimension name =
      if registration.name = name then registration.multiplierIn? dimension
      else catalogue.multiplier? dimension name := by
  have released := multiplier?_release without_meaning name
  cases registration with
  | direct entered unit =>
      change ((catalogue.release unit.name).insertBaseUnit entered unit).multiplier?
        dimension name = _
      rw [multiplier?_insertBaseUnit]
      by_cases same_name : unit.name = name
      · by_cases same_dimension : entered = dimension
        · simp [Registration.name, Registration.multiplierIn?, same_name, same_dimension]
        · simp_all [Registration.name, Registration.multiplierIn?]
      · simp_all [Registration.name]
  | composed composed_name composition => exact released

/-- The last registration of a name decides in which dimension it has a multiplier, and which. -/
theorem multiplier?_ofRegistrations (registrations : List (Registration K))
    (dimension name : String) :
    (ofRegistrations registrations).multiplier? dimension name =
      (Registration.last? registrations name).bind (Registration.multiplierIn? dimension) := by
  induction registrations using List.reverseRecOn generalizing name with
  | nil => simp [ofRegistrations, empty, multiplier?, Registration.last?]
  | append_singleton front registration induction =>
      have without_meaning : (ofRegistrations front).defines registration.name = false →
          (ofRegistrations front).multiplier? dimension registration.name = none := by
        intro undefined
        cases last : Registration.last? front registration.name with
        | none => rw [induction, last, Option.bind_none]
        | some other => simp [defines_ofRegistrations.mpr ⟨other, last⟩] at undefined
      rw [ofRegistrations_append_singleton, Registration.last?_append_singleton,
        multiplier?_enter without_meaning, induction]
      split <;> rfl

end Catalogue

/-- The last registration of a name is what the last event of the name becomes. -/
theorem Event.exists_of_last? {events : List (Event K)} {registrations : List (Registration K)}
    {name : String} {registration : Registration K}
    (carried : List.Forall₂ Becomes events registrations)
    (last : Registration.last? registrations name = some registration) :
    ∃ event, last? events name = some event ∧ event.Becomes registration := by
  have becomes := last?_becomes carried name
  rw [last] at becomes
  generalize last? events name = event? at becomes
  cases becomes with
  | some becomes => exact ⟨_, rfl, becomes⟩

/-! ## Registries -/

namespace Registry

variable {table : DefinitionTable K} {registry : Registry K}

/-- What a registry keeps of the last event of a name. -/
def Keeps (registry : Registry K) (name : String) : Option (Event K) → Prop
  | some (.direct _ dimension reference multiplier) =>
      registry.composition? name = none ∧
        ∃ unit, registry.baseUnit? name = some unit ∧ unit.name = name ∧
          unit.dimension = dimensionTag dimension ∧ unit.reference = reference ∧
            unit.multiplier = multiplier
  | some (.composed _ composition) =>
      registry.composition? name = some composition ∧ registry.baseUnit? name = none
  | none =>
      registry.composition? name = none ∧ registry.baseUnit? name = none ∧
        registry.lookup? name = none

/-- A dimension lists a name with a multiplier. -/
def Lists (registry : Registry K) (dimension name : String) (multiplier : K) : Prop :=
  ∃ multipliers, registry.multipliersOf? dimension = some multipliers ∧
    (name, multiplier) ∈ multipliers

/-- A registry whose maps agree with each other and with the events of a table. -/
structure IsConsistent (registry : Registry K) (table : DefinitionTable K) : Prop where
  /-- The last event of a name decides what stands under it. -/
  keeps (name : String) : registry.Keeps name (table.meaning? name)
  /-- The registered names are those that some event is about. -/
  contains_iff (name : String) : registry.contains name = true ↔ table.Defines name
  /-- A dimension lists the base units with its tag, with their multipliers. -/
  lists_iff (dimension name : String) (multiplier : K) : registry.Lists dimension name multiplier ↔
    ∃ unit, registry.baseUnit? name = some unit ∧ unit.dimension = dimensionTag dimension ∧
      unit.multiplier = multiplier
  /-- No name is listed in two dimensions. -/
  dimension_unique {name first second : String} {multiplier other : K} :
    registry.Lists first name multiplier → registry.Lists second name other → first = second
  /-- The entries of a unit are placeholders or base units that stand under their names. -/
  entry_known {name : String} {unit : CompoundUnit K} : registry.lookup? name = some unit →
    ∀ entry ∈ unit.numerator ++ unit.denominator,
      entry = .dimensionless ∨ registry.baseUnit? entry.name = some entry

theorem lists_iff_multiplier? {dimension name : String} {multiplier : K} :
    registry.Lists dimension name multiplier ↔
      registry.toCatalogue.multiplier? dimension name = some multiplier := by
  rw [Lists, multipliersOf?, Catalogue.multiplier?]
  cases registry.multipliers[dimension]? with
  | none => simp
  | some table => simp [Std.TreeMap.mem_toList_iff_getElem?_eq_some]

theorem lists_iff_baseUnit? (built : ofTable table = .ok registry) (dimension name : String)
    (multiplier : K) : registry.Lists dimension name multiplier ↔
      ∃ unit, registry.baseUnit? name = some unit ∧ unit.dimension = dimensionTag dimension ∧
        unit.multiplier = multiplier := by
  obtain ⟨registrations, registered, catalogue_eq, -⟩ := exists_of_ofTable built
  have carried := (table.registrations_meets.of_ok registered).2
  rw [lists_iff_multiplier?, baseUnit?, catalogue_eq, Catalogue.multiplier?_ofRegistrations,
    Catalogue.baseUnits_ofRegistrations]
  cases last : Registration.last? registrations name with
  | none => simp
  | some registration =>
      obtain ⟨event, -, becomes⟩ := Event.exists_of_last? carried last
      cases becomes with
      | composed composed_name composition =>
          simp [Registration.multiplierIn?, Registration.baseUnit?]
      | direct made =>
          have tagged := (BaseUnit.fields_of_make made).2.1
          simp [Registration.multiplierIn?, Registration.baseUnit?, tagged, dimensionTag_inj]

theorem contains_iff_defines (realizes : registry.Realizes table) (name : String) :
    registry.contains name = true ↔ table.Defines name := by
  rw [contains, ← Std.TreeMap.isSome_getElem?_eq_contains, Option.isSome_iff_exists]
  constructor
  · rintro ⟨unit, found⟩
    exact (realizes.explains.denotes found).defines
  · exact realizes.complete

theorem keeps_meaning? (realizes : registry.Realizes table) (name : String) :
    registry.Keeps name (table.meaning? name) := by
  have direct_eq : registry.baseUnit? name = (table.meaning? name).bind Event.baseUnit? :=
    realizes.follows.baseUnits_eq name
  have composed_eq : registry.composition? name = (table.meaning? name).bind Event.composition? :=
    realizes.follows.compositions_eq name
  cases last : table.meaning? name with
  | none =>
      rw [last] at direct_eq composed_eq
      refine ⟨composed_eq, direct_eq, Option.eq_none_iff_forall_ne_some.mpr fun unit found => ?_⟩
      obtain ⟨event, other_last⟩ :=
        DefinitionTable.defines_iff.mp (realizes.explains.denotes found).defines
      rw [last] at other_last
      cases other_last
  | some event =>
      have defined : table.Defines name := DefinitionTable.defines_iff.mpr ⟨event, last⟩
      have name_eq := Event.name_of_last? last
      rw [last] at direct_eq composed_eq
      cases event with
      | composed event_name composition => exact ⟨composed_eq, direct_eq⟩
      | direct event_name dimension reference multiplier =>
          refine ⟨composed_eq, ?_⟩
          rcases realizes.follows.baseUnit_or_composition defined with
            ⟨unit, made⟩ | ⟨composition, composed⟩
          · rw [DefinitionTable.baseUnit?, last] at made
            obtain ⟨unit_name, fields⟩ := Event.fields_of_baseUnit? made
            exact ⟨unit, direct_eq.trans made, unit_name.trans name_eq, fields⟩
          · rw [DefinitionTable.composition?, last] at composed
            cases composed

theorem entry_of_lookup? [LawfulScalar K] (built : ofTable table = .ok registry) {name : String}
    {unit : CompoundUnit K} (found : registry.lookup? name = some unit) {entry : BaseUnit K}
    (member : entry ∈ unit.numerator ++ unit.denominator) :
    entry = .dimensionless ∨ registry.baseUnit? entry.name = some entry := by
  obtain ⟨above, below, draws⟩ := (provides_of_ofTable built).drawn found
  exact draws.entry_known member

/-- Whatever the order and the names of the events of a table, its registry is consistent. -/
theorem isConsistent_of_ofTable {K : Type} [Scalar K] [LawfulScalar K] {table : DefinitionTable K}
    {registry : Registry K} (built : ofTable table = .ok registry) :
    registry.IsConsistent table := by
  have realizes := ((ofTable_meets table).of_ok built).2
  constructor
  · exact keeps_meaning? realizes
  · exact contains_iff_defines realizes
  · exact lists_iff_baseUnit? built
  · intro name first second multiplier other in_first in_second
    obtain ⟨unit, found, first_tag, -⟩ := (lists_iff_baseUnit? built _ _ _).mp in_first
    obtain ⟨same, same_found, second_tag, -⟩ := (lists_iff_baseUnit? built _ _ _).mp in_second
    obtain rfl : unit = same := Option.some.inj (found.symm.trans same_found)
    exact dimensionTag_inj.mp (first_tag.symm.trans second_tag)
  · exact fun found entry member => entry_of_lookup? built found member

/--
A table in which a composition replaces a base unit, a base unit replaces a composition, and one of
another dimension replaces a base unit together with its expansion.
-/
private def rivals : DefinitionTable Rat where
  prefixes := [("kilo-", 1000)]
  dimensions :=
    [⟨dimensionlessName, [(dimensionlessName, .multiplier 1)]⟩,
      ⟨"length", [("meter", .multiplier 1), ("mark", .multiplier 5),
        ("pace", .composed ⟨some ["meter"], none⟩)]⟩,
      ⟨"mass", [("gram", .multiplier 1), ("meter", .composed ⟨some ["gram"], none⟩)]⟩,
      ⟨"money", [("mark", .multiplier 1), ("pace", .multiplier 2)]⟩]

/-- Every name of the rivals means what the last of its definitions says. -/
theorem isConsistent_rivals :
    ∃ registry, ofTable rivals = .ok registry ∧ registry.IsConsistent rivals ∧
      registry.Keeps "meter" (some (.composed "meter" ⟨some ["gram"], none⟩)) ∧
      registry.Keeps "pace" (some (.direct "pace" "money" "mark" 2)) ∧
      registry.Keeps "kilomark" (some (.direct "kilomark" "money" "mark" 1000)) := by
  have computed : (ofTable rivals).isOk = true := by decide +kernel
  have meter_eq : rivals.meaning? "meter" = some (.composed "meter" ⟨some ["gram"], none⟩) := by
    decide +kernel
  have pace_eq : rivals.meaning? "pace" = some (.direct "pace" "money" "mark" 2) := by
    decide +kernel
  have kilomark_eq :
      rivals.meaning? "kilomark" = some (.direct "kilomark" "money" "mark" 1000) := by
    decide +kernel
  cases built : ofTable rivals with
  | error failure =>
      rw [built] at computed
      cases computed
  | ok registry =>
      have consistent := isConsistent_of_ofTable built
      refine ⟨registry, rfl, consistent, ?_, ?_, ?_⟩
      · rw [← meter_eq]
        exact consistent.keeps "meter"
      · rw [← pace_eq]
        exact consistent.keeps "pace"
      · rw [← kilomark_eq]
        exact consistent.keeps "kilomark"

end Registry
end UnitAlgebra
