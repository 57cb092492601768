import UnitAlgebra.Proofs.Catalogue
import UnitAlgebra.Proofs.Outcome
import UnitAlgebra.Proofs.Reduction
import UnitAlgebra.Registry

/-!
# Sources of registered units

A unit is drawn from a catalogue if it is reduced and all its entries are base units that stand in
the catalogue under their names.  Assembly keeps the units of the base units and adds units drawn
from the catalogue, each shown under the name that it is registered under.
-/

namespace UnitAlgebra

variable {K : Type} [Scalar K]

/-! ## Units drawn from a catalogue -/

namespace Catalogue

/-- All entries of a side stand in a catalogue under their names. -/
def Knows (catalogue : Catalogue K) (side : Side K) : Prop :=
  ∀ entry ∈ side, catalogue.baseUnits[entry.name]? = some entry

/-- A reduced unit with given entries, which all stand in a catalogue. -/
structure Draws (catalogue : Catalogue K) (unit : CompoundUnit K) (above below : Side K) :
    Prop where
  /-- The unit is reduced and has the entries. -/
  entries : unit.HasEntries above below
  /-- The entries above the line are known. -/
  knows_above : catalogue.Knows above
  /-- The entries below the line are known. -/
  knows_below : catalogue.Knows below

variable {catalogue : Catalogue K}

theorem Knows.of_subset_append {side left right : Side K} (subset : side ⊆ left ++ right)
    (knows_left : catalogue.Knows left) (knows_right : catalogue.Knows right) :
    catalogue.Knows side := by
  intro entry member
  rcases List.mem_append.mp (subset member) with left_member | right_member
  · exact knows_left entry left_member
  · exact knows_right entry right_member

theorem draws_dimensionless (catalogue : Catalogue K) :
    catalogue.Draws (.ofSides [] [] .dimensionless) [] [] :=
  ⟨.dimensionless, by simp [Knows], by simp [Knows]⟩

theorem draws_singleton {name : String} {entry : BaseUnit K} (proper : catalogue.IsProper)
    (found : catalogue.baseUnits[name]? = some entry) :
    ∃ above below, catalogue.Draws (.ofSides [entry] [] .dimensionless) above below := by
  cases dimension_eq : entry.isDimensionless with
  | true =>
      exact ⟨[], [], .singleton_of_isDimensionless dimension_eq, by simp [Knows], by simp [Knows]⟩
  | false =>
      refine ⟨[entry], [], .singleton dimension_eq, ?_, by simp [Knows]⟩
      intro other member
      obtain rfl := List.mem_singleton.mp member
      rw [proper.name_eq found]
      exact found

theorem Draws.combine [LawfulScalar K] {left right : CompoundUnit K}
    {left_above left_below right_above right_below : Side K}
    (left_draws : catalogue.Draws left left_above left_below)
    (right_draws : catalogue.Draws right right_above right_below) (operator : Operator) :
    ∃ above below, catalogue.Draws (left.combine operator right).1 above below := by
  cases operator
  · obtain ⟨above, below, entries, above_drawn, below_drawn⟩ :=
      left_draws.entries.productWithFactor right_draws.entries
    exact ⟨above, below, entries,
      .of_subset_append above_drawn.subset left_draws.knows_above right_draws.knows_above,
      .of_subset_append below_drawn.subset left_draws.knows_below right_draws.knows_below⟩
  · obtain ⟨above, below, entries, above_drawn, below_drawn⟩ :=
      left_draws.entries.quotientWithFactor right_draws.entries
    exact ⟨above, below, entries,
      .of_subset_append above_drawn.subset left_draws.knows_above right_draws.knows_below,
      .of_subset_append below_drawn.subset left_draws.knows_below right_draws.knows_above⟩

theorem Draws.withLabel {unit : CompoundUnit K} {above below : Side K}
    (draws : catalogue.Draws unit above below) (name : String) :
    catalogue.Draws (unit.withLabel name) above below :=
  ⟨draws.entries.withLabel name, draws.knows_above, draws.knows_below⟩

theorem Draws.entry_known {unit : CompoundUnit K} {above below : Side K}
    (draws : catalogue.Draws unit above below) {entry : BaseUnit K}
    (member : entry ∈ unit.numerator ++ unit.denominator) :
    entry = .dimensionless ∨ catalogue.baseUnits[entry.name]? = some entry := by
  rw [draws.entries.numerator_eq, draws.entries.denominator_eq] at member
  rcases List.mem_append.mp member with in_numerator | in_denominator
  · exact (Side.mem_of_mem_fill in_numerator).symm.imp_right (draws.knows_above entry)
  · exact (Side.mem_of_mem_fill in_denominator).symm.imp_right (draws.knows_below entry)

/-! ## Assembled units -/

/-- Units by name that a catalogue accounts for. -/
structure Provides (catalogue : Catalogue K) (units : Std.TreeMap String (CompoundUnit K)) :
    Prop where
  /-- The name of a base unit stands for the unit of that base unit. -/
  direct : ∀ {name : String} {entry : BaseUnit K}, catalogue.baseUnits[name]? = some entry →
    units[name]? = some (.ofSides [entry] [] .dimensionless)
  /-- Every name is defined in the catalogue. -/
  defined : ∀ {name : String} {unit : CompoundUnit K}, units[name]? = some unit →
    catalogue.defines name = true
  /-- Every unit is drawn from the catalogue. -/
  drawn : ∀ {name : String} {unit : CompoundUnit K}, units[name]? = some unit →
    ∃ above below, catalogue.Draws unit above below
  /-- A unit with a label is registered under it. -/
  label_eq : ∀ {name label : String} {unit : CompoundUnit K}, units[name]? = some unit →
    unit.label = some label → label = name

theorem getElem?_directUnits (catalogue : Catalogue K) (name : String) :
    catalogue.directUnits[name]? =
      (catalogue.baseUnits[name]?).map fun entry => .ofSides [entry] [] .dimensionless :=
  Std.TreeMap.getElem?_map

theorem provides_directUnits (proper : catalogue.IsProper) :
    catalogue.Provides catalogue.directUnits := by
  constructor
  · intro name entry found
    rw [getElem?_directUnits, found]
    rfl
  · intro name unit found
    rw [getElem?_directUnits] at found
    obtain ⟨entry, entry_found, -⟩ := Option.map_eq_some_iff.mp found
    rw [defines, ← Std.TreeMap.isSome_getElem?_eq_contains, entry_found]
    rfl
  · intro name unit found
    rw [getElem?_directUnits] at found
    obtain ⟨entry, entry_found, rfl⟩ := Option.map_eq_some_iff.mp found
    exact draws_singleton proper entry_found
  · intro name label unit found labelled
    rw [getElem?_directUnits] at found
    obtain ⟨entry, -, rfl⟩ := Option.map_eq_some_iff.mp found
    cases labelled

theorem Provides.insert {units : Std.TreeMap String (CompoundUnit K)}
    (provides : catalogue.Provides units) (proper : catalogue.IsProper) {name : String}
    {composition : Composition} (composed : catalogue.compositions[name]? = some composition)
    {unit : CompoundUnit K} {above below : Side K} (draws : catalogue.Draws unit above below) :
    catalogue.Provides (units.insert name (unit.withLabel name)) := by
  constructor
  · intro other entry found
    have different : name ≠ other := by
      rintro rfl
      rw [proper.not_composed found] at composed
      cases composed
    rw [Std.TreeMap.getElem?_insert]
    simpa [different] using provides.direct found
  · intro other stored found
    rw [Std.TreeMap.getElem?_insert] at found
    split at found
    · rename_i same
      rw [← Std.LawfulEqCmp.eq_of_compare same, defines, Bool.or_eq_true,
        ← Std.TreeMap.isSome_getElem?_eq_contains, ← Std.TreeMap.isSome_getElem?_eq_contains,
        composed]
      exact .inr rfl
    · exact provides.defined found
  · intro other stored found
    rw [Std.TreeMap.getElem?_insert] at found
    split at found
    · obtain rfl := Option.some.inj found
      exact ⟨above, below, draws.withLabel name⟩
    · exact provides.drawn found
  · intro other label stored found labelled
    rw [Std.TreeMap.getElem?_insert] at found
    split at found
    · rename_i same
      obtain rfl := Option.some.inj found
      rw [← Std.LawfulEqCmp.eq_of_compare same]
      exact (Option.some.inj labelled).symm
    · exact provides.label_eq found labelled

end Catalogue

/-- A unit and the units that are known with it, all drawn from a catalogue. -/
structure Catalogue.Yields (catalogue : Catalogue K)
    (known : CompoundUnit K × Std.TreeMap String (CompoundUnit K)) : Prop where
  /-- The unit is drawn from the catalogue. -/
  drawn : ∃ above below, catalogue.Draws known.1 above below
  /-- The catalogue accounts for the known units. -/
  provides : catalogue.Provides known.2

namespace Assembly

variable {catalogue : Catalogue K}

theorem yields_start {units : Std.TreeMap String (CompoundUnit K)}
    (provides : catalogue.Provides units) :
    catalogue.Yields ((start units).unit, (start units).units) :=
  ⟨⟨[], [], catalogue.draws_dimensionless⟩, provides⟩

theorem yields_join [LawfulScalar K] {assembly : Assembly K}
    {part : CompoundUnit K × Std.TreeMap String (CompoundUnit K)}
    (yields : catalogue.Yields (assembly.unit, assembly.units))
    (part_yields : catalogue.Yields part) (operator : Operator) :
    catalogue.Yields ((assembly.join operator part).unit, (assembly.join operator part).units) := by
  obtain ⟨above, below, draws⟩ := yields.drawn
  obtain ⟨part_above, part_below, part_draws⟩ := part_yields.drawn
  exact ⟨draws.combine part_draws operator, part_yields.provides⟩

theorem yields_finish {assembly : Assembly K} {name : String} {composition : Composition}
    {known : CompoundUnit K × Std.TreeMap String (CompoundUnit K)}
    (yields : catalogue.Yields (assembly.unit, assembly.units)) (proper : catalogue.IsProper)
    (composed : catalogue.compositions[name]? = some composition)
    (finished : assembly.finish name = .ok known) : catalogue.Yields known := by
  obtain ⟨above, below, draws⟩ := yields.drawn
  rw [finish] at finished
  split at finished
  · obtain rfl := Except.ok.inj finished
    exact ⟨⟨above, below, draws.withLabel name⟩, yields.provides.insert proper composed draws⟩
  · cases finished

end Assembly

/-- The parts of a composition put together. -/
def Composition.assembleParts (composition : Composition)
    (pending : Std.TreeMap String Composition) (path : List String)
    (units : Std.TreeMap String (CompoundUnit K)) : Except UnitError (Assembly K) :=
  composition.parts.foldlM (fun assembly (operator, part) => do
    let known ← assemble pending path part assembly.units
    return assembly.join operator known) (Assembly.start units)

section

variable {pending : Std.TreeMap String Composition} {path : List String} {name : String}
  {units : Std.TreeMap String (CompoundUnit K)}

theorem assemble_of_unplanned (missing : units[name]? = none) (unplanned : pending[name]? = none) :
    assemble pending path name units =
      if path.contains name then .error (.invalidDefinition (.circular name path))
      else .error (.unknownUnit name) := by
  rw [assemble, missing]
  dsimp only
  split
  · rfl
  · rename_i composition planned
    rw [unplanned] at planned
    cases planned

theorem assemble_of_planned {composition : Composition} (missing : units[name]? = none)
    (planned : pending[name]? = some composition) :
    assemble pending path name units =
      (composition.assembleParts (pending.erase name) (path ++ [name]) units >>=
        fun assembly => assembly.finish name) := by
  rw [assemble, missing]
  dsimp only
  split
  · rename_i unplanned
    rw [unplanned] at planned
    cases planned
  · rename_i other found
    rw [planned] at found
    obtain rfl := Option.some.inj found
    rfl

/-- A unit that is not known is assembled from a pending composition. -/
theorem assemble_eq_ok {known : CompoundUnit K × Std.TreeMap String (CompoundUnit K)}
    (missing : units[name]? = none) (assembled : assemble pending path name units = .ok known) :
    ∃ composition assembly, pending[name]? = some composition ∧
      composition.assembleParts (pending.erase name) (path ++ [name]) units = .ok assembly ∧
      assembly.finish name = .ok known := by
  cases planned : pending[name]? with
  | none =>
      rw [assemble_of_unplanned missing planned] at assembled
      split at assembled <;> cases assembled
  | some composition =>
      rw [assemble_of_planned missing planned] at assembled
      obtain ⟨assembly, parts_assembled, finished⟩ := Outcome.exists_of_bind_eq_ok assembled
      exact ⟨composition, assembly, rfl, parts_assembled, finished⟩

end

theorem yields_assemble [LawfulScalar K] {catalogue : Catalogue K} (proper : catalogue.IsProper)
    (pending : Std.TreeMap String Composition) (path : List String) (name : String)
    (units : Std.TreeMap String (CompoundUnit K))
    (registered : ∀ {name : String} {composition : Composition},
      pending[name]? = some composition → catalogue.compositions[name]? = some composition)
    (provides : catalogue.Provides units)
    {known : CompoundUnit K × Std.TreeMap String (CompoundUnit K)}
    (assembled : assemble pending path name units = .ok known) : catalogue.Yields known := by
  induction pending, path, name, units using assemble.induct generalizing known with
  | case1 pending path name units unit found =>
      rw [assemble, found] at assembled
      obtain rfl := Except.ok.inj assembled
      exact ⟨provides.drawn found, provides⟩
  | case2 pending path name units missing unplanned circular =>
      obtain ⟨composition, assembly, found, -, -⟩ := assemble_eq_ok missing assembled
      rw [unplanned] at found
      cases found
  | case3 pending path name units missing unplanned unknown =>
      obtain ⟨composition, assembly, found, -, -⟩ := assemble_eq_ok missing assembled
      rw [unplanned] at found
      cases found
  | case4 pending path name units missing composition planned induction =>
      obtain ⟨same, assembly, found, parts_assembled, finished⟩ := assemble_eq_ok missing assembled
      refine Assembly.yields_finish ?_ proper (registered planned) finished
      have still_registered : ∀ {other : String} {composition : Composition},
          (pending.erase name)[other]? = some composition →
            catalogue.compositions[other]? = some composition := by
        intro other composition found
        rw [Std.TreeMap.getElem?_erase] at found
        split at found
        · cases found
        · exact registered found
      refine Outcome.foldlM_preserves
        (fun assembly => catalogue.Yields (assembly.unit, assembly.units)) ?_
        (Assembly.yields_start provides) parts_assembled
      rintro ⟨operator, part⟩ - before after yields joined
      obtain ⟨part_known, part_assembled, after_eq⟩ := Outcome.exists_of_bind_eq_ok joined
      obtain rfl := Except.ok.inj after_eq
      have part_yields := induction before part still_registered yields.provides part_assembled
      exact Assembly.yields_join yields part_yields operator

/-! ## Registries -/

theorem Catalogue.provides_units [LawfulScalar K] {catalogue : Catalogue K}
    {units : Std.TreeMap String (CompoundUnit K)} (proper : catalogue.IsProper)
    (given : catalogue.units = .ok units) : catalogue.Provides units := by
  refine Outcome.foldlM_preserves catalogue.Provides ?_ (provides_directUnits proper) given
  intro name _ before after provides assembled
  obtain ⟨known, known_assembled, after_eq⟩ := Outcome.exists_of_bind_eq_ok assembled
  obtain rfl := Except.ok.inj after_eq
  exact (yields_assemble proper _ _ name before id provides known_assembled).provides

/-- The registry of a table holds the units of the catalogue of its registrations. -/
theorem Registry.exists_of_ofTable {table : DefinitionTable K} {registry : Registry K}
    (built : ofTable table = .ok registry) :
    ∃ registrations, table.registrations = .ok registrations ∧
      registry.toCatalogue = .ofRegistrations registrations ∧
      registry.toCatalogue.units = .ok registry.units := by
  obtain ⟨registrations, registered, rest_built⟩ := Outcome.exists_of_bind_eq_ok built
  obtain ⟨units, given, registry_eq⟩ := Outcome.exists_of_bind_eq_ok rest_built
  obtain rfl := Except.ok.inj registry_eq
  exact ⟨registrations, registered, rfl, given⟩

theorem Registry.provides_of_ofTable [LawfulScalar K] {table : DefinitionTable K}
    {registry : Registry K} (built : ofTable table = .ok registry) :
    registry.toCatalogue.Provides registry.units := by
  obtain ⟨registrations, -, catalogue_eq, given⟩ := exists_of_ofTable built
  refine Catalogue.provides_units ?_ given
  rw [catalogue_eq]
  exact Catalogue.ofRegistrations_isProper registrations

end UnitAlgebra
