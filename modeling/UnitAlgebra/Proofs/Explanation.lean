import UnitAlgebra.Proofs.Assembly
import UnitAlgebra.Proofs.Denotation

/-!
# Explained units

While the compositions of a table are put together, every unit that is known already is the one that
its name denotes.  So assembly ends with the units of all names, or it stops at a fault that the
table really has: an undefined name, a name that refers to itself, or a product with a factor.
-/

namespace UnitAlgebra

variable {K : Type} [Scalar K]

open Outcome (Meets)

/-- Units that are known under names, each of them denoted by its name. -/
structure DefinitionTable.Explains (table : DefinitionTable K)
    (units : Std.TreeMap String (CompoundUnit K)) : Prop where
  /-- The units of the base units are known. -/
  direct : ∀ {name : String} {unit : BaseUnit K}, table.baseUnit? name = some unit →
    units[name]? = some (.ofSides [unit] [] .dimensionless)
  /-- Every known unit is denoted by its name. -/
  denotes : ∀ {name : String} {unit : CompoundUnit K}, units[name]? = some unit →
    table.Denotes name unit
  /-- No known unit has incurred a factor. -/
  lossless : ∀ {name : String} {unit : CompoundUnit K} {composition : Composition}
    {unitOf : String → CompoundUnit K}, units[name]? = some unit →
      table.composition? name = some composition →
        (∀ part ∈ composition.parts, table.Denotes part.2 (unitOf part.2)) →
          ((composition.product unitOf).2 == 1) = true

/-- The units of the base units and of the names in a list, assembled in the order of the list. -/
def Catalogue.unitsIn (catalogue : Catalogue K) (order : List String) :
    Except UnitError (Std.TreeMap String (CompoundUnit K)) :=
  order.foldlM
    (fun units name => do return (← assemble catalogue.compositions [] name units).2)
    catalogue.directUnits

/-- The composed names of a catalogue are assembled in the order of its keys. -/
theorem Catalogue.units_eq_unitsIn (catalogue : Catalogue K) :
    catalogue.units = catalogue.unitsIn catalogue.compositions.keys := rfl

/-- Every unit that is known in one map is known in another. -/
def Extends (units later : Std.TreeMap String (CompoundUnit K)) : Prop :=
  ∀ {name : String} {unit : CompoundUnit K}, units[name]? = some unit → later[name]? = some unit

/-- The unit that is known under a name. -/
def unitIn (units : Std.TreeMap String (CompoundUnit K)) (name : String) : CompoundUnit K :=
  (units[name]?).getD (.ofSides [] [] .dimensionless)

theorem unitIn_eq {units : Std.TreeMap String (CompoundUnit K)} {name : String}
    {unit : CompoundUnit K} (found : units[name]? = some unit) : unitIn units name = unit := by
  rw [unitIn, found, Option.getD_some]

namespace DefinitionTable

variable {table : DefinitionTable K} {units : Std.TreeMap String (CompoundUnit K)} {name : String}
  {composition : Composition}

theorem Explains.denotes_unitIn (explains : table.Explains units) {unit : CompoundUnit K}
    (found : units[name]? = some unit) : table.Denotes name (unitIn units name) := by
  rw [unitIn_eq found]
  exact explains.denotes found

theorem Explains.insert (explains : table.Explains units)
    (composed : table.composition? name = some composition)
    (parts : ∀ part ∈ composition.parts, table.Denotes part.2 (unitIn units part.2))
    (no_factor : ((composition.product (unitIn units)).2 == 1) = true) :
    table.Explains
      (units.insert name ((composition.product (unitIn units)).1.withLabel name)) := by
  constructor
  · intro other unit found
    have different : name ≠ other := by
      rintro rfl
      rw [composition?_of_baseUnit? found] at composed
      cases composed
    rw [Std.TreeMap.getElem?_insert]
    simpa [different] using explains.direct found
  · intro other unit found
    rw [Std.TreeMap.getElem?_insert] at found
    split at found
    · rename_i same
      obtain rfl := Option.some.inj found
      rw [← Std.LawfulEqCmp.eq_of_compare same]
      exact .composed composed parts
    · exact explains.denotes found
  · intro other unit other_composition unitOf found other_composed other_parts
    rw [Std.TreeMap.getElem?_insert] at found
    split at found
    · rename_i same
      rw [← Std.LawfulEqCmp.eq_of_compare same, composed] at other_composed
      obtain rfl := Option.some.inj other_composed
      have same_units := Composition.productOf_congr fun part member =>
        (other_parts part member).unique (parts part member)
      rw [Composition.product, same_units]
      exact no_factor
    · exact explains.lossless found other_composed other_parts

/-- A known name keeps its unit when it is assembled again. -/
theorem Explains.extends_insert (explains : table.Explains units) {unit : CompoundUnit K}
    (denotes : table.Denotes name unit) : Extends units (units.insert name unit) := by
  intro other known found
  rw [Std.TreeMap.getElem?_insert]
  split
  · rename_i same
    rw [Std.LawfulEqCmp.eq_of_compare same] at denotes
    rw [denotes.unique (explains.denotes found)]
  · exact found

end DefinitionTable

/-! ## Joining parts -/

/-- An assembly that has joined some parts of a composition. -/
structure Assembly.HasJoined (table : DefinitionTable K)
    (units : Std.TreeMap String (CompoundUnit K)) (done : List (Operator × String))
    (assembly : Assembly K) : Prop where
  /-- All known units are explained. -/
  explains : table.Explains assembly.units
  /-- No unit has been lost. -/
  extends_units : Extends units assembly.units
  /-- The units of the joined parts are known. -/
  known : ∀ part ∈ done, ∃ unit, assembly.units[part.2]? = some unit
  /-- The parts have been joined to their product. -/
  product_eq : Composition.productOf (unitIn assembly.units) done = (assembly.unit, assembly.factor)

namespace Assembly

variable {table : DefinitionTable K} {units : Std.TreeMap String (CompoundUnit K)}
  {done : List (Operator × String)} {assembly : Assembly K}

theorem hasJoined_start (explains : table.Explains units) :
    (start units).HasJoined table units [] where
  explains := explains
  extends_units := id
  known := by simp
  product_eq := rfl

theorem HasJoined.join (joined : assembly.HasJoined table units done) {operator : Operator}
    {part : String} {known : CompoundUnit K × Std.TreeMap String (CompoundUnit K)}
    (explains : table.Explains known.2) (found : known.2[part]? = some known.1)
    (extends_known : Extends assembly.units known.2) :
    (assembly.join operator known).HasJoined table units (done ++ [(operator, part)]) where
  explains := explains
  extends_units := fun found_before => extends_known (joined.extends_units found_before)
  known := by
    intro other member
    rcases List.mem_append.mp member with before | last
    · obtain ⟨unit, unit_found⟩ := joined.known other before
      exact ⟨unit, extends_known unit_found⟩
    · obtain rfl := List.mem_singleton.mp last
      exact ⟨known.1, found⟩
  product_eq := by
    have same_units : ∀ other ∈ done, unitIn known.2 other.2 = unitIn assembly.units other.2 := by
      intro other before
      obtain ⟨unit, unit_found⟩ := joined.known other before
      rw [unitIn_eq unit_found, unitIn_eq (extends_known unit_found)]
    change Composition.productOf (unitIn known.2) (done ++ [(operator, part)]) = _
    rw [Composition.productOf_append_singleton, Composition.productOf_congr same_units,
      joined.product_eq, Composition.joinPart, unitIn_eq found]
    rfl

/-- A composition whose parts have been joined is finished, or its factor is a fault. -/
theorem HasJoined.finish_meets {name : String} {composition : Composition}
    (joined : assembly.HasJoined table units composition.parts)
    (composed : table.composition? name = some composition) :
    Meets table.ResolutionFault
      (fun known => table.Explains known.2 ∧ known.2[name]? = some known.1 ∧ Extends units known.2)
      (assembly.finish name) := by
  have parts : ∀ part ∈ composition.parts,
      table.Denotes part.2 (unitIn assembly.units part.2) := by
    intro part member
    obtain ⟨unit, found⟩ := joined.known part member
    exact joined.explains.denotes_unitIn found
  have product_eq : composition.product (unitIn assembly.units) =
      (assembly.unit, assembly.factor) := joined.product_eq
  rw [finish]
  split
  · rename_i no_factor
    have explains := joined.explains.insert composed parts (by rw [product_eq]; exact no_factor)
    have denotes := DefinitionTable.Denotes.composed composed parts
    rw [product_eq] at explains denotes
    refine .ok ⟨explains, Std.TreeMap.getElem?_insert_self, fun found => ?_⟩
    exact joined.explains.extends_insert denotes (joined.extends_units found)
  · rename_i factor
    have fault := DefinitionTable.ResolutionFault.lossy composed parts
      (by rw [product_eq]; simpa using factor)
    rw [product_eq] at fault
    exact .error fault

end Assembly

/-! ## Assembling a name -/

/-- What holds whenever the unit of a name is asked for. -/
structure DefinitionTable.Awaits (table : DefinitionTable K)
    (pending : Std.TreeMap String Composition) (path : List String) (name : String) : Prop where
  /-- The compositions of the names on the path are the only ones that are not pending. -/
  pending_eq (other : String) :
    pending[other]? = if other ∈ path then none else table.composition? other
  /-- Every name on the path refers to the name. -/
  reaches : ∀ other ∈ path, Relation.TransGen table.Refers other name
  /-- The name is composed, or it is referred to. -/
  asked : (∃ composition, table.composition? name = some composition) ∨
    ∃ other, table.Refers other name

namespace DefinitionTable

variable {table : DefinitionTable K} {pending : Std.TreeMap String Composition}
  {path : List String} {name : String}

theorem Awaits.part (awaits : table.Awaits pending path name) {composition : Composition}
    (planned : pending[name]? = some composition) {part : Operator × String}
    (member : part ∈ composition.parts) :
    table.Awaits (pending.erase name) (path ++ [name]) part.2 := by
  have refers : table.Refers name part.2 := by
    rw [awaits.pending_eq] at planned
    split at planned
    · cases planned
    · exact ⟨composition, planned, part.1, member⟩
  constructor
  · intro other
    rw [Std.TreeMap.getElem?_erase, awaits.pending_eq]
    by_cases same : name = other
    · simp [same]
    · have other_name : ¬other = name := fun equal => same equal.symm
      simp [same, other_name]
  · intro other on_path
    rcases List.mem_append.mp on_path with before | last
    · exact (awaits.reaches other before).tail refers
    · obtain rfl := List.mem_singleton.mp last
      exact .single refers
  · exact .inr ⟨name, refers⟩

theorem Awaits.unplanned_meets {catalogue : Catalogue K} (follows : catalogue.Follows table)
    {units : Std.TreeMap String (CompoundUnit K)} (awaits : table.Awaits pending path name)
    (explains : table.Explains units) (missing : units[name]? = none)
    (unplanned : pending[name]? = none) :
    Meets table.ResolutionFault
      (fun known => table.Explains known.2 ∧ known.2[name]? = some known.1 ∧ Extends units known.2)
      (assemble pending path name units) := by
  rw [assemble_of_unplanned missing unplanned]
  split
  · rename_i on_path
    exact .error (.circular (awaits.reaches name (by simpa using on_path)))
  · rename_i off_path
    have not_composed : table.composition? name = none := by
      rw [awaits.pending_eq, if_neg (by simpa using off_path)] at unplanned
      exact unplanned
    have not_direct : table.baseUnit? name = none := by
      rw [Option.eq_none_iff_forall_ne_some]
      intro unit direct
      rw [explains.direct direct] at missing
      cases missing
    have undefined : ¬table.Defines name := by
      intro defined
      rcases follows.baseUnit_or_composition defined with ⟨unit, direct⟩ | ⟨composition, composed⟩
      · rw [not_direct] at direct
        cases direct
      · rw [not_composed] at composed
        cases composed
    rcases awaits.asked with ⟨composition, composed⟩ | ⟨other, refers⟩
    · rw [not_composed] at composed
      cases composed
    · exact .error (.unknown refers undefined)

/-- Assembling a name makes its unit known, or fails for a fault of the table. -/
theorem assemble_meets {catalogue : Catalogue K} (follows : catalogue.Follows table)
    (pending : Std.TreeMap String Composition) (path : List String) (name : String)
    (units : Std.TreeMap String (CompoundUnit K)) (awaits : table.Awaits pending path name)
    (explains : table.Explains units) :
    Meets table.ResolutionFault
      (fun known => table.Explains known.2 ∧ known.2[name]? = some known.1 ∧ Extends units known.2)
      (assemble pending path name units) := by
  induction pending, path, name, units using assemble.induct with
  | case1 pending path name units unit found =>
      rw [assemble, found]
      exact .ok ⟨explains, found, id⟩
  | case2 pending path name units missing unplanned circular =>
      exact awaits.unplanned_meets follows explains missing unplanned
  | case3 pending path name units missing unplanned unknown =>
      exact awaits.unplanned_meets follows explains missing unplanned
  | case4 pending path name units missing composition planned induction =>
      have composed : table.composition? name = some composition := by
        rw [awaits.pending_eq] at planned
        split at planned
        · cases planned
        · exact planned
      rw [assemble_of_planned missing planned]
      have parts_meet : Meets table.ResolutionFault
          (Assembly.HasJoined table units composition.parts)
          (composition.assembleParts (pending.erase name) (path ++ [name]) units) := by
        refine .foldlM (Assembly.HasJoined table units) (Assembly.hasJoined_start explains) ?_
        rintro done ⟨operator, part⟩ assembly member joined
        refine (induction assembly part (awaits.part planned member) joined.explains).bind ?_
        rintro known ⟨known_explains, found, extends_known⟩
        exact .ok (joined.join known_explains found extends_known)
      exact parts_meet.bind fun assembly joined => joined.finish_meets composed

/-! ## All names -/

theorem explains_directUnits {catalogue : Catalogue K} (follows : catalogue.Follows table) :
    table.Explains catalogue.directUnits := by
  have found_iff {name : String} {unit : CompoundUnit K} :
      catalogue.directUnits[name]? = some unit ↔
        ∃ entry, table.baseUnit? name = some entry ∧ .ofSides [entry] [] .dimensionless = unit := by
    rw [Catalogue.getElem?_directUnits, follows.baseUnits_eq, Option.map_eq_some_iff]
  constructor
  · intro name unit direct
    exact found_iff.mpr ⟨unit, direct, rfl⟩
  · intro name unit found
    obtain ⟨entry, direct, rfl⟩ := found_iff.mp found
    exact .direct direct
  · intro name unit composition unitOf found composed
    obtain ⟨entry, direct, -⟩ := found_iff.mp found
    rw [composition?_of_baseUnit? direct] at composed
    cases composed

/--
Assembling the composed names in any order explains every name of the table, or fails for a fault of
it.
-/
theorem unitsIn_meets {catalogue : Catalogue K} (follows : catalogue.Follows table)
    {order : List String}
    (composed_iff : ∀ {name}, name ∈ order ↔
      ∃ composition, table.composition? name = some composition) :
    Meets table.ResolutionFault
      (fun units => table.Explains units ∧
        ∀ {name}, table.Defines name → ∃ unit, units[name]? = some unit)
      (catalogue.unitsIn order) := by
  have all_meet : Meets table.ResolutionFault
      (fun units => table.Explains units ∧ ∀ name ∈ order, ∃ unit, units[name]? = some unit)
      (catalogue.unitsIn order) := by
    refine .foldlM (fun done units => table.Explains units ∧
      ∀ name ∈ done, ∃ unit, units[name]? = some unit) ⟨explains_directUnits follows, by simp⟩ ?_
    rintro done name units member ⟨explains, done_known⟩
    have awaits : table.Awaits catalogue.compositions [] name := by
      refine ⟨fun other => ?_, by simp, .inl (composed_iff.mp member)⟩
      rw [follows.compositions_eq]
      simp
    refine (assemble_meets follows _ [] name units awaits explains).bind ?_
    rintro known ⟨known_explains, found, extends_known⟩
    refine .ok ⟨known_explains, fun other other_done => ?_⟩
    rcases List.mem_append.mp other_done with before | last
    · obtain ⟨unit, unit_found⟩ := done_known other before
      exact ⟨unit, extends_known unit_found⟩
    · obtain rfl := List.mem_singleton.mp last
      exact ⟨known.1, found⟩
  refine all_meet.imp id ?_
  rintro units ⟨explains, composed_known⟩
  refine ⟨explains, fun {name} defined => ?_⟩
  rcases follows.baseUnit_or_composition defined with ⟨unit, direct⟩ | composed
  · exact ⟨_, explains.direct direct⟩
  · exact composed_known name (composed_iff.mpr composed)

theorem units_meets {catalogue : Catalogue K} (follows : catalogue.Follows table) :
    Meets table.ResolutionFault
      (fun units => table.Explains units ∧
        ∀ {name}, table.Defines name → ∃ unit, units[name]? = some unit)
      catalogue.units := by
  rw [catalogue.units_eq_unitsIn]
  exact unitsIn_meets follows follows.mem_keys_compositions

theorem Explains.getElem?_eq {units other : Std.TreeMap String (CompoundUnit K)}
    (explains : table.Explains units)
    (complete : ∀ {name}, table.Defines name → ∃ unit, units[name]? = some unit)
    (other_explains : table.Explains other)
    (other_complete : ∀ {name}, table.Defines name → ∃ unit, other[name]? = some unit)
    (name : String) : units[name]? = other[name]? := by
  by_cases defined : table.Defines name
  · obtain ⟨unit, found⟩ := complete defined
    obtain ⟨other_unit, other_found⟩ := other_complete defined
    rw [found, other_found,
      (explains.denotes found).unique (other_explains.denotes other_found)]
  · have unknown {known : Std.TreeMap String (CompoundUnit K)}
        (known_explains : table.Explains known) : known[name]? = none := by
      rw [Option.eq_none_iff_forall_ne_some]
      exact fun unit found => defined (known_explains.denotes found).defines
    rw [unknown explains, unknown other_explains]

theorem Explains.isResolvable {units : Std.TreeMap String (CompoundUnit K)}
    (explains : table.Explains units)
    (complete : ∀ {name}, table.Defines name → ∃ unit, units[name]? = some unit) :
    table.IsResolvable := by
  have known_of_composed {name : String} {composition : Composition}
      (composed : table.composition? name = some composition) : ∃ unit, units[name]? = some unit :=
    complete (defines_of_composition? composed)
  constructor
  · intro name part refers
    have ⟨composition, composed, _⟩ := refers
    obtain ⟨unit, found⟩ := known_of_composed composed
    obtain ⟨part_unit, denotes⟩ := (explains.denotes found).exists_part refers
    exact denotes.defines
  · intro name cycle
    obtain ⟨part, ⟨composition, composed, -⟩, -⟩ := Relation.TransGen.head'_iff.mp cycle
    obtain ⟨unit, found⟩ := known_of_composed composed
    exact (explains.denotes found).acyclic cycle
  · intro name composition unitOf composed parts
    obtain ⟨unit, found⟩ := known_of_composed composed
    exact explains.lossless found composed parts

end DefinitionTable
end UnitAlgebra
