import Mathlib.Algebra.BigOperators.Group.List.Basic
import Mathlib.Algebra.Order.Field.Rat
import UnitAlgebra.Proofs.PhysicalValue
import UnitAlgebra.Proofs.WellFormed

/-!
# Composed units

The unit of a composed name is the product of the registered units of its parts, whatever those are
composed of in turn and in whatever order the names are assembled.  A product that incurs a factor
is refused, so over the rationals a composed unit has the size that its parts prescribe.
-/

namespace UnitAlgebra

/-! ## Products of parts -/

namespace Composition

theorem productOf_fst {K : Type} [Scalar K] (unitOf : String → CompoundUnit K)
    (parts : List (Operator × String)) :
    (productOf unitOf parts).1 =
      parts.foldl (fun unit part => (unit.combine part.1 (unitOf part.2)).1)
        (.ofSides [] [] .dimensionless) := by
  induction parts using List.reverseRecOn with
  | nil => rfl
  | append_singleton front part induction =>
      rw [productOf_append_singleton, List.foldl_append, ← induction]
      rfl

theorem product_fst {K : Type} [Scalar K] (composition : Composition)
    (unitOf : String → CompoundUnit K) :
    (composition.product unitOf).1 =
      (composition.below.map unitOf).foldl CompoundUnit.divide
        ((composition.above.map unitOf).foldl CompoundUnit.multiply
          (.ofSides [] [] .dimensionless)) := by
  rw [product, productOf_fst, parts, List.foldl_append, List.foldl_map, List.foldl_map,
    List.foldl_map, List.foldl_map]
  rfl

theorem isStandard_productOf {K : Type} [Scalar K] {unitOf : String → CompoundUnit K}
    {parts : List (Operator × String)} (standard : ∀ part ∈ parts, (unitOf part.2).IsStandard) :
    (productOf unitOf parts).1.IsStandard := by
  induction parts using List.reverseRecOn with
  | nil => exact CompoundUnit.ofSides_isStandard [] []
  | append_singleton front part induction =>
      rw [productOf_append_singleton]
      rw [List.forall_mem_append, List.forall_mem_singleton] at standard
      exact (induction standard.1).combine standard.2 part.1

/-- The factor and the size of a product make up what its operators make of the sizes. -/
theorem productOf_size {unitOf : String → CompoundUnit Rat} {parts : List (Operator × String)}
    (standard : ∀ part ∈ parts, (unitOf part.2).IsStandard) :
    (productOf unitOf parts).2 * (productOf unitOf parts).1.size =
      parts.foldl (fun size part => part.1.operation.apply size (unitOf part.2).size) 1 := by
  induction parts using List.reverseRecOn with
  | nil =>
      have empty_standard := CompoundUnit.ofSides_isStandard ([] : Side Rat) []
      change 1 * (CompoundUnit.ofSides [] [] .dimensionless).size = 1
      rw [empty_standard.size_eq_one (by decide), one_mul]
  | append_singleton front part induction =>
      rw [List.forall_mem_append, List.forall_mem_singleton] at standard
      have joined := (isStandard_productOf standard.1).size_combine standard.2 part.1
      rw [List.foldl_append, ← induction standard.1, productOf_append_singleton, joinPart,
        mul_assoc, joined, List.foldl_cons, List.foldl_nil]
      obtain ⟨operator, part⟩ := part
      cases operator
      · exact (mul_assoc (productOf unitOf front).2 _ _).symm
      · exact (mul_div_assoc (productOf unitOf front).2 _ _).symm

/-- A product without a factor has the size of the parts above the line over those below. -/
theorem size_product {composition : Composition} {unitOf : String → CompoundUnit Rat}
    (standard : ∀ part ∈ composition.parts, (unitOf part.2).IsStandard)
    (no_factor : (composition.product unitOf).2 = 1) :
    (composition.product unitOf).1.size =
      ((composition.above.map unitOf).map CompoundUnit.size).prod /
        ((composition.below.map unitOf).map CompoundUnit.size).prod := by
  have size_eq := productOf_size standard
  change (composition.product unitOf).2 * (composition.product unitOf).1.size = _ at size_eq
  rw [no_factor, one_mul, parts, List.foldl_append, List.foldl_map, List.foldl_map] at size_eq
  rw [size_eq, List.prod_eq_foldl, ← CompoundUnit.foldl_div, List.map_map, List.map_map,
    List.foldl_map, List.foldl_map]
  rfl

end Composition

/-! ## Registered units -/

/--
The unit that is registered under a composed name is the product of the units that are registered
under the names above its line, from left to right, divided by those below, and shows its own name.
-/
structure Registry.Composes {K : Type} [Scalar K] (registry : Registry K) (name : String)
    (composition : Composition) (above below : List (CompoundUnit K)) (unit : CompoundUnit K) :
    Prop where
  /-- The composition is that of the name. -/
  composed : registry.composition? name = some composition
  /-- The unit is registered under the name. -/
  registered : registry.lookup? name = some unit
  /-- The units above the line are registered under the names above the line. -/
  above_registered : List.Forall₂ (fun part unit => registry.lookup? part = some unit)
    composition.above above
  /-- The units below the line are registered under the names below the line. -/
  below_registered : List.Forall₂ (fun part unit => registry.lookup? part = some unit)
    composition.below below
  /-- The unit is the product from left to right, under its name. -/
  unit_eq : unit = (below.foldl CompoundUnit.divide
    (above.foldl CompoundUnit.multiply registry.dimensionless)).withLabel name

namespace Registry

variable {K : Type} [Scalar K] {table : DefinitionTable K} {registry : Registry K} {name : String}
  {composition : Composition}

theorem eq_map_of_registered {parts : List String} {units : List (CompoundUnit K)}
    (registered : List.Forall₂ (fun part unit => registry.lookup? part = some unit) parts units) :
    units = parts.map (unitIn registry.units) := by
  induction registered with
  | nil => rfl
  | cons found _ induction => rw [List.map_cons, unitIn_eq found, ← induction]

theorem forall₂_registered {parts : List String}
    (known : ∀ part ∈ parts, ∃ unit, registry.lookup? part = some unit) :
    List.Forall₂ (fun part unit => registry.lookup? part = some unit) parts
      (parts.map (unitIn registry.units)) := by
  rw [List.forall₂_map_right_iff, List.forall₂_same]
  intro part member
  obtain ⟨unit, found⟩ := known part member
  rw [unitIn_eq found, found]

/-- The unit of a composed name is the product of its registered parts, and incurs no factor. -/
theorem Realizes.composes (realizes : registry.Realizes table)
    (composed : registry.composition? name = some composition) :
    registry.Composes name composition (composition.above.map (unitIn registry.units))
        (composition.below.map (unitIn registry.units))
        ((composition.product (unitIn registry.units)).1.withLabel name) ∧
      ((composition.product (unitIn registry.units)).2 == 1) = true := by
  have table_composed : table.composition? name = some composition :=
    (realizes.follows.compositions_eq name).symm.trans composed
  obtain ⟨unit, found⟩ :=
    realizes.complete (DefinitionTable.defines_of_composition? table_composed)
  have denotes := realizes.explains.denotes found
  have known : ∀ part ∈ composition.parts, ∃ unit, registry.lookup? part.2 = some unit := by
    intro part member
    obtain ⟨unit, part_denotes⟩ := denotes.exists_part ⟨composition, table_composed, part.1, member⟩
    exact realizes.complete part_denotes.defines
  have parts : ∀ part ∈ composition.parts,
      table.Denotes part.2 (unitIn registry.units part.2) := by
    intro part member
    obtain ⟨unit, part_found⟩ := known part member
    exact realizes.explains.denotes_unitIn part_found
  refine ⟨⟨composed, ?_, ?_, ?_, ?_⟩, realizes.explains.lossless found table_composed parts⟩
  · rw [denotes.unique (.composed table_composed parts)] at found
    exact found
  · refine forall₂_registered fun part member => known (.times, part) ?_
    exact List.mem_append_left _ (List.mem_map_of_mem member)
  · refine forall₂_registered fun part member => known (.over, part) ?_
    exact List.mem_append_right _ (List.mem_map_of_mem member)
  · rw [Composition.product_fst]
    rfl

/-- Whatever order the composed names are assembled in, they get their registered units. -/
theorem Realizes.exists_unitsIn (realizes : registry.Realizes table)
    (resolvable : table.IsResolvable) {order : List String}
    (permuted : order.Perm registry.compositions.keys) :
    ∃ units, registry.toCatalogue.unitsIn order = .ok units ∧
      ∀ name, units[name]? = registry.lookup? name := by
  have composed_iff {name : String} : name ∈ order ↔
      ∃ composition, table.composition? name = some composition := by
    rw [permuted.mem_iff, realizes.follows.mem_keys_compositions]
  have meets := DefinitionTable.unitsIn_meets realizes.follows composed_iff
  cases assembled : registry.toCatalogue.unitsIn order with
  | error failure => exact absurd resolvable (meets.of_error assembled).not_isResolvable
  | ok units =>
      obtain ⟨explains, complete⟩ := meets.of_ok assembled
      exact ⟨units, rfl, explains.getElem?_eq complete realizes.explains realizes.complete⟩

theorem isStandard_unitIn [LawfulScalar K] (built : ofTable table = .ok registry) (name : String) :
    (unitIn registry.units name).IsStandard := by
  cases found : registry.units[name]? with
  | none =>
      rw [unitIn, found]
      exact CompoundUnit.ofSides_isStandard [] []
  | some unit =>
      obtain ⟨above, below, draws⟩ := (provides_of_ofTable built).drawn found
      rw [unitIn_eq found]
      exact draws.entries.isStandard

theorem Composes.size_eq {table : DefinitionTable Rat} {registry : Registry Rat}
    {above below : List (CompoundUnit Rat)} {unit : CompoundUnit Rat}
    (composes : registry.Composes name composition above below unit)
    (built : ofTable table = .ok registry) :
    unit.size = (above.map CompoundUnit.size).prod / (below.map CompoundUnit.size).prod := by
  obtain ⟨-, realizes⟩ := (ofTable_meets table).of_ok built
  obtain ⟨product_composes, no_factor⟩ := realizes.composes composes.composed
  have standard : ∀ part ∈ composition.parts, (unitIn registry.units part.2).IsStandard :=
    fun part _ => isStandard_unitIn built part.2
  have unit_eq : unit = _ :=
    Option.some.inj (composes.registered.symm.trans product_composes.registered)
  rw [unit_eq, eq_map_of_registered composes.above_registered,
    eq_map_of_registered composes.below_registered]
  exact Composition.size_product standard (beq_iff_eq.mp no_factor)

/--
The unit of a composed name is the product of the registered units of its parts from left to right,
and is shown under its name.  Any order in which the composed names are assembled gives them these
units.  Over the rationals no factor is lost: the size is the quotient of the sizes of the parts.
-/
theorem ofTable_composes :
    (∀ {K : Type} [Scalar K] {table : DefinitionTable K} {registry : Registry K},
        ofTable table = .ok registry →
          (∀ {name : String} {composition : Composition},
            table.composition? name = some composition →
              ∃ above below unit, registry.Composes name composition above below unit ∧
                unit.name = name) ∧
          ∀ {order : List String}, order.Perm registry.compositions.keys →
            ∃ units, registry.toCatalogue.unitsIn order = .ok units ∧
              ∀ name, units[name]? = registry.lookup? name) ∧
      ∀ {table : DefinitionTable Rat} {registry : Registry Rat}, ofTable table = .ok registry →
        ∀ {name : String} {composition : Composition} {above below : List (CompoundUnit Rat)}
          {unit : CompoundUnit Rat}, registry.Composes name composition above below unit →
            unit.size =
              (above.map CompoundUnit.size).prod / (below.map CompoundUnit.size).prod := by
  constructor
  · intro K _ table registry built
    obtain ⟨⟨-, resolvable⟩, realizes⟩ := (ofTable_meets table).of_ok built
    refine ⟨fun {name composition} composed => ?_, realizes.exists_unitsIn resolvable⟩
    have registry_composed : registry.composition? name = some composition :=
      (realizes.follows.compositions_eq name).trans composed
    exact ⟨_, _, _, (realizes.composes registry_composed).1, rfl⟩
  · intro table registry built name composition above below unit composes
    exact composes.size_eq built

/-- A table in which power is composed of energy, energy of force and torque of force again. -/
private def machines : DefinitionTable Rat where
  prefixes := [("kilo-", 1000)]
  dimensions :=
    [⟨dimensionlessName, [(dimensionlessName, .multiplier 1)]⟩,
      ⟨"mass", [("gram", .multiplier 1)]⟩,
      ⟨"length", [("meter", .multiplier 1), ("foot", .multiplier (3 / 10))]⟩,
      ⟨"time", [("second", .multiplier 1)]⟩,
      ⟨"power", [("watt", .composed ⟨some ["joule"], some ["second"]⟩),
        ("torque", .composed ⟨some ["joule", "foot"], some ["foot"]⟩),
        ("joule", .composed ⟨some ["newton", "meter"], none⟩),
        ("newton", .composed ⟨some ["kilogram", "meter"], some ["second", "second"]⟩)]⟩]

/-- A watt is the quotient of joule and second, also if the newtons are assembled first. -/
theorem machines_compose_watt :
    ∃ registry joule second watt, ofTable machines = .ok registry ∧
      registry.Composes "watt" ⟨some ["joule"], some ["second"]⟩ [joule] [second] watt ∧
      watt.name = "watt" ∧ watt.size = joule.size / second.size ∧ watt.size = 1000 ∧
      ∃ units, registry.toCatalogue.unitsIn ["newton", "torque", "joule", "watt"] = .ok units ∧
        units["watt"]? = some watt := by
  have computed : Outcome.passes (ofTable machines) (fun registry =>
      decide (["newton", "torque", "joule", "watt"].Perm registry.compositions.keys) &&
        decide ((registry.lookup? "watt").map CompoundUnit.size = some 1000)) = true := by
    decide +kernel
  have composed : machines.composition? "watt" = some ⟨some ["joule"], some ["second"]⟩ := by
    decide +kernel
  obtain ⟨registry, built, tests⟩ := Outcome.exists_of_passes computed
  obtain ⟨permuted, size_eq⟩ := Bool.and_eq_true_iff.mp tests
  obtain ⟨composes, assembled⟩ := ofTable_composes.1 built
  obtain ⟨above, below, watt, watt_composes, watt_name⟩ := composes composed
  obtain ⟨units, units_eq, same_units⟩ := assembled (of_decide_eq_true permuted)
  have watt_size := ofTable_composes.2 built watt_composes
  have ⟨_, registered, above_registered, below_registered, _⟩ := watt_composes
  obtain _ | @⟨_, joule, _, _, _, ⟨⟩⟩ := above_registered
  obtain _ | @⟨_, second, _, _, _, ⟨⟩⟩ := below_registered
  have watt_1000 := of_decide_eq_true size_eq
  rw [registered, Option.map_some, Option.some_inj] at watt_1000
  rw [List.map_singleton, List.map_singleton, List.prod_singleton, List.prod_singleton] at watt_size
  exact ⟨registry, joule, second, watt, built, watt_composes, watt_name, watt_size, watt_1000,
    units, units_eq, (same_units "watt").trans registered⟩

end Registry
end UnitAlgebra
