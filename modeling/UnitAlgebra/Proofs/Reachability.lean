import UnitAlgebra.Proofs.Assembly
import UnitAlgebra.Proofs.CanonicalOrder
import UnitAlgebra.Proofs.Commutation
import UnitAlgebra.Proofs.Expression.Invariance

/-!
# Values that a registry gives

A registry gives its named units, the values of its expressions, and whatever is made of these by
the operations on units and quantities, in any number of steps.  What registered units have and the
operations on units keep, all of these have.  So every unit that is ever given is drawn from the
registry, and its sides are filled and sorted, and share no dimension.
-/

namespace UnitAlgebra

variable {K : Type} [Scalar K]

/-! ## Reduced units -/

namespace CompoundUnit

/-- A reduced unit, whatever its entries are. -/
def IsReduced (unit : CompoundUnit K) : Prop :=
  ∃ above below, unit.HasEntries above below

section

variable [LawfulScalar K] {left right : CompoundUnit K}

theorem IsReduced.multiply (left_reduced : left.IsReduced) (right_reduced : right.IsReduced) :
    (left.multiply right).IsReduced := by
  obtain ⟨left_above, left_below, left_entries⟩ := left_reduced
  obtain ⟨right_above, right_below, right_entries⟩ := right_reduced
  obtain ⟨above, below, entries, -, -⟩ := left_entries.productWithFactor right_entries
  exact ⟨above, below, entries⟩

theorem IsReduced.divide (left_reduced : left.IsReduced) (right_reduced : right.IsReduced) :
    (left.divide right).IsReduced := by
  obtain ⟨left_above, left_below, left_entries⟩ := left_reduced
  obtain ⟨right_above, right_below, right_entries⟩ := right_reduced
  obtain ⟨above, below, entries, -, -⟩ := left_entries.quotientWithFactor right_entries
  exact ⟨above, below, entries⟩

end

/-! ## Normal form -/

/-- The form in which units are kept: both sides filled and sorted, without a common dimension. -/
structure IsNormal (unit : CompoundUnit K) : Prop where
  /-- The side above the line holds the placeholder alone, or some entries with a dimension. -/
  numerator_filled : Side.IsFilled .dimensionless unit.numerator
  /-- The side below the line holds the placeholder alone, or some entries with a dimension. -/
  denominator_filled : Side.IsFilled .dimensionless unit.denominator
  /-- The side above the line is in canonical order. -/
  numerator_sorted : unit.numerator.Pairwise fun left right => (left.order right).isLE = true
  /-- The side below the line is in canonical order. -/
  denominator_sorted : unit.denominator.Pairwise fun left right => (left.order right).isLE = true
  /-- Only placeholders have one dimension on both sides. -/
  shared_dimension : ∀ upper ∈ unit.numerator, ∀ lower ∈ unit.denominator,
    upper.dimension = lower.dimension → upper.isDimensionless = true

end CompoundUnit

namespace Side

theorem IsCanonical.pairwise_fill [OrderedScalar K] {side : Side K} (canonical : IsCanonical side) :
    (fill side).Pairwise fun left right => (left.order right).isLE = true := by
  cases side with
  | nil => exact List.pairwise_singleton _ _
  | cons head tail => exact pairwise_of_isChain canonical.sorted

end Side

theorem CompoundUnit.IsReduced.isNormal [OrderedScalar K] {unit : CompoundUnit K}
    (reduced : unit.IsReduced) : unit.IsNormal := by
  obtain ⟨above, below, entries⟩ := reduced
  constructor
  · exact entries.isStandard.numerator
  · exact entries.isStandard.denominator
  · rw [entries.numerator_eq]
    exact entries.above_canonical.pairwise_fill
  · rw [entries.denominator_eq]
    exact entries.below_canonical.pairwise_fill
  · rw [entries.numerator_eq, entries.denominator_eq]
    intro upper upper_member lower lower_member same
    rcases Side.mem_of_mem_fill upper_member with upper_entry | rfl
    · rcases Side.mem_of_mem_fill lower_member with lower_entry | rfl
      · exact absurd same (entries.apart upper upper_entry lower lower_entry)
      · rw [BaseUnit.isDimensionless, same]
        exact Side.isDimensionless_dimensionless
    · exact Side.isDimensionless_dimensionless

/-! ## Units of quantities -/

namespace Quantity

variable {left right result quantity product : Quantity K}

theorem unit_multiply (multiplied : left.multiply right = .ok result) :
    result.unit = left.unit.multiply right.unit := by
  obtain ⟨magnitude, -, result_eq⟩ := Outcome.exists_of_bind_eq_ok multiplied
  obtain rfl := Except.ok.inj result_eq
  rfl

theorem unit_divide (divided : left.divide right = .ok result) :
    result.unit = left.unit.divide right.unit := by
  obtain ⟨magnitude, -, result_eq⟩ := Outcome.exists_of_bind_eq_ok divided
  obtain rfl := Except.ok.inj result_eq
  rfl

theorem unit_convert {target : CompoundUnit K} (converted : quantity.convert target = .ok result) :
    result.unit = target := by
  obtain ⟨magnitude, -, result_eq⟩ := Outcome.exists_of_bind_eq_ok converted
  obtain rfl := Except.ok.inj result_eq
  rfl

theorem unit_multiplyTimes {count : Nat}
    (multiplied : quantity.multiplyTimes product count = .ok result) :
    result.unit = quantity.unit.multiplyTimes product.unit count := by
  induction count generalizing product with
  | zero =>
      obtain rfl := Except.ok.inj multiplied
      rfl
  | succ count induction =>
      obtain ⟨next, first_multiplied, rest_multiplied⟩ := Outcome.exists_of_bind_eq_ok multiplied
      rw [induction rest_multiplied, unit_multiply first_multiplied]
      rfl

theorem unit_power {exponent : Nat} (raised : quantity.power exponent = .ok result) :
    quantity.unit.power exponent = .ok result.unit := by
  cases exponent with
  | zero => cases raised
  | succ count => exact congrArg Except.ok (unit_multiplyTimes raised).symm

end Quantity

/-! ## Given values -/

namespace Registry

/-- The values that are made from a registry in finitely many steps. -/
inductive Gives (registry : Registry K) : Value K → Prop where
  /-- The unit without dimensions. -/
  | dimensionless : Gives registry (.bare registry.dimensionless)
  /-- A named unit. -/
  | lookup {name : String} {unit : CompoundUnit K} (found : registry.lookup? name = some unit) :
      Gives registry (.bare unit)
  /-- The value of an expression. -/
  | evaluation {text : String} {value : Value K}
      (evaluated : Expression.evaluate registry text = .ok value) : Gives registry value
  /-- A product of units. -/
  | multiply {left right : CompoundUnit K} (left_given : Gives registry (.bare left))
      (right_given : Gives registry (.bare right)) : Gives registry (.bare (left.multiply right))
  /-- A quotient of units. -/
  | divide {left right : CompoundUnit K} (left_given : Gives registry (.bare left))
      (right_given : Gives registry (.bare right)) : Gives registry (.bare (left.divide right))
  /-- A power of a unit. -/
  | power {unit result : CompoundUnit K} {exponent : Nat} (given : Gives registry (.bare unit))
      (raised : unit.power exponent = .ok result) : Gives registry (.bare result)
  /-- A unit under a label. -/
  | withLabel {unit : CompoundUnit K} (given : Gives registry (.bare unit)) (name : String) :
      Gives registry (.bare (unit.withLabel name))
  /-- The unit without dimensions that goes with a unit. -/
  | dimensionlessLike {unit : CompoundUnit K} (given : Gives registry (.bare unit)) :
      Gives registry (.bare unit.dimensionless)
  /-- A quantity of any magnitude in a unit. -/
  | quantity {unit : CompoundUnit K} (given : Gives registry (.bare unit))
      (magnitude : Magnitude K) : Gives registry (.measured (unit.quantity magnitude))
  /-- The unit of a value. -/
  | unitOf {value : Value K} (given : Gives registry value) : Gives registry (.bare value.unitOf)
  /-- A product of quantities. -/
  | multiplyQuantity {left right result : Quantity K} (left_given : Gives registry (.measured left))
      (right_given : Gives registry (.measured right))
      (multiplied : left.multiply right = .ok result) : Gives registry (.measured result)
  /-- A quotient of quantities. -/
  | divideQuantity {left right result : Quantity K} (left_given : Gives registry (.measured left))
      (right_given : Gives registry (.measured right)) (divided : left.divide right = .ok result) :
      Gives registry (.measured result)
  /-- A product of a quantity and a unit. -/
  | multiplyUnit {quantity : Quantity K} {unit : CompoundUnit K}
      (quantity_given : Gives registry (.measured quantity))
      (unit_given : Gives registry (.bare unit)) :
      Gives registry (.measured (quantity.multiplyUnit unit))
  /-- A quotient of a quantity and a unit. -/
  | divideUnit {quantity : Quantity K} {unit : CompoundUnit K}
      (quantity_given : Gives registry (.measured quantity))
      (unit_given : Gives registry (.bare unit)) :
      Gives registry (.measured (quantity.divideUnit unit))
  /-- A power of a quantity. -/
  | powerQuantity {quantity result : Quantity K} {exponent : Nat}
      (given : Gives registry (.measured quantity))
      (raised : quantity.power exponent = .ok result) : Gives registry (.measured result)
  /-- A quantity in another unit. -/
  | convert {quantity result : Quantity K} {target : CompoundUnit K}
      (quantity_given : Gives registry (.measured quantity))
      (target_given : Gives registry (.bare target))
      (converted : quantity.convert target = .ok result) : Gives registry (.measured result)

/-! ## Invariants -/

/-- A property that registered units have and that operations on units keep. -/
structure IsInvariant (registry : Registry K) (property : CompoundUnit K → Prop) : Prop where
  /-- The unit without dimensions has the property. -/
  dimensionless : property registry.dimensionless
  /-- Named units have the property. -/
  lookup : ∀ {name : String} {unit : CompoundUnit K}, registry.lookup? name = some unit →
    property unit
  /-- Products and quotients keep the property. -/
  combine : ∀ {left right : CompoundUnit K}, property left → property right →
    ∀ operator, property (left.combine operator right).1
  /-- A label keeps the property. -/
  withLabel : ∀ {unit : CompoundUnit K}, property unit → ∀ name, property (unit.withLabel name)
  /-- The unit without dimensions that goes with a unit keeps the property. -/
  dimensionlessLike : ∀ {unit : CompoundUnit K}, property unit → property unit.dimensionless

variable {table : DefinitionTable K} {registry : Registry K}

namespace IsInvariant

variable {property : CompoundUnit K → Prop} {left right unit product : CompoundUnit K}

theorem multiply (invariant : registry.IsInvariant property) (left_holds : property left)
    (right_holds : property right) : property (left.multiply right) :=
  invariant.combine left_holds right_holds .times

theorem divide (invariant : registry.IsInvariant property) (left_holds : property left)
    (right_holds : property right) : property (left.divide right) :=
  invariant.combine left_holds right_holds .over

theorem multiplyTimes (invariant : registry.IsInvariant property) (unit_holds : property unit)
    (product_holds : property product) (count : Nat) :
    property (unit.multiplyTimes product count) := by
  induction count generalizing product with
  | zero => exact product_holds
  | succ count induction => exact induction (invariant.multiply product_holds unit_holds)

theorem power (invariant : registry.IsInvariant property) (holds : property unit) {exponent : Nat}
    {result : CompoundUnit K} (raised : unit.power exponent = .ok result) : property result := by
  cases exponent with
  | zero => cases raised
  | succ count =>
      obtain rfl := Except.ok.inj raised
      exact invariant.multiplyTimes holds holds count

theorem closed (invariant : registry.IsInvariant property) :
    Expression.Closed fun value : Value K => property value.unitOf := by
  intro left right value operator left_holds right_holds combined
  rcases Value.unitOf_combine combined with unit_eq | unit_eq
  · rw [unit_eq]
    exact invariant.combine left_holds right_holds operator
  · rw [unit_eq]
    exact invariant.combine right_holds left_holds operator

theorem evaluate (invariant : registry.IsInvariant property) {text : String} {value : Value K}
    (evaluated : Expression.evaluate registry text = .ok value) : property value.unitOf := by
  refine Expression.Closed.evaluate invariant.closed invariant.dimensionless ?_ evaluated
  intro characters value read
  rw [Expression.Token.valueOfWord?] at read
  split at read
  · rename_i unit found
    obtain rfl := Option.some.inj read
    exact invariant.lookup found
  · obtain ⟨number, -, rfl⟩ := Option.map_eq_some_iff.mp read
    exact invariant.dimensionless

theorem of_gives (invariant : registry.IsInvariant property) {value : Value K}
    (given : registry.Gives value) : property value.unitOf := by
  induction given with
  | dimensionless => exact invariant.dimensionless
  | lookup found => exact invariant.lookup found
  | evaluation evaluated => exact invariant.evaluate evaluated
  | multiply _ _ left_holds right_holds => exact invariant.multiply left_holds right_holds
  | divide _ _ left_holds right_holds => exact invariant.divide left_holds right_holds
  | power _ raised holds => exact invariant.power holds raised
  | withLabel _ name holds => exact invariant.withLabel holds name
  | dimensionlessLike _ holds => exact invariant.dimensionlessLike holds
  | quantity _ _ holds => exact holds
  | unitOf _ holds => exact holds
  | multiplyQuantity _ _ multiplied left_holds right_holds =>
      rw [Value.unitOf, Quantity.unit_multiply multiplied]
      exact invariant.multiply left_holds right_holds
  | divideQuantity _ _ divided left_holds right_holds =>
      rw [Value.unitOf, Quantity.unit_divide divided]
      exact invariant.divide left_holds right_holds
  | multiplyUnit _ _ quantity_holds unit_holds =>
      exact invariant.multiply quantity_holds unit_holds
  | divideUnit _ _ quantity_holds unit_holds => exact invariant.divide quantity_holds unit_holds
  | powerQuantity _ raised holds => exact invariant.power holds (Quantity.unit_power raised)
  | convert _ _ converted _ target_holds =>
      rw [Value.unitOf, Quantity.unit_convert converted]
      exact target_holds

end IsInvariant

/-! ## Units of given values -/

section

variable [LawfulScalar K]

/-- Operations on units add no entries that do not stand in the registry. -/
theorem isInvariant_draws (built : ofTable table = .ok registry) :
    registry.IsInvariant fun unit =>
      ∃ above below, registry.toCatalogue.Draws unit above below where
  dimensionless := ⟨[], [], registry.toCatalogue.draws_dimensionless⟩
  lookup found := (provides_of_ofTable built).drawn found
  combine := by
    rintro left right ⟨_, _, left_draws⟩ ⟨_, _, right_draws⟩ operator
    exact left_draws.combine right_draws operator
  withLabel := by
    rintro unit ⟨above, below, draws⟩ name
    exact ⟨above, below, draws.withLabel name⟩
  dimensionlessLike := by
    rintro unit ⟨above, below, draws⟩
    rw [CompoundUnit.dimensionless, draws.entries.placeholder_eq]
    exact ⟨[], [], registry.toCatalogue.draws_dimensionless⟩

theorem draws_of_gives (built : ofTable table = .ok registry) {value : Value K}
    (given : registry.Gives value) :
    ∃ above below, registry.toCatalogue.Draws value.unitOf above below :=
  (isInvariant_draws built).of_gives given

theorem isReduced_of_gives (built : ofTable table = .ok registry) {value : Value K}
    (given : registry.Gives value) : value.unitOf.IsReduced := by
  obtain ⟨above, below, draws⟩ := draws_of_gives built given
  exact ⟨above, below, draws.entries⟩

theorem isFormed_of_gives (built : ofTable table = .ok registry) {value : Value K}
    (given : registry.Gives value) :
    value.unitOf.IsFormed ∧ value.unitOf.placeholder = .dimensionless := by
  obtain ⟨above, below, entries⟩ := isReduced_of_gives built given
  exact ⟨entries.isFormed, entries.placeholder_eq⟩

end

/-- However a value is made from a registry, its unit is in normal form. -/
theorem isNormal_of_gives {K : Type} [Scalar K] [OrderedScalar K] {table : DefinitionTable K}
    {registry : Registry K} (built : ofTable table = .ok registry) {value : Value K}
    (given : registry.Gives value) : value.unitOf.IsNormal :=
  (isReduced_of_gives built given).isNormal

/-- A table of two dimensions and of a composed unit of both. -/
private def travel : DefinitionTable Float where
  prefixes := [("kilo-", 1000)]
  dimensions :=
    [⟨dimensionlessName, [(dimensionlessName, .multiplier 1)]⟩,
      ⟨"length", [("meter", .multiplier 1), ("mile", .multiplier 1609.344)]⟩,
      ⟨"time", [("second", .multiplier 1), ("hour", .multiplier 3600),
        ("mph", .composed ⟨some ["mile"], some ["hour"]⟩)]⟩]

/-- A labelled cube of an expression in which two lengths cancel, divided by a named unit. -/
theorem isNormal_travel :
    ∃ registry value speed, ofTable travel = .ok registry ∧
      Expression.evaluate registry "3 (kilometer * mph) / (meter * second)" = .ok value ∧
      registry.lookup? "mph" = some speed ∧
      (((value.unitOf.multiplyTimes value.unitOf 2).withLabel "cube").divide speed).IsNormal := by
  have computed : Outcome.passes (ofTable travel) (fun registry =>
      Outcome.passes (Expression.evaluate registry "3 (kilometer * mph) / (meter * second)")
        (fun _ => true) && (registry.lookup? "mph").isSome) = true := by decide +kernel
  obtain ⟨registry, built, tests⟩ := Outcome.exists_of_passes computed
  obtain ⟨evaluates, registered⟩ := Bool.and_eq_true_iff.mp tests
  obtain ⟨speed, found⟩ := Option.isSome_iff_exists.mp registered
  obtain ⟨value, evaluated, -⟩ := Outcome.exists_of_passes evaluates
  have cube : value.unitOf.power 3 = .ok (value.unitOf.multiplyTimes value.unitOf 2) := rfl
  have given : registry.Gives (.bare
      (((value.unitOf.multiplyTimes value.unitOf 2).withLabel "cube").divide speed)) :=
    .divide (.withLabel (.power (.unitOf (.evaluation evaluated)) cube) "cube") (.lookup found)
  exact ⟨registry, value, speed, built, evaluated, found, isNormal_of_gives built given⟩

end Registry
end UnitAlgebra
