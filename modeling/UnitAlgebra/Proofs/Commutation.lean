import UnitAlgebra.Proofs.Outcome
import UnitAlgebra.Proofs.Reduction
import UnitAlgebra.Proofs.Unnamed
import UnitAlgebra.Value

/-!
# Commutation of products

The two orders of a product give equal units and the same factor, whether or not the operands are
reduced and whichever of them has no dimension.  The factor needs no law of multiplication: the same
ratios are multiplied in the same order.  Products of quantities and of values commute as well if
the multiplication of scalars does.
-/

namespace UnitAlgebra

variable {K : Type} [Scalar K]

/-! ## Formed units -/

namespace Side

theorem unnamed_normalize (placeholder : BaseUnit K) (side : Side K) :
    unnamed (normalize placeholder side) = normalize placeholder.unnamed (unnamed side) := by
  rw [normalize, normalize, canonical, canonical, ← unnamed_dimensional, ← unnamed_sort]
  cases sort (dimensional side) with
  | nil => rfl
  | cons head tail => rfl

theorem IsFilled.eq_singleton {placeholder : BaseUnit K} {side : Side K}
    (filled : IsFilled placeholder side) (empty : isPlaceholder side = true) :
    side = [placeholder] := by
  cases filled with
  | placeholder => rfl
  | entries nonempty have_dimension =>
      obtain ⟨entry, member⟩ := List.exists_mem_of_ne_nil side nonempty
      have no_dimension := List.all_eq_true.mp empty entry member
      rw [have_dimension entry member] at no_dimension
      cases no_dimension

end Side

namespace CompoundUnit

/-- Both sides are in canonical form, and the placeholder stands on an empty one. -/
structure IsFormed (unit : CompoundUnit K) : Prop where
  /-- The side above the line is the canonical form of some side. -/
  numerator_eq : ∃ above, unit.numerator = Side.normalize unit.placeholder above
  /-- The side below the line is the canonical form of some side. -/
  denominator_eq : ∃ below, unit.denominator = Side.normalize unit.placeholder below

theorem ofSides_isFormed (above below : Side K) (placeholder : BaseUnit K) :
    (ofSides above below placeholder).IsFormed :=
  ⟨⟨above, rfl⟩, ⟨below, rfl⟩⟩

theorem IsFormed.withLabel {unit : CompoundUnit K} (formed : unit.IsFormed) (name : String) :
    (unit.withLabel name).IsFormed :=
  ⟨formed.numerator_eq, formed.denominator_eq⟩

theorem IsFormed.combine {left right : CompoundUnit K} (left_formed : left.IsFormed)
    (right_formed : right.IsFormed) (operator : Operator) :
    (left.combine operator right).1.IsFormed := by
  cases operator
  · rw [CompoundUnit.combine, productWithFactor]
    split
    · exact left_formed
    · split
      · exact right_formed
      · exact ofSides_isFormed _ _ _
  · rw [CompoundUnit.combine, quotientWithFactor]
    split
    · exact left_formed
    · exact ofSides_isFormed _ _ _

theorem HasEntries.isFormed {unit : CompoundUnit K} {above below : Side K}
    (entries : unit.HasEntries above below) : unit.IsFormed := by
  constructor
  · refine ⟨above, ?_⟩
    rw [entries.numerator_eq, entries.placeholder_eq, Side.normalize_eq_fill,
      entries.above_canonical.canonical_eq]
  · refine ⟨below, ?_⟩
    rw [entries.denominator_eq, entries.placeholder_eq, Side.normalize_eq_fill,
      entries.below_canonical.canonical_eq]

theorem IsFormed.eq_singleton {unit : CompoundUnit K} (formed : unit.IsFormed)
    (empty : unit.isDimensionless = true) :
    unit.numerator = [unit.placeholder] ∧ unit.denominator = [unit.placeholder] := by
  obtain ⟨⟨above, numerator_eq⟩, ⟨below, denominator_eq⟩⟩ := formed
  obtain ⟨numerator_empty, denominator_empty⟩ := Bool.and_eq_true_iff.mp empty
  rw [numerator_eq] at numerator_empty
  rw [denominator_eq] at denominator_empty
  rw [numerator_eq, denominator_eq]
  exact ⟨(Side.normalize_isFilled _ _).eq_singleton numerator_empty,
    (Side.normalize_isFilled _ _).eq_singleton denominator_empty⟩

/-! ## Equality -/

section

variable [OrderedScalar K]

/-- Units are equal exactly if their sides are the same without the names of the entries. -/
theorem beq_iff {left right : CompoundUnit K} :
    (left == right) = true ↔ Side.unnamed left.numerator = Side.unnamed right.numerator ∧
      Side.unnamed left.denominator = Side.unnamed right.denominator := by
  rw [← Side.beq_iff, ← Side.beq_iff, ← Bool.and_eq_true]
  rfl

theorem beq_self (unit : CompoundUnit K) : (unit == unit) = true :=
  beq_iff.mpr ⟨rfl, rfl⟩

theorem ofSides_beq {above below above' below' : Side K} {placeholder placeholder' : BaseUnit K}
    (above_same : Side.unnamed above = Side.unnamed above')
    (below_same : Side.unnamed below = Side.unnamed below')
    (placeholder_same : (placeholder == placeholder') = true) :
    (ofSides above below placeholder == ofSides above' below' placeholder') = true := by
  rw [beq_iff, ofSides, ofSides, Side.unnamed_normalize, Side.unnamed_normalize,
    Side.unnamed_normalize, Side.unnamed_normalize, above_same, below_same,
    BaseUnit.beq_iff.mp placeholder_same]
  exact ⟨rfl, rfl⟩

/-! ## Units -/

/-- Joining the entries of two units gives equal units and one factor in both orders. -/
theorem extend_comm {left right : CompoundUnit K}
    (same_placeholder : (left.placeholder == right.placeholder) = true) :
    ((left.extend right.numerator right.denominator).1 ==
        (right.extend left.numerator left.denominator).1) = true ∧
      (left.extend right.numerator right.denominator).2 =
        (right.extend left.numerator left.denominator).2 := by
  have above : (left.numerator ++ right.numerator).Perm (right.numerator ++ left.numerator) :=
    List.perm_append_comm
  have below : (left.denominator ++ right.denominator).Perm
      (right.denominator ++ left.denominator) := List.perm_append_comm
  have same := simplify_unnamed_eq_of_perm (above.map BaseUnit.unnamed) (below.map BaseUnit.unnamed)
  have factor_eq := congrArg Cancellation.factor same
  refine ⟨ofSides_beq ?_ ?_ same_placeholder, factor_eq⟩
  · exact congrArg Cancellation.numerator same
  · exact congrArg Cancellation.denominator same

theorem productWithFactor_comm {left right : CompoundUnit K} (left_formed : left.IsFormed)
    (right_formed : right.IsFormed)
    (same_placeholder : (left.placeholder == right.placeholder) = true) :
    ((left.productWithFactor right).1 == (right.productWithFactor left).1) = true ∧
      (left.productWithFactor right).2 = (right.productWithFactor left).2 := by
  rw [productWithFactor, productWithFactor]
  by_cases right_empty : right.isDimensionless = true
  · by_cases left_empty : left.isDimensionless = true
    · -- Each order gives its left operand; both hold nothing but their placeholder.
      obtain ⟨left_above, left_below⟩ := left_formed.eq_singleton left_empty
      obtain ⟨right_above, right_below⟩ := right_formed.eq_singleton right_empty
      rw [if_pos right_empty, if_pos left_empty, beq_iff, left_above, left_below, right_above,
        right_below]
      have singleton_eq : Side.unnamed [left.placeholder] = Side.unnamed [right.placeholder] :=
        congrArg (fun entry => [entry]) (BaseUnit.beq_iff.mp same_placeholder)
      exact ⟨⟨singleton_eq, singleton_eq⟩, rfl⟩
    · rw [if_pos right_empty, if_neg left_empty, if_pos right_empty]
      exact ⟨beq_self left, rfl⟩
  · by_cases left_empty : left.isDimensionless = true
    · rw [if_neg right_empty, if_pos left_empty, if_pos left_empty]
      exact ⟨beq_self right, rfl⟩
    · rw [if_neg right_empty, if_neg left_empty, if_neg left_empty, if_neg right_empty]
      exact extend_comm same_placeholder

end

end CompoundUnit

/-! ## Quantities and values -/

theorem Magnitude.multiply_comm (commutes : ∀ x y : K, x * y = y * x) (left right : Magnitude K) :
    left.multiply right = right.multiply left := by
  cases left with
  | scalar left =>
      cases right with
      | scalar right =>
          change Except.ok (scalar (left * right)) = .ok (scalar (right * left))
          rw [commutes]
      | list right =>
          change Except.ok (list (right.map (left * ·))) = .ok (list (right.map (· * left)))
          rw [funext (commutes left)]
  | list left =>
      cases right with
      | scalar right =>
          change Except.ok (list (left.map (· * right))) = .ok (list (left.map (right * ·)))
          rw [funext (commutes right)]
      | list right => rfl

/-- The same magnitude in equal units. -/
structure Quantity.Matches (left right : Quantity K) : Prop where
  /-- The magnitudes are the same, element for element. -/
  magnitude_eq : left.magnitude = right.magnitude
  /-- The units are equal. -/
  unit_beq : (left.unit == right.unit) = true

/-- Equal bare units, or the same magnitude in equal units. -/
inductive Value.Matches : Value K → Value K → Prop where
  /-- Equal bare units. -/
  | bare {left right : CompoundUnit K} (equal : (left == right) = true) :
      Matches (.bare left) (.bare right)
  /-- The same magnitude in equal units. -/
  | measured {left right : Quantity K} (same : left.Matches right) :
      Matches (.measured left) (.measured right)

namespace CompoundUnit

variable [OrderedScalar K] {left right : CompoundUnit K}

theorem quantity_multiply_comm (commutes : ∀ x y : K, x * y = y * x) (left_formed : left.IsFormed)
    (right_formed : right.IsFormed)
    (same_placeholder : (left.placeholder == right.placeholder) = true)
    (left_magnitude right_magnitude : Magnitude K) :
    Outcome.Agree Quantity.Matches
      ((left.quantity left_magnitude).multiply (right.quantity right_magnitude))
      ((right.quantity right_magnitude).multiply (left.quantity left_magnitude)) := by
  obtain ⟨unit_beq, factor_eq⟩ :=
    productWithFactor_comm left_formed right_formed same_placeholder
  simp only [Quantity.multiply, CompoundUnit.quantity,
    Magnitude.multiply_comm commutes left_magnitude]
  cases right_magnitude.multiply left_magnitude with
  | error failure => exact .error failure
  | ok magnitude =>
      exact .ok ⟨congrArg magnitude.scale factor_eq, unit_beq⟩

theorem value_multiply_comm (commutes : ∀ x y : K, x * y = y * x) {left right : Value K}
    (left_formed : left.unitOf.IsFormed) (right_formed : right.unitOf.IsFormed)
    (same_placeholder : (left.unitOf.placeholder == right.unitOf.placeholder) = true) :
    Outcome.Agree Value.Matches (left.multiply right) (right.multiply left) := by
  cases left with
  | bare left =>
      cases right with
      | bare right =>
          exact .ok (.bare (productWithFactor_comm left_formed right_formed same_placeholder).1)
      | measured right => exact .ok (.measured ⟨rfl, beq_self _⟩)
  | measured left =>
      cases right with
      | bare right => exact .ok (.measured ⟨rfl, beq_self _⟩)
      | measured right =>
          have agree := quantity_multiply_comm commutes left_formed right_formed same_placeholder
            left.magnitude right.magnitude
          exact agree.map .measured

/--
Products commute.  The two orders give equal units and the same factor, for reduced and unreduced
units; quantities and values in these units have the same product in both orders, or none in either
for the same reason, as far as the multiplication of scalars commutes.
-/
theorem multiply_commutes (left_formed : left.IsFormed) (right_formed : right.IsFormed)
    (same_placeholder : (left.placeholder == right.placeholder) = true) :
    (left.multiply right == right.multiply left) = true ∧
      (left.combine .times right).2 = (right.combine .times left).2 ∧
      ((∀ x y : K, x * y = y * x) →
        (∀ left_magnitude right_magnitude : Magnitude K,
          Outcome.Agree Quantity.Matches
            ((left.quantity left_magnitude).multiply (right.quantity right_magnitude))
            ((right.quantity right_magnitude).multiply (left.quantity left_magnitude))) ∧
        ∀ left_value right_value : Value K, left_value.unitOf = left →
          right_value.unitOf = right →
            Outcome.Agree Value.Matches (left_value.multiply right_value)
              (right_value.multiply left_value)) := by
  obtain ⟨unit_beq, factor_eq⟩ := productWithFactor_comm left_formed right_formed same_placeholder
  refine ⟨unit_beq, factor_eq, fun commutes => ⟨?_, ?_⟩⟩
  · exact quantity_multiply_comm commutes left_formed right_formed same_placeholder
  · rintro left_value right_value rfl rfl
    exact value_multiply_comm commutes left_formed right_formed same_placeholder

/-- Two lengths over a length and a time. -/
private def unreducedSpeed : CompoundUnit Float :=
  .ofSides [⟨"kilometer", "[length]", "meter", 1000, by decide⟩,
      ⟨"foot", "[length]", "meter", 0.3048, by decide⟩]
    [⟨"m", "[length]", "meter", 1, by decide⟩, ⟨"hour", "[time]", "second", 3600, by decide⟩]
    .dimensionless

/-- A time over a length. -/
private def slowness : CompoundUnit Float :=
  .ofSides [⟨"minute", "[time]", "second", 60, by decide⟩]
    [⟨"mile", "[length]", "meter", 1609.344, by decide⟩] .dimensionless

/-- The products of an unreduced unit and of a list in it, with one of the opposite dimensions. -/
theorem unreducedSpeed_multiply_commutes :
    (unreducedSpeed.multiply slowness == slowness.multiply unreducedSpeed) = true ∧
      (unreducedSpeed.combine .times slowness).2 = (slowness.combine .times unreducedSpeed).2 ∧
      Outcome.Agree Quantity.Matches
        ((unreducedSpeed.quantity (.list [2, 0.1])).multiply (slowness.quantity (.scalar 3)))
        ((slowness.quantity (.scalar 3)).multiply (unreducedSpeed.quantity (.list [2, 0.1]))) ∧
      Outcome.Agree Value.Matches
        ((Value.bare unreducedSpeed).multiply (.measured (slowness.quantity (.scalar 3))))
        ((Value.measured (slowness.quantity (.scalar 3))).multiply (.bare unreducedSpeed)) := by
  have speed_formed : unreducedSpeed.IsFormed := ofSides_isFormed _ _ _
  have slowness_formed : slowness.IsFormed := ofSides_isFormed _ _ _
  obtain ⟨unit_beq, factor_eq, commute⟩ :=
    multiply_commutes speed_formed slowness_formed (by decide)
  obtain ⟨quantities, values⟩ := commute Binary64.mul_comm_eq
  exact ⟨unit_beq, factor_eq, quantities _ _, values _ _ rfl rfl⟩

end CompoundUnit
end UnitAlgebra
