import UnitAlgebra.Proofs.Exponent
import UnitAlgebra.Proofs.Expression.Phrase
import UnitAlgebra.Proofs.Reachability

/-!
# Association of products and quotients

The unit of a tree of products and quotients has the exponents that its leaves add up to, so trees
of equal exponents give units of equal dimensions, whatever their shapes.  If besides every
dimension stands for one base unit only, then the units are equal, and equal to what one
cancellation of all the sides gives.
-/

namespace UnitAlgebra

variable {K : Type} [Scalar K]

/-! ## Equality by dimensions -/

namespace Side

theorem subset_fill (side : Side K) : side ⊆ fill side := by
  cases side with
  | nil => exact List.nil_subset _
  | cons head tail => exact List.Subset.refl _

theorem beq_of_tags_eq {left right : Side K} (same_tags : tags left = tags right)
    (one_unit : ∀ entry ∈ left, ∀ other ∈ right, entry.dimension = other.dimension →
      (entry == other) = true) : (left == right) = true := by
  replace same_tags := tags_eq_iff.mp same_tags
  induction same_tags with
  | nil => rfl
  | @cons head head' tail tail' same _ induction =>
      rw [List.cons_beq_cons, Bool.and_eq_true]
      refine ⟨one_unit head (by simp) head' (by simp) same, induction ?_⟩
      intro entry member other other_member
      exact one_unit entry (List.mem_cons_of_mem head member) other
        (List.mem_cons_of_mem head' other_member)

/-- Every dimension stands for one base unit only, whatever its names are. -/
def HasOneUnit (pool : Side K) : Prop :=
  ∀ entry ∈ pool, ∀ other ∈ pool, entry.dimension = other.dimension → (entry == other) = true

instance (pool : Side K) : Decidable (HasOneUnit pool) :=
  inferInstanceAs (Decidable (∀ entry ∈ pool, ∀ other ∈ pool,
    entry.dimension = other.dimension → (entry == other) = true))

theorem HasOneUnit.mono {pool part : Side K} (one_unit : HasOneUnit pool) (subset : part ⊆ pool) :
    HasOneUnit part := fun entry member other other_member =>
  one_unit entry (subset member) other (subset other_member)

theorem fill_beq [LawfulScalar K] {left right : Side K} (same : (left == right) = true) :
    (fill left == fill right) = true := by
  cases left with
  | nil =>
      cases right with
      | nil => exact beq_self_eq_true _
      | cons head tail => cases same
  | cons head tail =>
      cases right with
      | nil => cases same
      | cons head' tail' => exact same

theorem tags_fill_eq {left right : Side K} (same : tags left = tags right) :
    tags (fill left) = tags (fill right) := by
  cases tags_eq_iff.mp same with
  | nil => rfl
  | cons _ _ => exact same

end Side

namespace CompoundUnit.HasEntries

variable {left right : CompoundUnit K} {left_above left_below right_above right_below : Side K}

theorem side_tags_eq (left_entries : left.HasEntries left_above left_below)
    (right_entries : right.HasEntries right_above right_below)
    (same : ∀ tag, tag ≠ noDimension → left.exponent tag = right.exponent tag) :
    Side.tags left.numerator = Side.tags right.numerator ∧
      Side.tags left.denominator = Side.tags right.denominator := by
  obtain ⟨above_eq, below_eq⟩ := left_entries.tags_eq_of_exponent_eq right_entries same
  rw [left_entries.numerator_eq, left_entries.denominator_eq, right_entries.numerator_eq,
    right_entries.denominator_eq]
  exact ⟨Side.tags_fill_eq above_eq, Side.tags_fill_eq below_eq⟩

theorem beq_of_exponent_eq [LawfulScalar K] {pool : Side K}
    (left_entries : left.HasEntries left_above left_below)
    (right_entries : right.HasEntries right_above right_below)
    (same : ∀ tag, tag ≠ noDimension → left.exponent tag = right.exponent tag)
    (one_unit : Side.HasOneUnit pool)
    (left_pool : left_above ⊆ pool ∧ left_below ⊆ pool)
    (right_pool : right_above ⊆ pool ∧ right_below ⊆ pool) : (left == right) = true := by
  obtain ⟨above_eq, below_eq⟩ := left_entries.tags_eq_of_exponent_eq right_entries same
  have above_beq : (left_above == right_above) = true :=
    Side.beq_of_tags_eq above_eq fun entry member other other_member =>
      one_unit entry (left_pool.1 member) other (right_pool.1 other_member)
  have below_beq : (left_below == right_below) = true :=
    Side.beq_of_tags_eq below_eq fun entry member other other_member =>
      one_unit entry (left_pool.2 member) other (right_pool.2 other_member)
  change (left.numerator == right.numerator && left.denominator == right.denominator) = true
  rw [left_entries.numerator_eq, left_entries.denominator_eq, right_entries.numerator_eq,
    right_entries.denominator_eq, Side.fill_beq above_beq, Side.fill_beq below_beq]
  rfl

end CompoundUnit.HasEntries

/-! ## Trees of units -/

namespace Expression.Tree

/-- The leaves of a tree from left to right. -/
def leaves {Leaf : Type} : Tree Leaf → List Leaf
  | .leaf value => [value]
  | .node _ left right => left.leaves ++ right.leaves

/-- The unit of a tree, from the leaves up. -/
def unit : Tree (CompoundUnit K) → CompoundUnit K
  | .leaf unit => unit
  | .node .times left right => left.unit.multiply right.unit
  | .node .over left right => left.unit.divide right.unit

/-- The exponent that the leaves of a tree add up to. -/
def exponent (tag : String) : Tree (CompoundUnit K) → Int
  | .leaf unit => unit.exponent tag
  | .node operator left right => operator.onExponents (left.exponent tag) (right.exponent tag)

/-- The entries of all leaves, above the line and below. -/
def sides : Tree (CompoundUnit K) → Side K × Side K
  | .leaf unit => (unit.numerator, unit.denominator)
  | .node .times left right =>
      (left.sides.1 ++ right.sides.1, left.sides.2 ++ right.sides.2)
  | .node .over left right =>
      (left.sides.1 ++ right.sides.2, left.sides.2 ++ right.sides.1)

/-- The entries of all leaves. -/
def entries (tree : Tree (CompoundUnit K)) : Side K :=
  tree.sides.1 ++ tree.sides.2

/-- The unit that one cancellation of the entries of all leaves gives. -/
def flat (tree : Tree (CompoundUnit K)) : CompoundUnit K :=
  let reduced := simplify tree.sides.1 tree.sides.2
  .ofSides reduced.numerator reduced.denominator .dimensionless

variable {tag : String}

theorem unit_node (operator : Operator) (left right : Tree (CompoundUnit K)) :
    (node operator left right).unit = (left.unit.combine operator right.unit).1 := by
  cases operator <;> rfl

theorem entries_node (operator : Operator) (left right : Tree (CompoundUnit K)) :
    left.entries ⊆ (node operator left right).entries ∧
      right.entries ⊆ (node operator left right).entries := by
  cases operator <;>
  · simp only [entries, sides, List.subset_def, List.mem_append]
    grind

theorem balance_sides (tag : String) (tree : Tree (CompoundUnit K)) :
    Side.balance tag tree.sides.1 tree.sides.2 = tree.exponent tag := by
  induction tree with
  | leaf unit => rfl
  | node operator left right left_balance right_balance =>
      cases operator
      · rw [sides, Side.balance_append, left_balance, right_balance]
        rfl
      · rw [sides, Side.balance_append, Side.balance_swap tag right.sides.1, left_balance,
          right_balance, ← Int.sub_eq_add_neg]
        rfl

section

variable [LawfulScalar K] {tree left right : Tree (CompoundUnit K)}

/-- A tree of reduced units is a reduced unit of entries of its leaves. -/
theorem exists_entries (reduced : ∀ unit ∈ tree.leaves, unit.IsReduced) :
    ∃ above below, tree.unit.HasEntries above below ∧
      above ⊆ tree.entries ∧ below ⊆ tree.entries := by
  induction tree with
  | leaf unit =>
      obtain ⟨above, below, entries⟩ := reduced unit (List.mem_singleton_self unit)
      refine ⟨above, below, entries, ?_, ?_⟩
      · refine List.Subset.trans (Side.subset_fill above) ?_
        rw [← entries.numerator_eq]
        exact List.subset_append_left _ _
      · refine List.Subset.trans (Side.subset_fill below) ?_
        rw [← entries.denominator_eq]
        exact List.subset_append_right _ _
  | node operator left right left_induction right_induction =>
      obtain ⟨left_above, left_below, left_entries, left_above_drawn, left_below_drawn⟩ :=
        left_induction fun unit member => reduced unit (List.mem_append_left _ member)
      obtain ⟨right_above, right_below, right_entries, right_above_drawn, right_below_drawn⟩ :=
        right_induction fun unit member => reduced unit (List.mem_append_right _ member)
      obtain ⟨left_subset, right_subset⟩ := entries_node operator left right
      -- In a quotient the sides of the divisor change places, which the pool does not see.
      have drawn {front back joined : Side K} (joined_subset : joined ⊆ front ++ back)
          (front_drawn : front ⊆ left.entries) (back_drawn : back ⊆ right.entries) :
          joined ⊆ (node operator left right).entries :=
        List.Subset.trans joined_subset (List.append_subset.mpr
          ⟨List.Subset.trans front_drawn left_subset, List.Subset.trans back_drawn right_subset⟩)
      cases operator
      · obtain ⟨above, below, entries, above_kept, below_kept⟩ :=
          left_entries.productWithFactor right_entries
        exact ⟨above, below, entries, drawn above_kept.subset left_above_drawn right_above_drawn,
          drawn below_kept.subset left_below_drawn right_below_drawn⟩
      · obtain ⟨above, below, entries, above_kept, below_kept⟩ :=
          left_entries.quotientWithFactor right_entries
        exact ⟨above, below, entries, drawn above_kept.subset left_above_drawn right_below_drawn,
          drawn below_kept.subset left_below_drawn right_above_drawn⟩

theorem exponent_unit (proper : tag ≠ noDimension)
    (reduced : ∀ unit ∈ tree.leaves, unit.IsReduced) :
    tree.unit.exponent tag = tree.exponent tag := by
  induction tree with
  | leaf unit => rfl
  | node operator left right left_induction right_induction =>
      have left_reduced : ∀ unit ∈ left.leaves, unit.IsReduced := fun unit member =>
        reduced unit (List.mem_append_left _ member)
      have right_reduced : ∀ unit ∈ right.leaves, unit.IsReduced := fun unit member =>
        reduced unit (List.mem_append_right _ member)
      obtain ⟨above, below, entries, -, -⟩ := exists_entries left_reduced
      rw [unit_node, CompoundUnit.exponent_combine proper entries.isDimensionless_placeholder,
        left_induction left_reduced, right_induction right_reduced]
      rfl

/-! ## One cancellation -/

omit [LawfulScalar K] in
theorem exponent_flat (proper : tag ≠ noDimension) (tree : Tree (CompoundUnit K)) :
    tree.flat.exponent tag = tree.exponent tag := by
  rw [flat, CompoundUnit.exponent_ofSides proper Side.isDimensionless_dimensionless,
    balance_simplify proper, balance_sides]

theorem exists_entries_flat (tree : Tree (CompoundUnit K)) :
    ∃ above below, tree.flat.HasEntries above below ∧
      above ⊆ tree.entries ∧ below ⊆ tree.entries := by
  rw [flat, simplify_eq_run]
  refine ⟨_, _, .ofSides_canonical (Cancellation.run_isReduced _ _ _), ?_, ?_⟩
  · intro entry member
    have kept := (Cancellation.run_numerator_subperm _ _ _).subset (Side.mem_canonical.mp member).1
    exact List.mem_append_left _ (Side.mem_canonical.mp kept).1
  · intro entry member
    have kept := (Cancellation.run_denominator_sublist _ _ _).subset
      (Side.mem_canonical.mp member).1
    exact List.mem_append_right _ (Side.mem_canonical.mp kept).1

/-- Where every dimension stands for one base unit, one cancellation gives the unit of a tree. -/
theorem beq_flat (reduced : ∀ unit ∈ tree.leaves, unit.IsReduced)
    (one_unit : Side.HasOneUnit tree.entries) : (tree.unit == tree.flat) = true := by
  obtain ⟨above, below, entries, drawn⟩ := exists_entries reduced
  obtain ⟨flat_above, flat_below, flat_entries, flat_drawn⟩ := exists_entries_flat tree
  refine entries.beq_of_exponent_eq flat_entries ?_ one_unit drawn flat_drawn
  intro tag proper
  rw [exponent_unit proper reduced, exponent_flat proper]

/-! ## Association -/

/--
Trees of given units with equal exponents have units of equal dimensions and of those exponents.  If
every dimension stands for one base unit in both, then their units are equal, and equal to what one
cancellation of all entries gives.
-/
theorem agree_of_exponent_eq {table : DefinitionTable K} {registry : Registry K}
    (built : Registry.ofTable table = .ok registry)
    (left_given : ∀ unit ∈ left.leaves, registry.Gives (.bare unit))
    (right_given : ∀ unit ∈ right.leaves, registry.Gives (.bare unit))
    (same : ∀ tag, tag ≠ noDimension → left.exponent tag = right.exponent tag) :
    left.unit.dimensionality = right.unit.dimensionality ∧
      (∀ tag, tag ≠ noDimension → left.unit.exponent tag = left.exponent tag ∧
        right.unit.exponent tag = left.exponent tag) ∧
      (Side.HasOneUnit (left.entries ++ right.entries) →
        (left.unit == right.unit) = true ∧ (left.unit == left.flat) = true ∧
          (right.unit == right.flat) = true) := by
  have left_reduced : ∀ unit ∈ left.leaves, unit.IsReduced := fun unit member =>
    Registry.isReduced_of_gives built (left_given unit member)
  have right_reduced : ∀ unit ∈ right.leaves, unit.IsReduced := fun unit member =>
    Registry.isReduced_of_gives built (right_given unit member)
  obtain ⟨left_above, left_below, left_entries, left_drawn⟩ := exists_entries left_reduced
  obtain ⟨right_above, right_below, right_entries, right_drawn⟩ := exists_entries right_reduced
  have unit_exponent : ∀ tag, tag ≠ noDimension →
      left.unit.exponent tag = right.unit.exponent tag := by
    intro tag proper
    rw [exponent_unit proper left_reduced, exponent_unit proper right_reduced, same tag proper]
  refine ⟨?_, ?_, ?_⟩
  · obtain ⟨above_eq, below_eq⟩ := left_entries.side_tags_eq right_entries unit_exponent
    rw [CompoundUnit.dimensionality, CompoundUnit.dimensionality, above_eq, below_eq]
  · intro tag proper
    have left_exponent := exponent_unit proper left_reduced
    exact ⟨left_exponent, (unit_exponent tag proper).symm.trans left_exponent⟩
  · intro one_unit
    refine ⟨?_, ?_, ?_⟩
    · exact left_entries.beq_of_exponent_eq right_entries unit_exponent one_unit
        ⟨List.subset_append_of_subset_left _ left_drawn.1,
          List.subset_append_of_subset_left _ left_drawn.2⟩
        ⟨List.subset_append_of_subset_right _ right_drawn.1,
          List.subset_append_of_subset_right _ right_drawn.2⟩
    · exact beq_flat left_reduced (one_unit.mono (List.subset_append_left _ _))
    · exact beq_flat right_reduced (one_unit.mono (List.subset_append_right _ _))

end

/-- A table of two dimensions and of the time that it takes to cover a length. -/
private def walk : DefinitionTable Float where
  prefixes := []
  dimensions :=
    [⟨dimensionlessName, [(dimensionlessName, .multiplier 1)]⟩,
      ⟨"length", [("meter", .multiplier 1)]⟩,
      ⟨"time", [("second", .multiplier 1), ("minute", .multiplier 60),
        ("pace", .composed ⟨some ["minute"], some ["meter"]⟩)]⟩]

/-- A length is cancelled from above the line in one tree, and from below in the other. -/
theorem agree_of_exponent_eq_pace :
    ∃ registry pace meter minute, Registry.ofTable walk = .ok registry ∧
      registry.lookup? "pace" = some pace ∧ registry.lookup? "meter" = some meter ∧
      registry.lookup? "minute" = some minute ∧
      (((pace.multiply meter).divide minute) == (pace.divide (minute.divide meter))) = true := by
  have computed : Outcome.passes (Registry.ofTable walk) (fun registry =>
      (registry.lookup? "pace").any fun pace => (registry.lookup? "meter").any fun meter =>
        (registry.lookup? "minute").any fun minute => decide (Side.HasOneUnit
          ((node .over (node .times (leaf pace) (leaf meter)) (leaf minute)).entries ++
            (node .over (leaf pace) (node .over (leaf minute) (leaf meter))).entries))) = true := by
    decide +kernel
  obtain ⟨registry, built, tests⟩ := Outcome.exists_of_passes computed
  simp only [Option.any_eq_true, decide_eq_true_eq] at tests
  obtain ⟨pace, pace_found, meter, meter_found, minute, minute_found, one_unit⟩ := tests
  refine ⟨registry, pace, meter, minute, built, pace_found, meter_found, minute_found, ?_⟩
  refine (agree_of_exponent_eq built ?_ ?_ ?_).2.2 one_unit |>.1
  · intro unit member
    simp only [leaves, List.mem_append, List.mem_singleton] at member
    rcases member with (rfl | rfl) | rfl
    · exact .lookup pace_found
    · exact .lookup meter_found
    · exact .lookup minute_found
  · intro unit member
    simp only [leaves, List.mem_append, List.mem_singleton] at member
    rcases member with rfl | rfl | rfl
    · exact .lookup pace_found
    · exact .lookup minute_found
    · exact .lookup meter_found
  · intro tag _
    simp only [exponent, Operator.onExponents]
    omega

end Expression.Tree
end UnitAlgebra
