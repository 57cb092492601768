import UnitAlgebra.Proofs.CanonicalOrder
import UnitAlgebra.Proofs.Reduction

/-!
# Exponents of dimensions

The exponent of a dimension in a unit is how often it occurs above the line less how often below.
Cancelling takes one entry of a dimension from either side, so it keeps the exponents: products add
them and quotients subtract them.  A reduced unit has a dimension on one side at most, so that its
exponents determine which dimensions its sides have, in which order and how often.
-/

namespace UnitAlgebra

variable {K : Type} [Scalar K]

/-- The tag of the dimension that stands for no dimension. -/
def noDimension : String :=
  dimensionTag dimensionlessName

theorem BaseUnit.isDimensionless_iff {unit : BaseUnit K} :
    unit.isDimensionless = true ↔ unit.dimension = noDimension :=
  beq_iff_eq

/-- What an operator does to the exponents of its operands. -/
def Operator.onExponents : Operator → Int → Int → Int
  | .times, left, right => left + right
  | .over, left, right => left - right

namespace Side

variable {tag : String}

/-! ## Counts -/

theorem count_tags_perm {left right : Side K} (permuted : left.Perm right) (tag : String) :
    (tags left).count tag = (tags right).count tag :=
  (permuted.map BaseUnit.dimension).count_eq tag

theorem count_tags_dimensional (proper : tag ≠ noDimension) (side : Side K) :
    (tags (dimensional side)).count tag = (tags side).count tag := by
  induction side with
  | nil => rfl
  | cons head tail induction =>
      change (tags (List.filter _ (head :: tail))).count tag =
        (head.dimension :: tags tail).count tag
      cases empty : head.isDimensionless with
      | true =>
          have head_ne : head.dimension ≠ tag := fun same =>
            proper (same ▸ BaseUnit.isDimensionless_iff.mp empty)
          rw [List.filter_cons_of_neg (by simp [empty]), List.count_cons_of_ne head_ne]
          exact induction
      | false =>
          rw [List.filter_cons_of_pos (by simp [empty])]
          change (head.dimension :: tags (dimensional tail)).count tag = _
          rw [List.count_cons, List.count_cons, induction]

theorem count_tags_canonical (proper : tag ≠ noDimension) (side : Side K) :
    (tags (canonical side)).count tag = (tags side).count tag := by
  rw [count_tags_perm (canonical_perm side), count_tags_dimensional proper]

theorem count_tags_eq_zero (proper : tag ≠ noDimension) {side : Side K}
    (empty : isPlaceholder side = true) : (tags side).count tag = 0 := by
  rw [← count_tags_dimensional proper, dimensional_eq_nil empty]
  rfl

theorem count_tags_normalize (proper : tag ≠ noDimension) {placeholder : BaseUnit K}
    (empty : placeholder.isDimensionless = true) (side : Side K) :
    (tags (normalize placeholder side)).count tag = (tags side).count tag := by
  rw [← count_tags_canonical proper side, normalize]
  split
  · rename_i canonical_eq
    rw [canonical_eq, count_tags_eq_zero proper (by simp [isPlaceholder, empty])]
    rfl
  · rename_i canonical_eq
    rw [canonical_eq]

theorem count_tags_fill (proper : tag ≠ noDimension) (side : Side K) :
    (tags (fill side)).count tag = (tags side).count tag := by
  cases side with
  | nil => exact count_tags_eq_zero proper ((isPlaceholder_fill (by simp)).mpr rfl)
  | cons head tail => rfl

theorem IsCanonical.count_tags_noDimension {side : Side K} (canonical : IsCanonical side) :
    (tags side).count noDimension = 0 := by
  rw [List.count_eq_zero]
  intro member
  obtain ⟨entry, entry_member, dimension_eq⟩ := List.mem_map.mp member
  have has_dimension := canonical.have_dimension entry entry_member
  rw [BaseUnit.isDimensionless_iff.mpr dimension_eq] at has_dimension
  cases has_dimension

theorem IsCanonical.tags_eq_of_count_eq {left right : Side K} (left_canonical : IsCanonical left)
    (right_canonical : IsCanonical right)
    (counts : ∀ tag, tag ≠ noDimension → (tags left).count tag = (tags right).count tag) :
    tags left = tags right := by
  have permuted : (tags left).Perm (tags right) := by
    rw [List.perm_iff_count]
    intro tag
    by_cases proper : tag = noDimension
    · rw [proper, left_canonical.count_tags_noDimension, right_canonical.count_tags_noDimension]
    · exact counts tag proper
  refine List.Perm.eq_of_pairwise ?_ left_canonical.pairwise_tags right_canonical.pairwise_tags
    permuted
  intro tag tag' _ _ first second
  exact Std.LawfulEqOrd.eq_of_compare (Std.OrientedCmp.isLE_antisymm first second)

/-! ## Balances -/

/-- How often a dimension occurs on one side more than on another. -/
def balance (tag : String) (above below : Side K) : Int :=
  (tags above).count tag - (tags below).count tag

theorem balance_append (tag : String) (above more_above below more_below : Side K) :
    balance tag (above ++ more_above) (below ++ more_below) =
      balance tag above below + balance tag more_above more_below := by
  simp only [balance, tags_append, List.count_append]
  omega

theorem balance_swap (tag : String) (above below : Side K) :
    balance tag below above = -balance tag above below := by
  rw [balance, balance]
  omega

theorem balance_congr {above above' below below' : Side K}
    (above_eq : (tags above).count tag = (tags above').count tag)
    (below_eq : (tags below).count tag = (tags below').count tag) :
    balance tag above below = balance tag above' below' := by
  rw [balance, balance, above_eq, below_eq]

end Side

/-! ## Cancellation -/

namespace Cancellation

theorem Removes.tags_eq {left : Cancellation K} {numerator denominator : Side K} {factor : K}
    {pairs : List (BaseUnit K × BaseUnit K)}
    (removes : left.Removes numerator factor denominator pairs) :
    Side.tags (pairs.map Prod.fst) = Side.tags (pairs.map Prod.snd) := by
  rw [Side.tags, Side.tags, List.map_map, List.map_map]
  exact List.map_congr_left removes.same_dimension

theorem Removes.balance_eq {left : Cancellation K} {numerator denominator : Side K} {factor : K}
    {pairs : List (BaseUnit K × BaseUnit K)}
    (removes : left.Removes numerator factor denominator pairs) (tag : String) :
    Side.balance tag left.numerator left.denominator =
      Side.balance tag numerator denominator := by
  have removed_balance : Side.balance tag (pairs.map Prod.fst) (pairs.map Prod.snd) = 0 := by
    rw [Side.balance, removes.tags_eq, Int.sub_self]
  rw [Side.balance_congr (Side.count_tags_perm removes.numerator_perm tag)
    (Side.count_tags_perm removes.denominator_perm tag), Side.balance_append, removed_balance,
    Int.zero_add]

end Cancellation

/-- Cancellation keeps how often a dimension occurs above the line more than below. -/
theorem balance_simplify {tag : String} (proper : tag ≠ noDimension)
    (numerator denominator : Side K) :
    Side.balance tag (simplify numerator denominator).numerator
        (simplify numerator denominator).denominator =
      Side.balance tag numerator denominator := by
  obtain ⟨pairs, removes⟩ :=
    Cancellation.exists_run_removes (Side.canonical numerator) 1 (Side.canonical denominator)
  rw [simplify_eq_run, removes.balance_eq]
  exact Side.balance_congr (Side.count_tags_canonical proper numerator)
    (Side.count_tags_canonical proper denominator)

namespace CompoundUnit

variable {tag : String} {left right unit : CompoundUnit K}

/-! ## Exponents of units -/

/-- How often a dimension occurs above the line less how often below. -/
def exponent (unit : CompoundUnit K) (tag : String) : Int :=
  Side.balance tag unit.numerator unit.denominator

theorem exponent_eq_zero (proper : tag ≠ noDimension) (empty : unit.isDimensionless = true) :
    unit.exponent tag = 0 := by
  obtain ⟨above_empty, below_empty⟩ := Bool.and_eq_true_iff.mp empty
  rw [exponent, Side.balance, Side.count_tags_eq_zero proper above_empty,
    Side.count_tags_eq_zero proper below_empty]
  rfl

theorem exponent_ofSides (proper : tag ≠ noDimension) {placeholder : BaseUnit K}
    (empty : placeholder.isDimensionless = true) (above below : Side K) :
    (ofSides above below placeholder).exponent tag = Side.balance tag above below :=
  Side.balance_congr (Side.count_tags_normalize proper empty above)
    (Side.count_tags_normalize proper empty below)

theorem exponent_extend (proper : tag ≠ noDimension)
    (empty : unit.placeholder.isDimensionless = true) (above below : Side K) :
    (unit.extend above below).1.exponent tag =
      unit.exponent tag + Side.balance tag above below := by
  rw [extend, exponent_ofSides proper empty, balance_simplify proper, Side.balance_append]
  rfl

theorem exponent_productWithFactor (proper : tag ≠ noDimension)
    (empty : left.placeholder.isDimensionless = true) :
    (left.productWithFactor right).1.exponent tag = left.exponent tag + right.exponent tag := by
  rw [productWithFactor]
  split
  · rename_i right_empty
    rw [exponent_eq_zero proper right_empty, Int.add_zero]
  · split
    · rename_i left_empty
      rw [exponent_eq_zero proper left_empty, Int.zero_add]
    · exact exponent_extend proper empty _ _

theorem exponent_quotientWithFactor (proper : tag ≠ noDimension)
    (empty : left.placeholder.isDimensionless = true) :
    (left.quotientWithFactor right).1.exponent tag = left.exponent tag - right.exponent tag := by
  rw [quotientWithFactor]
  split
  · rename_i right_empty
    rw [exponent_eq_zero proper right_empty, Int.sub_zero]
  · rw [exponent_extend proper empty, Side.balance_swap, ← Int.sub_eq_add_neg]
    rfl

theorem exponent_combine (proper : tag ≠ noDimension)
    (empty : left.placeholder.isDimensionless = true) (operator : Operator) :
    (left.combine operator right).1.exponent tag =
      operator.onExponents (left.exponent tag) (right.exponent tag) := by
  cases operator
  · exact exponent_productWithFactor proper empty
  · exact exponent_quotientWithFactor proper empty

/-! ## Dimensions of reduced units -/

namespace HasEntries

variable {above below left_above left_below right_above right_below : Side K}

theorem exponent_eq (entries : unit.HasEntries above below) (proper : tag ≠ noDimension) :
    unit.exponent tag = Side.balance tag above below := by
  rw [exponent, entries.numerator_eq, entries.denominator_eq]
  exact Side.balance_congr (Side.count_tags_fill proper above) (Side.count_tags_fill proper below)

theorem count_tags_eq (entries : unit.HasEntries above below) (proper : tag ≠ noDimension) :
    (Side.tags above).count tag = (unit.exponent tag).toNat ∧
      (Side.tags below).count tag = (-unit.exponent tag).toNat := by
  have one_side : (Side.tags above).count tag = 0 ∨ (Side.tags below).count tag = 0 := by
    by_contra both
    rw [not_or, List.count_eq_zero, List.count_eq_zero, not_not, not_not] at both
    obtain ⟨upper, upper_member, upper_eq⟩ := List.mem_map.mp both.1
    obtain ⟨lower, lower_member, lower_eq⟩ := List.mem_map.mp both.2
    exact entries.apart upper upper_member lower lower_member (upper_eq.trans lower_eq.symm)
  rw [entries.exponent_eq proper, Side.balance]
  omega

theorem tags_eq_of_exponent_eq (left_entries : left.HasEntries left_above left_below)
    (right_entries : right.HasEntries right_above right_below)
    (same : ∀ tag, tag ≠ noDimension → left.exponent tag = right.exponent tag) :
    Side.tags left_above = Side.tags right_above ∧
      Side.tags left_below = Side.tags right_below := by
  constructor
  · refine left_entries.above_canonical.tags_eq_of_count_eq right_entries.above_canonical ?_
    intro tag proper
    rw [(left_entries.count_tags_eq proper).1, (right_entries.count_tags_eq proper).1,
      same tag proper]
  · refine left_entries.below_canonical.tags_eq_of_count_eq right_entries.below_canonical ?_
    intro tag proper
    rw [(left_entries.count_tags_eq proper).2, (right_entries.count_tags_eq proper).2,
      same tag proper]

end HasEntries

end CompoundUnit
end UnitAlgebra
