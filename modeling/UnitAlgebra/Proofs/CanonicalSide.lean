import Mathlib.Data.List.Chain
import UnitAlgebra.Proofs.Cancellation
import UnitAlgebra.Proofs.Scalar

/-!
# Canonical sides

A side is canonical if it is sorted and all its entries have a dimension.  Bringing a side into
canonical form makes it canonical and changes no canonical side, and cancellation leaves two sides
without a common dimension as they are.
-/

namespace UnitAlgebra
namespace Side

variable {K : Type} [Scalar K]

/-- A side that is sorted and holds no unit without dimension. -/
structure IsCanonical (side : Side K) : Prop where
  /-- No entry comes after the next one in the canonical order. -/
  sorted : side.IsChain fun left right => (left.order right).isLE = true
  /-- All entries have a dimension. -/
  have_dimension : ∀ entry ∈ side, entry.isDimensionless = false

namespace IsCanonical

variable {left right : Side K}

theorem nil : IsCanonical ([] : Side K) :=
  ⟨.nil, by simp⟩

theorem singleton {entry : BaseUnit K} (has_dimension : entry.isDimensionless = false) :
    IsCanonical [entry] :=
  ⟨.singleton entry, by simpa using has_dimension⟩

theorem of_append_left (canonical : IsCanonical (left ++ right)) : IsCanonical left :=
  ⟨canonical.sorted.left_of_append, fun entry member =>
    canonical.have_dimension entry (List.mem_append_left right member)⟩

theorem of_append_right (canonical : IsCanonical (left ++ right)) : IsCanonical right :=
  ⟨canonical.sorted.right_of_append, fun entry member =>
    canonical.have_dimension entry (List.mem_append_right left member)⟩

end IsCanonical

/-! ## Sorting -/

theorem sort_eq_self {side : Side K}
    (sorted : side.IsChain fun left right => (left.order right).isLE = true) :
    sort side = side := by
  induction side with
  | nil => rfl
  | cons head tail induction =>
      change insert head (sort tail) = head :: tail
      rw [induction sorted.tail]
      cases tail with
      | nil => rfl
      | cons next rest =>
          rw [insert, if_pos (List.isChain_cons_cons.mp sorted).1]

theorem IsCanonical.canonical_eq {side : Side K} (canonical : IsCanonical side) :
    Side.canonical side = side := by
  rw [Side.canonical, dimensional_eq_self canonical.have_dimension, sort_eq_self canonical.sorted]

section

variable [LawfulScalar K]

theorem insert_isChain (unit : BaseUnit K) {side : Side K}
    (sorted : side.IsChain fun left right => (left.order right).isLE = true) :
    (insert unit side).IsChain fun left right => (left.order right).isLE = true := by
  induction side with
  | nil => exact .singleton unit
  | cons head tail induction =>
      rw [insert]
      split
      · rename_i before
        exact sorted.cons_cons before
      · rename_i after
        have head_before := BaseUnit.isLE_of_not_isLE after
        -- The entry after the head is the inserted one or the one that was there.
        refine (induction sorted.tail).cons fun next next_eq => ?_
        cases tail with
        | nil =>
            obtain rfl : unit = next := by simpa [insert] using next_eq
            exact head_before
        | cons second rest =>
            rw [insert] at next_eq
            split at next_eq
            · obtain rfl : unit = next := by simpa using next_eq
              exact head_before
            · obtain rfl : second = next := by simpa using next_eq
              exact (List.isChain_cons_cons.mp sorted).1

theorem sort_isChain (side : Side K) :
    (sort side).IsChain fun left right => (left.order right).isLE = true := by
  induction side with
  | nil => exact .nil
  | cons head tail induction => exact insert_isChain head induction

theorem canonical_isCanonical (side : Side K) : IsCanonical (canonical side) :=
  ⟨sort_isChain _, fun _ member => (mem_canonical.mp member).2⟩

end

/-! ## Filling an empty side -/

/-- A side as a unit holds it: the standard placeholder stands on an empty one. -/
def fill : Side K → Side K
  | [] => [.dimensionless]
  | head :: tail => head :: tail

theorem exists_fill_eq_cons (side : Side K) : ∃ first rest, fill side = first :: rest := by
  cases side with
  | nil => exact ⟨_, _, rfl⟩
  | cons head tail => exact ⟨_, _, rfl⟩

theorem mem_of_mem_fill {side : Side K} {entry : BaseUnit K} (member : entry ∈ fill side) :
    entry ∈ side ∨ entry = .dimensionless := by
  cases side with
  | nil => exact .inr (List.mem_singleton.mp member)
  | cons head tail => exact .inl member

theorem normalize_eq_fill (side : Side K) :
    normalize .dimensionless side = fill (canonical side) := by
  rw [normalize]
  cases canonical side with
  | nil => rfl
  | cons head tail => rfl

theorem isDimensionless_dimensionless :
    (BaseUnit.dimensionless : BaseUnit K).isDimensionless = true :=
  beq_self_eq_true _

theorem isPlaceholder_fill {side : Side K}
    (have_dimension : ∀ entry ∈ side, entry.isDimensionless = false) :
    isPlaceholder (fill side) = true ↔ side = [] := by
  cases side with
  | nil => simp [fill, isPlaceholder, isDimensionless_dimensionless]
  | cons head tail => simp [fill, isPlaceholder, have_dimension head]

theorem fill_isFilled {side : Side K}
    (have_dimension : ∀ entry ∈ side, entry.isDimensionless = false) :
    IsFilled .dimensionless (fill side) := by
  cases side with
  | nil => exact .placeholder
  | cons head tail => exact .entries (by simp [fill]) have_dimension

theorem dimensional_fill {side : Side K}
    (have_dimension : ∀ entry ∈ side, entry.isDimensionless = false) :
    dimensional (fill side) = side := by
  cases side with
  | nil => simp [fill, dimensional, isDimensionless_dimensionless]
  | cons head tail => exact dimensional_eq_self have_dimension

theorem isPlaceholder_of_beq {left right : Side K} (equal : (left == right) = true) :
    isPlaceholder left = isPlaceholder right := by
  induction left generalizing right with
  | nil =>
      cases right with
      | nil => rfl
      | cons head tail => cases equal
  | cons left_head left_tail induction =>
      cases right with
      | nil => cases equal
      | cons head tail =>
          rw [List.cons_beq_cons, Bool.and_eq_true] at equal
          obtain ⟨head_equal, tail_equal⟩ := equal
          have same_dimension : left_head.dimension = head.dimension := by
            change BaseUnit.equals left_head head = true at head_equal
            simp only [BaseUnit.equals, Bool.and_eq_true, beq_iff_eq] at head_equal
            exact head_equal.1.1
          have tail_same : left_tail.all BaseUnit.isDimensionless =
              tail.all BaseUnit.isDimensionless := induction tail_equal
          rw [isPlaceholder, isPlaceholder, List.all_cons, List.all_cons, tail_same,
            BaseUnit.isDimensionless, BaseUnit.isDimensionless, same_dimension]

theorem canonical_fill_append {left right : Side K}
    (left_dimension : ∀ entry ∈ left, entry.isDimensionless = false)
    (right_dimension : ∀ entry ∈ right, entry.isDimensionless = false) :
    canonical (fill left ++ fill right) = sort (left ++ right) := by
  rw [canonical, dimensional_append, dimensional_fill left_dimension,
    dimensional_fill right_dimension]

end Side

/-! ## Sides without a common dimension -/

/-- No entry of one side has the dimension of an entry of the other. -/
def Side.Apart {K : Type} [Scalar K] (above below : Side K) : Prop :=
  ∀ upper ∈ above, ∀ lower ∈ below, upper.dimension ≠ lower.dimension

theorem Side.Apart.mono {K : Type} [Scalar K] {above below fewer_above fewer_below : Side K}
    (apart : Side.Apart above below) (above_subset : fewer_above ⊆ above)
    (below_subset : fewer_below ⊆ below) : Side.Apart fewer_above fewer_below :=
  fun upper upper_member lower lower_member =>
    apart upper (above_subset upper_member) lower (below_subset lower_member)

/-- Cancellation leaves sides without a common dimension as they are. -/
theorem Cancellation.run_of_apart {K : Type} [Scalar K] {above below : Side K}
    (apart : Side.Apart above below) (factor : K) :
    Cancellation.run above factor below = ⟨above, below, factor⟩ := by
  induction below with
  | nil => rfl
  | cons entry rest induction =>
      have rest_eq := induction (apart.mono (List.Subset.refl _) (List.subset_cons_self entry rest))
      rw [run]
      split
      · rename_i found others taken
        obtain ⟨same, permuted⟩ := Side.takeDimension?_eq_some taken
        exact absurd same
          (apart found (permuted.mem_iff.mpr List.mem_cons_self) entry List.mem_cons_self)
      · rw [rest_eq]

end UnitAlgebra
