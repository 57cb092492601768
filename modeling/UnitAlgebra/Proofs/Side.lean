import Mathlib.Data.List.Forall2
import Mathlib.Data.List.Perm.Basic
import Mathlib.Data.List.Perm.Subperm
import UnitAlgebra.CompoundUnit

/-!
# Entries of sides

Sorting, dropping the entries without dimension and taking out an entry permute or shorten a side;
none of them invents an entry.  A side is filled if it holds the placeholder alone or some entries
that all have a dimension, and every unit that is made with the standard placeholder has two filled
sides.
-/

namespace UnitAlgebra
namespace Side

variable {K : Type} [Scalar K]

/-! ## Sorting -/

theorem insert_perm (unit : BaseUnit K) (side : Side K) :
    (insert unit side).Perm (unit :: side) := by
  induction side with
  | nil => exact List.Perm.refl _
  | cons head tail induction =>
      rw [insert]
      split
      · exact List.Perm.refl _
      · exact (induction.cons head).trans (List.Perm.swap unit head tail)

theorem sort_perm (side : Side K) : (sort side).Perm side := by
  induction side with
  | nil => exact List.Perm.refl _
  | cons head tail induction => exact (insert_perm head (sort tail)).trans (induction.cons head)

theorem canonical_perm (side : Side K) : (canonical side).Perm (dimensional side) :=
  sort_perm (dimensional side)

theorem canonical_subperm (side : Side K) : (canonical side).Subperm side :=
  (canonical_perm side).subperm.trans List.filter_sublist.subperm

theorem tags_append (left right : Side K) : tags (left ++ right) = tags left ++ tags right :=
  List.map_append

theorem tags_eq_iff {left right : Side K} :
    tags left = tags right ↔
      List.Forall₂ (fun entry other => entry.dimension = other.dimension) left right := by
  rw [tags, tags, ← List.forall₂_eq_eq_eq, List.forall₂_map_left_iff, List.forall₂_map_right_iff]

/-! ## Entries with a dimension -/

theorem mem_dimensional {unit : BaseUnit K} {side : Side K} :
    unit ∈ dimensional side ↔ unit ∈ side ∧ unit.isDimensionless = false := by
  simp [dimensional]

theorem mem_canonical {unit : BaseUnit K} {side : Side K} :
    unit ∈ canonical side ↔ unit ∈ side ∧ unit.isDimensionless = false := by
  rw [(canonical_perm side).mem_iff, mem_dimensional]

theorem dimensional_append (left right : Side K) :
    dimensional (left ++ right) = dimensional left ++ dimensional right :=
  List.filter_append left right

theorem dimensional_eq_self {side : Side K}
    (have_dimension : ∀ entry ∈ side, entry.isDimensionless = false) :
    dimensional side = side := by
  apply List.filter_eq_self.mpr
  intro entry member
  simp [have_dimension entry member]

theorem dimensional_eq_nil {side : Side K} (empty : isPlaceholder side = true) :
    dimensional side = [] := by
  apply List.filter_eq_nil_iff.mpr
  intro entry member
  simp [List.all_eq_true.mp empty entry member]

/-! ## Taking out an entry -/

theorem takeDimension?_eq_some {dimension : String} {side rest : Side K} {found : BaseUnit K}
    (taken : takeDimension? dimension side = some (found, rest)) :
    found.dimension = dimension ∧ side.Perm (found :: rest) := by
  induction side generalizing found rest with
  | nil => simp [takeDimension?] at taken
  | cons head tail induction =>
      rw [takeDimension?] at taken
      split at taken
      · obtain ⟨rfl, rfl⟩ : head = found ∧ tail = rest := by simpa using taken
        exact ⟨‹_›, List.Perm.refl _⟩
      · obtain ⟨⟨entry, others⟩, inner, equal⟩ := Option.map_eq_some_iff.mp taken
        obtain ⟨rfl, rfl⟩ : entry = found ∧ head :: others = rest := by simpa using equal
        obtain ⟨has_dimension, permuted⟩ := induction inner
        exact ⟨has_dimension, (permuted.cons head).trans (List.Perm.swap entry head others)⟩

theorem takeDimension?_sublist {dimension : String} {side rest : Side K} {found : BaseUnit K}
    (taken : takeDimension? dimension side = some (found, rest)) : rest.Sublist side := by
  induction side generalizing rest with
  | nil => simp [takeDimension?] at taken
  | cons head tail induction =>
      rw [takeDimension?] at taken
      split at taken
      · obtain ⟨rfl, rfl⟩ : head = found ∧ tail = rest := by simpa using taken
        exact List.sublist_cons_self head tail
      · obtain ⟨⟨entry, others⟩, inner, equal⟩ := Option.map_eq_some_iff.mp taken
        obtain ⟨rfl, rfl⟩ : entry = found ∧ head :: others = rest := by simpa using equal
        exact (induction inner).cons_cons head

theorem takeDimension?_eq_none {dimension : String} {side : Side K}
    (missing : takeDimension? dimension side = none) :
    ∀ entry ∈ side, entry.dimension ≠ dimension := by
  induction side with
  | nil => simp
  | cons head tail induction =>
      rw [takeDimension?] at missing
      split at missing
      · simp at missing
      · intro entry member
        rcases List.mem_cons.mp member with rfl | later
        · assumption
        · exact induction (Option.map_eq_none_iff.mp missing) entry later

/-! ## Filled sides -/

/-- A side holds the placeholder alone, or some entries that all have a dimension. -/
inductive IsFilled (placeholder : BaseUnit K) : Side K → Prop where
  /-- The placeholder alone. -/
  | placeholder : IsFilled placeholder [placeholder]
  /-- Some entries that all have a dimension. -/
  | entries {side : Side K} (nonempty : side ≠ [])
      (have_dimension : ∀ entry ∈ side, entry.isDimensionless = false) :
      IsFilled placeholder side

theorem IsFilled.ne_nil {placeholder : BaseUnit K} {side : Side K}
    (filled : IsFilled placeholder side) : side ≠ [] := by
  cases filled with
  | placeholder => simp
  | entries nonempty _ => exact nonempty

theorem normalize_isFilled (placeholder : BaseUnit K) (side : Side K) :
    IsFilled placeholder (normalize placeholder side) := by
  rw [normalize]
  split
  · exact .placeholder
  · rename_i head tail canonical_eq
    refine .entries (by simp) fun entry member => ?_
    rw [← canonical_eq] at member
    exact (mem_canonical.mp member).2

end Side

namespace CompoundUnit

variable {K : Type} [Scalar K]

/-- A unit whose placeholder is the standard one and whose two sides are filled. -/
structure IsStandard (unit : CompoundUnit K) : Prop where
  /-- The placeholder is the unit that stands for no dimension. -/
  placeholder_eq : unit.placeholder = .dimensionless
  /-- The side above the line is filled. -/
  numerator : Side.IsFilled .dimensionless unit.numerator
  /-- The side below the line is filled. -/
  denominator : Side.IsFilled .dimensionless unit.denominator

theorem ofSides_isStandard (numerator denominator : Side K) :
    (ofSides numerator denominator .dimensionless).IsStandard :=
  ⟨rfl, Side.normalize_isFilled _ _, Side.normalize_isFilled _ _⟩

theorem IsStandard.withLabel {unit : CompoundUnit K} (standard : unit.IsStandard) (name : String) :
    (unit.withLabel name).IsStandard :=
  ⟨standard.placeholder_eq, standard.numerator, standard.denominator⟩

theorem IsStandard.dimensionless {unit : CompoundUnit K} (standard : unit.IsStandard) :
    unit.dimensionless.IsStandard := by
  rw [CompoundUnit.dimensionless, standard.placeholder_eq]
  exact ofSides_isStandard [] []

theorem IsStandard.extend {unit : CompoundUnit K} (standard : unit.IsStandard)
    (above below : Side K) : (unit.extend above below).1.IsStandard := by
  simp only [CompoundUnit.extend, standard.placeholder_eq]
  exact ofSides_isStandard _ _

theorem IsStandard.productWithFactor {left right : CompoundUnit K} (left_standard : left.IsStandard)
    (right_standard : right.IsStandard) : (left.productWithFactor right).1.IsStandard := by
  rw [CompoundUnit.productWithFactor]
  split
  · exact left_standard
  · split
    · exact right_standard
    · exact left_standard.extend _ _

theorem IsStandard.quotientWithFactor {left : CompoundUnit K} (left_standard : left.IsStandard)
    (right : CompoundUnit K) : (left.quotientWithFactor right).1.IsStandard := by
  rw [CompoundUnit.quotientWithFactor]
  split
  · exact left_standard
  · exact left_standard.extend _ _

theorem IsStandard.combine {left right : CompoundUnit K} (left_standard : left.IsStandard)
    (right_standard : right.IsStandard) (operator : Operator) :
    (left.combine operator right).1.IsStandard := by
  cases operator
  · exact left_standard.productWithFactor right_standard
  · exact left_standard.quotientWithFactor right

theorem IsStandard.multiplyTimes {unit product : CompoundUnit K} (unit_standard : unit.IsStandard)
    (product_standard : product.IsStandard) (count : Nat) :
    (unit.multiplyTimes product count).IsStandard := by
  induction count generalizing product with
  | zero => exact product_standard
  | succ count induction => exact induction (product_standard.productWithFactor unit_standard)

end CompoundUnit
end UnitAlgebra
