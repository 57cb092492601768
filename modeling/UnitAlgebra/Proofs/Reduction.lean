import UnitAlgebra.Proofs.CanonicalSide

/-!
# Reduced units

A unit is reduced if both sides are canonical, up to a placeholder on an empty side, and share no
dimension.  Products and quotients of reduced units are reduced and have no entries but those of
their operands; where nothing cancels and the entries of the operands come in order, they have all
of them, and no factor is incurred.
-/

namespace UnitAlgebra
namespace CompoundUnit

variable {K : Type} [Scalar K]

/-- A reduced unit with given entries above and below the line. -/
structure HasEntries (unit : CompoundUnit K) (above below : Side K) : Prop where
  /-- The placeholder is the unit that stands for no dimension. -/
  placeholder_eq : unit.placeholder = .dimensionless
  /-- The entries above the line. -/
  numerator_eq : unit.numerator = Side.fill above
  /-- The entries below the line. -/
  denominator_eq : unit.denominator = Side.fill below
  /-- The side above the line is canonical. -/
  above_canonical : Side.IsCanonical above
  /-- The side below the line is canonical. -/
  below_canonical : Side.IsCanonical below
  /-- The sides share no dimension. -/
  apart : Side.Apart above below

namespace HasEntries

variable {unit left right : CompoundUnit K}
variable {above below more_above more_below : Side K}

theorem isDimensionless_iff (entries : unit.HasEntries above below) :
    unit.isDimensionless = true ↔ above = [] ∧ below = [] := by
  rw [isDimensionless, Bool.and_eq_true, entries.numerator_eq, entries.denominator_eq,
    Side.isPlaceholder_fill entries.above_canonical.have_dimension,
    Side.isPlaceholder_fill entries.below_canonical.have_dimension]

theorem isPlaceholder_denominator_iff (entries : unit.HasEntries above below) :
    Side.isPlaceholder unit.denominator = true ↔ below = [] := by
  rw [entries.denominator_eq, Side.isPlaceholder_fill entries.below_canonical.have_dimension]

theorem isStandard (entries : unit.HasEntries above below) : unit.IsStandard where
  placeholder_eq := entries.placeholder_eq
  numerator := by
    rw [entries.numerator_eq]
    exact Side.fill_isFilled entries.above_canonical.have_dimension
  denominator := by
    rw [entries.denominator_eq]
    exact Side.fill_isFilled entries.below_canonical.have_dimension

theorem isDimensionless_placeholder (entries : unit.HasEntries above below) :
    unit.placeholder.isDimensionless = true := by
  rw [entries.placeholder_eq]
  exact Side.isDimensionless_dimensionless

theorem withLabel (entries : unit.HasEntries above below) (name : String) :
    (unit.withLabel name).HasEntries above below :=
  ⟨entries.placeholder_eq, entries.numerator_eq, entries.denominator_eq, entries.above_canonical,
    entries.below_canonical, entries.apart⟩

theorem beq [LawfulScalar K] (left_entries : left.HasEntries above below)
    (right_entries : right.HasEntries above below) : (left == right) = true := by
  change (left.numerator == right.numerator && left.denominator == right.denominator) = true
  rw [left_entries.numerator_eq, left_entries.denominator_eq, right_entries.numerator_eq,
    right_entries.denominator_eq, beq_self_eq_true, beq_self_eq_true]
  rfl

theorem eq_nil_of_beq (left_entries : left.HasEntries above below)
    (right_entries : right.HasEntries [] []) (equal : (left == right) = true) :
    above = [] ∧ below = [] := by
  change (left.numerator == right.numerator && left.denominator == right.denominator) = true
    at equal
  obtain ⟨numerator_equal, denominator_equal⟩ := Bool.and_eq_true_iff.mp equal
  rw [← left_entries.isDimensionless_iff, isDimensionless,
    Side.isPlaceholder_of_beq numerator_equal, Side.isPlaceholder_of_beq denominator_equal]
  exact right_entries.isDimensionless_iff.mpr ⟨rfl, rfl⟩

/-! ## Construction -/

theorem ofSides (above_canonical : Side.IsCanonical above)
    (below_canonical : Side.IsCanonical below) (apart : Side.Apart above below) :
    (CompoundUnit.ofSides above below .dimensionless).HasEntries above below := by
  rw [CompoundUnit.ofSides, Side.normalize_eq_fill, Side.normalize_eq_fill,
    above_canonical.canonical_eq, below_canonical.canonical_eq]
  exact ⟨rfl, rfl, rfl, above_canonical, below_canonical, apart⟩

/-- Whatever sides a unit is made of, their canonical forms are its entries. -/
theorem ofSides_canonical [LawfulScalar K] (apart : Side.Apart above below) :
    (CompoundUnit.ofSides above below .dimensionless).HasEntries (Side.canonical above)
      (Side.canonical below) := by
  rw [CompoundUnit.ofSides, Side.normalize_eq_fill, Side.normalize_eq_fill]
  refine ⟨rfl, rfl, rfl, Side.canonical_isCanonical above, Side.canonical_isCanonical below, ?_⟩
  exact apart.mono (fun entry member => (Side.mem_canonical.mp member).1)
    fun entry member => (Side.mem_canonical.mp member).1

theorem dimensionless :
    (CompoundUnit.ofSides ([] : Side K) [] .dimensionless).HasEntries [] [] :=
  ofSides .nil .nil (by simp [Side.Apart])

theorem singleton_of_isDimensionless {entry : BaseUnit K}
    (no_dimension : entry.isDimensionless = true) :
    (CompoundUnit.ofSides [entry] [] .dimensionless).HasEntries [] [] := by
  have sides_eq : CompoundUnit.ofSides [entry] [] .dimensionless =
      CompoundUnit.ofSides [] [] .dimensionless := by
    simp [CompoundUnit.ofSides, Side.normalize, Side.canonical, Side.dimensional, no_dimension]
  rw [sides_eq]
  exact dimensionless

theorem singleton {entry : BaseUnit K} (has_dimension : entry.isDimensionless = false) :
    (CompoundUnit.ofSides [entry] [] .dimensionless).HasEntries [entry] [] :=
  ofSides (.singleton has_dimension) .nil (by simp [Side.Apart])

/-! ## Further entries -/

theorem extend_eq (entries : unit.HasEntries above below)
    (above_dimension : ∀ entry ∈ more_above, entry.isDimensionless = false)
    (below_dimension : ∀ entry ∈ more_below, entry.isDimensionless = false) :
    unit.extend (Side.fill more_above) (Side.fill more_below) =
      (let reduced := Cancellation.run (Side.sort (above ++ more_above)) 1
          (Side.sort (below ++ more_below))
      (CompoundUnit.ofSides reduced.numerator reduced.denominator .dimensionless,
        reduced.factor)) := by
  rw [extend, simplify_eq_run, entries.placeholder_eq, entries.numerator_eq, entries.denominator_eq,
    Side.canonical_fill_append entries.above_canonical.have_dimension above_dimension,
    Side.canonical_fill_append entries.below_canonical.have_dimension below_dimension]

/-- Entries that come in order after those of a unit and do not cancel are appended. -/
theorem extend_of_apart (entries : unit.HasEntries above below)
    (above_canonical : Side.IsCanonical (above ++ more_above))
    (below_canonical : Side.IsCanonical (below ++ more_below))
    (apart : Side.Apart (above ++ more_above) (below ++ more_below)) :
    unit.extend (Side.fill more_above) (Side.fill more_below) =
      (CompoundUnit.ofSides (above ++ more_above) (below ++ more_below) .dimensionless, 1) := by
  rw [entries.extend_eq above_canonical.of_append_right.have_dimension
    below_canonical.of_append_right.have_dimension, Side.sort_eq_self above_canonical.sorted,
    Side.sort_eq_self below_canonical.sorted, Cancellation.run_of_apart apart]

end HasEntries

/-! ## Entries of products and quotients -/

theorem label_combine (operator : Operator) (left right : CompoundUnit K) :
    (left.combine operator right).1 = left ∨ (left.combine operator right).1 = right ∨
      (left.combine operator right).1.label = none := by
  cases operator
  · rw [combine, productWithFactor]
    split
    · exact .inl rfl
    · split
      · exact .inr (.inl rfl)
      · exact .inr (.inr rfl)
  · rw [combine, quotientWithFactor]
    split
    · exact .inl rfl
    · exact .inr (.inr rfl)

namespace HasEntries

variable {unit left right : CompoundUnit K}
variable {above below left_above left_below right_above right_below : Side K}

/-- Nothing is added to the entries of a reduced unit and some more when they are joined. -/
theorem extend [LawfulScalar K] {more_above more_below : Side K}
    (entries : unit.HasEntries above below)
    (above_dimension : ∀ entry ∈ more_above, entry.isDimensionless = false)
    (below_dimension : ∀ entry ∈ more_below, entry.isDimensionless = false) :
    ∃ kept_above kept_below,
      (unit.extend (Side.fill more_above) (Side.fill more_below)).1.HasEntries kept_above
          kept_below ∧
        kept_above.Subperm (above ++ more_above) ∧ kept_below.Subperm (below ++ more_below) := by
  rw [entries.extend_eq above_dimension below_dimension]
  refine ⟨_, _, HasEntries.ofSides_canonical ?_, ?_, ?_⟩
  · exact Cancellation.run_isReduced _ _ _
  · have kept := Cancellation.run_numerator_subperm (Side.sort (above ++ more_above)) 1
      (Side.sort (below ++ more_below))
    exact ((Side.canonical_subperm _).trans kept).trans (Side.sort_perm _).subperm
  · have kept := Cancellation.run_denominator_sublist (Side.sort (above ++ more_above)) 1
      (Side.sort (below ++ more_below))
    exact ((Side.canonical_subperm _).trans kept.subperm).trans (Side.sort_perm _).subperm

/-- The entries of a product are entries of its factors, none of them more often. -/
theorem productWithFactor [LawfulScalar K] (left_entries : left.HasEntries left_above left_below)
    (right_entries : right.HasEntries right_above right_below) :
    ∃ above below, (left.productWithFactor right).1.HasEntries above below ∧
      above.Subperm (left_above ++ right_above) ∧ below.Subperm (left_below ++ right_below) := by
  rw [CompoundUnit.productWithFactor]
  split
  · exact ⟨_, _, left_entries, (List.sublist_append_left _ _).subperm,
      (List.sublist_append_left _ _).subperm⟩
  · split
    · exact ⟨_, _, right_entries, (List.sublist_append_right _ _).subperm,
        (List.sublist_append_right _ _).subperm⟩
    · rw [right_entries.numerator_eq, right_entries.denominator_eq]
      exact left_entries.extend right_entries.above_canonical.have_dimension
        right_entries.below_canonical.have_dimension

theorem quotientWithFactor [LawfulScalar K] (left_entries : left.HasEntries left_above left_below)
    (right_entries : right.HasEntries right_above right_below) :
    ∃ above below, (left.quotientWithFactor right).1.HasEntries above below ∧
      above.Subperm (left_above ++ right_below) ∧ below.Subperm (left_below ++ right_above) := by
  rw [CompoundUnit.quotientWithFactor]
  split
  · exact ⟨_, _, left_entries, (List.sublist_append_left _ _).subperm,
      (List.sublist_append_left _ _).subperm⟩
  · rw [right_entries.numerator_eq, right_entries.denominator_eq]
    exact left_entries.extend right_entries.below_canonical.have_dimension
      right_entries.above_canonical.have_dimension

/-! ## Products and quotients without cancellation -/

/-- A product whose entries come in order and do not cancel has all of them and no factor. -/
theorem productWithFactor_of_apart (left_entries : left.HasEntries left_above left_below)
    (right_entries : right.HasEntries right_above right_below)
    (above_canonical : Side.IsCanonical (left_above ++ right_above))
    (below_canonical : Side.IsCanonical (left_below ++ right_below))
    (apart : Side.Apart (left_above ++ right_above) (left_below ++ right_below)) :
    ∃ unit, left.productWithFactor right = (unit, 1) ∧
      unit.HasEntries (left_above ++ right_above) (left_below ++ right_below) := by
  rw [CompoundUnit.productWithFactor]
  split
  · rename_i dimensionless
    obtain ⟨rfl, rfl⟩ := right_entries.isDimensionless_iff.mp dimensionless
    rw [List.append_nil, List.append_nil]
    exact ⟨left, rfl, left_entries⟩
  · split
    · rename_i dimensionless
      obtain ⟨rfl, rfl⟩ := left_entries.isDimensionless_iff.mp dimensionless
      exact ⟨right, rfl, right_entries⟩
    · rw [right_entries.numerator_eq, right_entries.denominator_eq,
        left_entries.extend_of_apart above_canonical below_canonical apart]
      exact ⟨_, rfl, .ofSides above_canonical below_canonical apart⟩

theorem quotientWithFactor_of_apart (left_entries : left.HasEntries left_above left_below)
    (right_entries : right.HasEntries right_above right_below)
    (above_canonical : Side.IsCanonical (left_above ++ right_below))
    (below_canonical : Side.IsCanonical (left_below ++ right_above))
    (apart : Side.Apart (left_above ++ right_below) (left_below ++ right_above)) :
    ∃ unit, left.quotientWithFactor right = (unit, 1) ∧
      unit.HasEntries (left_above ++ right_below) (left_below ++ right_above) := by
  rw [CompoundUnit.quotientWithFactor]
  split
  · rename_i dimensionless
    obtain ⟨rfl, rfl⟩ := right_entries.isDimensionless_iff.mp dimensionless
    rw [List.append_nil, List.append_nil]
    exact ⟨left, rfl, left_entries⟩
  · rw [right_entries.numerator_eq, right_entries.denominator_eq,
      left_entries.extend_of_apart above_canonical below_canonical apart]
    exact ⟨_, rfl, .ofSides above_canonical below_canonical apart⟩

end HasEntries

end CompoundUnit
end UnitAlgebra
