import UnitAlgebra.Proofs.Exponent
import UnitAlgebra.Proofs.Size

/-!
# What cancellation leaves

Cancellation takes pairs of entries of one dimension from two sides until no dimension is left on
both, and it takes nothing else.  What is left stands in canonical order, every dimension occurs
above the line more often than below by as much as before, and over the rationals the factor makes
up for what has been removed.
-/

namespace UnitAlgebra

variable {K : Type} [Scalar K]

namespace Cancellation

/-- A cancellation of two sides that has removed what it can, and nothing that it had to keep. -/
structure IsComplete (left : Cancellation K) (numerator denominator : Side K) : Prop where
  /-- What is left above the line is in canonical order. -/
  numerator_sorted : left.numerator.Pairwise fun upper lower => (upper.order lower).isLE = true
  /-- What is left below the line is in canonical order. -/
  denominator_sorted : left.denominator.Pairwise fun upper lower => (upper.order lower).isLE = true
  /-- All that is left has a dimension. -/
  have_dimension : ∀ entry ∈ left.numerator ++ left.denominator, entry.isDimensionless = false
  /-- Nothing is left above the line more often than it was there. -/
  numerator_subperm : left.numerator.Subperm numerator
  /-- Nothing is left below the line more often than it was there. -/
  denominator_subperm : left.denominator.Subperm denominator
  /-- Entries with a dimension are left, or they are removed in pairs. -/
  exists_removes : ∃ pairs,
    left.Removes (Side.dimensional numerator) 1 (Side.dimensional denominator) pairs
  /-- Every dimension occurs above the line more often than below by as much as before. -/
  balance_eq (tag : String) : Side.balance tag left.numerator left.denominator =
    Side.balance tag (Side.dimensional numerator) (Side.dimensional denominator)
  /-- No dimension is left on both sides. -/
  apart : Side.Apart left.numerator left.denominator

variable {numerator denominator : Side K}

theorem Removes.of_perm {left : Cancellation K} {numerator' denominator' : Side K} {factor : K}
    {pairs : List (BaseUnit K × BaseUnit K)}
    (removes : left.Removes numerator factor denominator pairs)
    (numerator_perm : numerator'.Perm numerator)
    (denominator_perm : denominator'.Perm denominator) :
    left.Removes numerator' factor denominator' pairs :=
  ⟨numerator_perm.trans removes.numerator_perm, denominator_perm.trans removes.denominator_perm,
    removes.same_dimension, removes.factor_eq⟩

theorem Removes.subperm {left : Cancellation K} {factor : K}
    {pairs : List (BaseUnit K × BaseUnit K)}
    (removes : left.Removes numerator factor denominator pairs) :
    left.numerator.Subperm numerator ∧ left.denominator.Subperm denominator :=
  ⟨(List.sublist_append_right _ _).subperm.trans removes.numerator_perm.symm.subperm,
    (List.sublist_append_right _ _).subperm.trans removes.denominator_perm.symm.subperm⟩

end Cancellation

theorem exists_simplify_removes (numerator denominator : Side K) :
    ∃ pairs, (simplify numerator denominator).Removes (Side.dimensional numerator) 1
      (Side.dimensional denominator) pairs := by
  obtain ⟨pairs, removes⟩ :=
    Cancellation.exists_run_removes (Side.canonical numerator) 1 (Side.canonical denominator)
  rw [simplify_eq_run]
  exact ⟨pairs, removes.of_perm (Side.canonical_perm numerator).symm
    (Side.canonical_perm denominator).symm⟩

theorem simplify_isCanonical [OrderedScalar K] (numerator denominator : Side K) :
    (simplify numerator denominator).numerator.IsCanonical ∧
      (simplify numerator denominator).denominator.IsCanonical := by
  rw [simplify_eq_run]
  exact ⟨(Side.canonical_isCanonical numerator).sublist (Cancellation.run_numerator_sublist _ _ _),
    (Side.canonical_isCanonical denominator).sublist (Cancellation.run_denominator_sublist _ _ _)⟩

theorem simplify_isComplete [OrderedScalar K] (numerator denominator : Side K) :
    (simplify numerator denominator).IsComplete numerator denominator := by
  obtain ⟨above_canonical, below_canonical⟩ := simplify_isCanonical numerator denominator
  obtain ⟨pairs, removes⟩ := exists_simplify_removes numerator denominator
  constructor
  · exact Side.pairwise_of_isChain above_canonical.sorted
  · exact Side.pairwise_of_isChain below_canonical.sorted
  · exact List.forall_mem_append.mpr
      ⟨above_canonical.have_dimension, below_canonical.have_dimension⟩
  · exact removes.subperm.1.trans List.filter_sublist.subperm
  · exact removes.subperm.2.trans List.filter_sublist.subperm
  · exact ⟨pairs, removes⟩
  · exact removes.balance_eq
  · rw [simplify_eq_run]
    exact Cancellation.run_isReduced _ _ _

/--
Cancellation is complete and drops nothing that it has not cancelled: the final check for sides
that agree entry by entry succeeds only where both are empty already.  Over the rationals the factor
makes up for what has been removed.
-/
theorem simplify_cancels_completely :
    (∀ {K : Type} [Scalar K] [OrderedScalar K] (numerator denominator : Side K),
      (simplify numerator denominator).IsComplete numerator denominator ∧
        ((Cancellation.run (Side.canonical numerator) 1
            (Side.canonical denominator)).sidesAgree = true →
          (Cancellation.run (Side.canonical numerator) 1
              (Side.canonical denominator)).numerator = [] ∧
            (Cancellation.run (Side.canonical numerator) 1
              (Side.canonical denominator)).denominator = [])) ∧
      ∀ numerator denominator : Side Rat,
        Side.size (Side.dimensional numerator) / Side.size (Side.dimensional denominator) =
          (simplify numerator denominator).factor *
            (Side.size (simplify numerator denominator).numerator /
              Side.size (simplify numerator denominator).denominator) := by
  refine ⟨fun numerator denominator => ⟨simplify_isComplete numerator denominator, ?_⟩, ?_⟩
  · exact (Cancellation.run_isReduced _ _ _).eq_nil_of_sidesAgree
  · exact fun numerator denominator => (simplify_size numerator denominator).symm

/-- Second, yard, something without dimension, and inch. -/
private def raceAbove : Side Rat :=
  [.ofCount "time" "second" "second" 1, .ofCount "length" "inch" "yard" 36, .dimensionless,
    .ofCount "length" "inch" "inch" 1]

/-- Minute and foot. -/
private def raceBelow : Side Rat :=
  [.ofCount "time" "second" "minute" 60, .ofCount "length" "inch" "foot" 12]

/-- The foot cancels the inch, the minute cancels the second, and the yard is left. -/
theorem simplify_race_cancels_completely :
    Side.names (simplify raceAbove raceBelow).numerator = ["yard"] ∧
      (simplify raceAbove raceBelow).denominator = [] ∧
      (simplify raceAbove raceBelow).IsComplete raceAbove raceBelow ∧
      Side.size (Side.dimensional raceAbove) / Side.size (Side.dimensional raceBelow) =
        1 / 720 * Side.size (simplify raceAbove raceBelow).numerator := by
  have names_eq : Side.names (simplify raceAbove raceBelow).numerator = ["yard"] := by
    decide +kernel
  have empty : (simplify raceAbove raceBelow).denominator.isEmpty = true := by decide +kernel
  have factor_eq : (simplify raceAbove raceBelow).factor = 1 / 720 := by decide +kernel
  have below_eq := List.isEmpty_iff.mp empty
  have sizes := simplify_cancels_completely.2 raceAbove raceBelow
  rw [below_eq, factor_eq, Side.size_nil, div_one] at sizes
  exact ⟨names_eq, below_eq, (simplify_cancels_completely.1 raceAbove raceBelow).1, sizes⟩

end UnitAlgebra
