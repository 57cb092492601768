import UnitAlgebra.Proofs.Side

/-!
# Completeness of cancellation

After a cancellation no dimension is left on both sides.  The final check for sides that agree entry
by entry therefore drops nothing: it can only succeed when both sides are empty already.
-/

namespace UnitAlgebra
namespace Cancellation

variable {K : Type} [Scalar K]

/-- The first members of pairs are what has been removed above the line, the second ones below. -/
structure Removes (left : Cancellation K) (numerator : Side K) (factor : K) (denominator : Side K)
    (pairs : List (BaseUnit K × BaseUnit K)) : Prop where
  /-- What is not left above the line has been removed. -/
  numerator_perm : numerator.Perm (pairs.map Prod.fst ++ left.numerator)
  /-- What is not left below the line has been removed. -/
  denominator_perm : denominator.Perm (pairs.map Prod.snd ++ left.denominator)
  /-- Entries of one dimension are removed together. -/
  same_dimension : ∀ pair ∈ pairs, pair.1.dimension = pair.2.dimension
  /-- The factor is multiplied by the ratios of the pairs, one after the other. -/
  factor_eq : left.factor =
    pairs.foldl (fun factor pair => factor * (pair.1.multiplier / pair.2.multiplier)) factor

/-- Cancelling removes pairs of entries of one dimension, and nothing else. -/
theorem exists_run_removes (numerator : Side K) (factor : K) (denominator : Side K) :
    ∃ pairs, (run numerator factor denominator).Removes numerator factor denominator pairs := by
  induction denominator generalizing numerator factor with
  | nil => exact ⟨[], List.Perm.refl _, List.Perm.refl _, by simp, rfl⟩
  | cons entry rest induction =>
      rw [run]
      split
      · rename_i found others taken
        obtain ⟨same, permuted⟩ := Side.takeDimension?_eq_some taken
        obtain ⟨pairs, removes⟩ :=
          induction others (factor * (found.multiplier / entry.multiplier))
        refine ⟨(found, entry) :: pairs, ?_, ?_, ?_, removes.factor_eq⟩
        · exact permuted.trans (removes.numerator_perm.cons found)
        · exact removes.denominator_perm.cons entry
        · exact List.forall_mem_cons.mpr ⟨same, removes.same_dimension⟩
      · obtain ⟨pairs, removes⟩ := induction numerator factor
        refine ⟨pairs, removes.numerator_perm, ?_, removes.same_dimension, removes.factor_eq⟩
        exact (removes.denominator_perm.cons entry).trans List.perm_middle.symm

theorem run_numerator_sublist (numerator : Side K) (factor : K) (denominator : Side K) :
    (run numerator factor denominator).numerator.Sublist numerator := by
  induction denominator generalizing numerator factor with
  | nil => exact List.Sublist.refl _
  | cons entry rest induction =>
      rw [run]
      split
      · rename_i found others taken
        exact (induction others _).trans (Side.takeDimension?_sublist taken)
      · exact induction numerator factor

theorem run_numerator_subperm (numerator : Side K) (factor : K) (denominator : Side K) :
    (run numerator factor denominator).numerator.Subperm numerator :=
  (run_numerator_sublist numerator factor denominator).subperm

theorem run_denominator_sublist (numerator : Side K) (factor : K) (denominator : Side K) :
    (run numerator factor denominator).denominator.Sublist denominator := by
  induction denominator generalizing numerator factor with
  | nil => exact List.Sublist.refl _
  | cons entry rest induction =>
      rw [run]
      split
      · exact (induction _ _).trans (List.sublist_cons_self entry rest)
      · exact (induction numerator factor).cons_cons entry

/-- No two sides of a cancellation share a dimension. -/
def IsReduced (cancellation : Cancellation K) : Prop :=
  ∀ above ∈ cancellation.numerator, ∀ below ∈ cancellation.denominator,
    above.dimension ≠ below.dimension

theorem run_isReduced (numerator : Side K) (factor : K) (denominator : Side K) :
    (run numerator factor denominator).IsReduced := by
  induction denominator generalizing numerator factor with
  | nil => simp [run, IsReduced]
  | cons entry rest induction =>
      rw [run]
      split
      · exact induction _ _
      · rename_i missing
        intro above above_member below below_member
        -- An entry is kept when no numerator entry has its dimension, and none appears later.
        rcases List.mem_cons.mp below_member with rfl | later
        · exact Side.takeDimension?_eq_none missing above
            ((run_numerator_subperm numerator factor rest).subset above_member)
        · exact induction numerator factor above above_member below later

theorem IsReduced.eq_nil_of_sidesAgree {cancellation : Cancellation K}
    (reduced : cancellation.IsReduced) (agree : cancellation.sidesAgree = true) :
    cancellation.numerator = [] ∧ cancellation.denominator = [] := by
  obtain ⟨numerator, denominator, factor⟩ := cancellation
  have tags_eq : Side.tags numerator = Side.tags denominator := by
    simpa [sidesAgree] using agree
  cases numerator with
  | nil =>
      have denominator_eq : denominator = [] := by simpa [Side.tags] using tags_eq.symm
      exact ⟨rfl, denominator_eq⟩
  | cons above aboves =>
      cases denominator with
      | nil => simp [Side.tags] at tags_eq
      | cons below belows =>
          have same : above.dimension = below.dimension := by
            simp only [Side.tags, List.map_cons, List.cons.injEq] at tags_eq
            exact tags_eq.1
          exact absurd same (reduced above (by simp) below (by simp))

theorem IsReduced.collapse_eq {cancellation : Cancellation K} (reduced : cancellation.IsReduced) :
    cancellation.collapse = cancellation := by
  rw [collapse]
  split
  · obtain ⟨numerator_eq, denominator_eq⟩ := reduced.eq_nil_of_sidesAgree ‹_›
    obtain ⟨numerator, denominator, factor⟩ := cancellation
    obtain rfl : numerator = [] := numerator_eq
    obtain rfl : denominator = [] := denominator_eq
    rfl
  · rfl

end Cancellation

/-- The final check of a cancellation drops nothing. -/
theorem simplify_eq_run {K : Type} [Scalar K] (numerator denominator : Side K) :
    simplify numerator denominator =
      Cancellation.run (Side.canonical numerator) 1 (Side.canonical denominator) :=
  (Cancellation.run_isReduced _ _ _).collapse_eq

end UnitAlgebra
