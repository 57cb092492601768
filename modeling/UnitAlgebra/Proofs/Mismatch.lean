import UnitAlgebra.Proofs.AlignedUnits
import UnitAlgebra.Proofs.Commutation

/-!
# Mismatched units

A conversion compares the texts of the dimensions of two units, and then their entries place by
place until the shorter side ends.  Tags are arbitrary texts, so that units of different dimensions
may have one text; but then two entries at one place differ before either side ends.  A conversion
therefore succeeds exactly between aligned units and leaves none of their entries out, and it is
refused in the names of the two units or of the first two entries that clash.
-/

namespace UnitAlgebra

variable {K : Type} [Scalar K]

/-- Two entries of different dimensions at one place, before which the dimensions are the same. -/
inductive Side.Clash : Side K → Side K → BaseUnit K → BaseUnit K → Prop where
  /-- The first entries differ. -/
  | head {source target : BaseUnit K} {sources targets : Side K}
      (different : source.dimension ≠ target.dimension) :
      Clash (source :: sources) (target :: targets) source target
  /-- Later entries differ. -/
  | tail {first first' source target : BaseUnit K} {sources targets : Side K}
      (same : first.dimension = first'.dimension) (clash : Clash sources targets source target) :
      Clash (first :: sources) (first' :: targets) source target

namespace CompoundUnit

/-- What a refused conversion says: which units, or which of their entries, do not match. -/
inductive Mismatch (source target : CompoundUnit K) : UnitError → Prop where
  /-- The texts of the dimensions differ. -/
  | units (different : source.dimensionality ≠ target.dimensionality) :
      Mismatch source target (.dimensionMismatch source.name target.name)
  /-- Two entries above the line clash. -/
  | above {entry other : BaseUnit K}
      (clash : Side.Clash source.numerator target.numerator entry other) :
      Mismatch source target (.dimensionMismatch entry.name other.name)
  /-- Two entries below the line clash. -/
  | below {entry other : BaseUnit K}
      (clash : Side.Clash source.denominator target.denominator entry other) :
      Mismatch source target (.dimensionMismatch entry.name other.name)

variable {source target : CompoundUnit K} {failure : UnitError}

/-- Pairing entries fails at the first two that clash. -/
theorem foldFactors_clash {step : K → K → K} {factor : K} {sources targets : Side K}
    (failed : foldFactors step factor sources targets = .error failure) :
    ∃ entry other, Side.Clash sources targets entry other ∧
      failure = .dimensionMismatch entry.name other.name := by
  induction sources generalizing factor targets with
  | nil => cases failed
  | cons entry sources induction =>
      cases targets with
      | nil => cases failed
      | cons other targets =>
          simp only [foldFactors, BaseUnit.conversionFactor] at failed
          split at failed
          · rename_i same
            obtain ⟨later, later_other, clash, failure_eq⟩ := induction failed
            exact ⟨later, later_other, .tail same clash, failure_eq⟩
          · rename_i different
            exact ⟨entry, other, .head different, (Except.error.inj failed).symm⟩

theorem mismatch_of_conversionFactor (failed : source.conversionFactor target = .error failure) :
    source.Mismatch target failure := by
  rw [conversionFactor] at failed
  split at failed
  · cases above_folded : foldFactors (· * ·) 1 source.numerator target.numerator with
    | error above_failure =>
        rw [above_folded] at failed
        obtain rfl := Except.error.inj failed
        obtain ⟨entry, other, clash, rfl⟩ := foldFactors_clash above_folded
        exact .above clash
    | ok factor =>
        rw [above_folded] at failed
        obtain ⟨entry, other, clash, rfl⟩ := foldFactors_clash failed
        exact .below clash
  · rename_i incompatible
    obtain rfl := Except.error.inj failed
    exact .units fun same => incompatible (beq_iff_eq.mpr same)

theorem IsFormed.filled {unit : CompoundUnit K} (formed : unit.IsFormed) :
    unit.numerator ≠ [] ∧ unit.denominator ≠ [] := by
  obtain ⟨⟨above, numerator_eq⟩, ⟨below, denominator_eq⟩⟩ := formed
  rw [numerator_eq, denominator_eq]
  exact ⟨(Side.normalize_isFilled _ above).ne_nil, (Side.normalize_isFilled _ below).ne_nil⟩

/-- Formed units that convert are aligned: no entry of the longer side is left over. -/
theorem aligned_of_conversionFactor {factor : K} (source_formed : source.IsFormed)
    (target_formed : target.IsFormed) (converted : source.conversionFactor target = .ok factor) :
    source.Aligned target := by
  obtain ⟨above, below⟩ :=
    tags_eq_of_conversionFactor source_formed.filled target_formed.filled converted
  exact ⟨above, below⟩

theorem exists_mismatch (source_formed : source.IsFormed) (target_formed : target.IsFormed)
    (misaligned : ¬source.Aligned target) :
    ∃ failure, source.conversionFactor target = .error failure ∧
      source.Mismatch target failure := by
  cases converted : source.conversionFactor target with
  | ok factor =>
      exact absurd (aligned_of_conversionFactor source_formed target_formed converted) misaligned
  | error failure => exact ⟨failure, rfl, mismatch_of_conversionFactor converted⟩

/--
A conversion succeeds exactly between aligned units, whatever texts their tags are.  Then the sides
are equally long and all entries go into the factor; otherwise the error names the two units or two
entries that clash.
-/
theorem converts_iff_aligned (source_formed : source.IsFormed) (target_formed : target.IsFormed) :
    ((∃ factor, source.conversionFactor target = .ok factor) ↔ source.Aligned target) ∧
      (source.Aligned target →
        source.numerator.length = target.numerator.length ∧
          source.denominator.length = target.denominator.length ∧
          source.conversionFactor target =
            .ok ((ratios source.denominator target.denominator).foldl (· / ·)
              ((ratios source.numerator target.numerator).foldl (· * ·) 1))) ∧
      (¬source.Aligned target → ∃ failure, source.conversionFactor target = .error failure ∧
        source.Mismatch target failure) := by
  refine ⟨⟨?_, ?_⟩, ?_, exists_mismatch source_formed target_formed⟩
  · rintro ⟨factor, converted⟩
    exact aligned_of_conversionFactor source_formed target_formed converted
  · intro aligned
    exact ⟨_, conversionFactor_eq_foldl aligned.above aligned.below⟩
  · intro aligned
    exact ⟨length_eq_of_tags_eq aligned.above, length_eq_of_tags_eq aligned.below,
      conversionFactor_eq_foldl aligned.above aligned.below⟩

/-- A base unit whose tag is any text. -/
private def tagged (name tag : String) : BaseUnit Float :=
  ⟨name, tag, name, 1, Scalar.isMultiplier_one⟩

/-- Two entries over one, the marks inside the tags included. -/
private def cutAbove : CompoundUnit Float :=
  .ofSides [tagged "first" "a", tagged "second" "b/c"] [tagged "third" "d"] .dimensionless

/-- Another unit with the same text of dimensions. -/
private def cutBelow : CompoundUnit Float :=
  .ofSides [tagged "one" "a", tagged "two" "b"] [tagged "three" "c/d"] .dimensionless

/-- The marks inside the tags make one text, and the entries at the second place clash. -/
theorem converts_iff_aligned_of_marks :
    cutAbove.dimensionality = cutBelow.dimensionality ∧
      cutAbove.conversionFactor cutBelow = .error (.dimensionMismatch "second" "two") ∧
      cutAbove.Mismatch cutBelow (.dimensionMismatch "second" "two") ∧
      ∃ factor, cutAbove.conversionFactor cutAbove = .ok factor := by
  have above_formed : cutAbove.IsFormed := ofSides_isFormed _ _ _
  have below_formed : cutBelow.IsFormed := ofSides_isFormed _ _ _
  have misaligned : ¬cutAbove.Aligned cutBelow := fun aligned =>
    absurd aligned.above (by decide +kernel)
  obtain ⟨failure, failed, mismatch⟩ :=
    (converts_iff_aligned above_formed below_formed).2.2 misaligned
  have failure_eq : failure = .dimensionMismatch "second" "two" := by
    have computed : cutAbove.conversionFactor cutBelow =
        .error (.dimensionMismatch "second" "two") := by with_unfolding_all rfl
    exact Except.error.inj (failed.symm.trans computed)
  subst failure_eq
  exact ⟨by decide +kernel, failed, mismatch,
    (converts_iff_aligned above_formed above_formed).1.mpr (Aligned.refl cutAbove)⟩

end CompoundUnit
end UnitAlgebra
