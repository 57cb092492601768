import UnitAlgebra.Proofs.AlignedUnits
import UnitAlgebra.Proofs.Binary64.Multiplier
import UnitAlgebra.Proofs.Completeness

/-!
# The range of conversion factors

A factor of doubles is a product of ratios of multipliers, and it is rounded after every ratio.  A
number that is rounded to zero or to an infinity on the way does not come back, so the factor is a
multiplier exactly if no ratio and no factor on the way leaves the range of the doubles.
Multipliers that differ little in size stay in range for as many entries as their spread allows.
-/

namespace UnitAlgebra

/-! ## Factors on their way -/

open Binary64

/-- A factor is multiplied or divided by the ratio of the multipliers of two units. -/
structure FactorStep where
  /-- Whether the factor is multiplied or divided. -/
  operator : Operator
  /-- The unit whose multiplier is divided. -/
  source : BaseUnit Float
  /-- The unit by whose multiplier is divided. -/
  target : BaseUnit Float

namespace FactorStep

/-- The ratio of the multipliers, which is rounded. -/
def ratio (step : FactorStep) : Float :=
  step.source.multiplier / step.target.multiplier

/-- The factor after a step. -/
def apply (factor : Float) (step : FactorStep) : Float :=
  step.operator.operation.apply factor step.ratio

/-- The ratio and the factor after a step are rounded from numbers in range. -/
structure KeepsRange (step : FactorStep) (factor : Float) : Prop where
  /-- The ratio of the multipliers is in range. -/
  ratio_inRange : InRange (size step.source.multiplier / size step.target.multiplier)
  /-- The factor times or over the rounded ratio is in range. -/
  factor_inRange : InRange (step.operator.operation.apply (size factor) (size step.ratio))

variable {step : FactorStep} {factor : Float}

theorem ratio_isMultiplier_or_isLost (step : FactorStep) :
    Scalar.isMultiplier step.ratio = true ∧
        InRange (size step.source.multiplier / size step.target.multiplier) ∨
      IsLost step.ratio ∧
        ¬InRange (size step.source.multiplier / size step.target.multiplier) :=
  isMultiplier_or_isLost_apply .over step.source.isMultiplier step.target.isMultiplier

theorem ratio_hasNoSign (step : FactorStep) : HasNoSign step.ratio.toModel.unpack := by
  rcases step.ratio_isMultiplier_or_isLost with ⟨multiplier, -⟩ | ⟨lost, -⟩
  · exact hasNoSign_of_isMultiplier multiplier
  · exact .inl lost

theorem isLost_apply (step : FactorStep) (lost : IsLost factor) : IsLost (step.apply factor) :=
  Binary64.isLost_apply step.operator (.inl lost) step.ratio_hasNoSign (.inl lost)

/-- A multiplier is kept by a step that keeps the range, and it is lost by every other one. -/
theorem isMultiplier_or_isLost (step : FactorStep)
    (multiplier : Scalar.isMultiplier factor = true) :
    Scalar.isMultiplier (step.apply factor) = true ∧ step.KeepsRange factor ∨
      IsLost (step.apply factor) ∧ ¬step.KeepsRange factor := by
  rcases step.ratio_isMultiplier_or_isLost with ⟨ratio_multiplier, inside⟩ | ⟨lost, outside⟩
  · rcases isMultiplier_or_isLost_apply step.operator multiplier ratio_multiplier with
      ⟨next, next_inside⟩ | ⟨lost, outside⟩
    · exact .inl ⟨next, inside, next_inside⟩
    · exact .inr ⟨lost, fun keeps => outside keeps.factor_inRange⟩
  · refine .inr ⟨?_, fun keeps => outside keeps.ratio_inRange⟩
    exact Binary64.isLost_apply step.operator (hasNoSign_of_isMultiplier multiplier)
      step.ratio_hasNoSign (.inr lost)

end FactorStep

/-- No ratio and no factor on the way leaves the range. -/
def StaysInRange (factor : Float) : List FactorStep → Prop
  | [] => True
  | step :: steps => step.KeepsRange factor ∧ StaysInRange (step.apply factor) steps

section

variable {factor : Float} {steps : List FactorStep}

theorem isLost_foldl (lost : IsLost factor) : IsLost (steps.foldl FactorStep.apply factor) := by
  induction steps generalizing factor with
  | nil => exact lost
  | cons step steps induction => exact induction (step.isLost_apply lost)

theorem isMultiplier_foldl_iff (multiplier : Scalar.isMultiplier factor = true) :
    Scalar.isMultiplier (steps.foldl FactorStep.apply factor) = true ↔
      StaysInRange factor steps := by
  induction steps generalizing factor with
  | nil => exact iff_of_true multiplier trivial
  | cons step steps induction =>
      rw [List.foldl_cons, StaysInRange]
      rcases step.isMultiplier_or_isLost multiplier with ⟨next, keeps⟩ | ⟨lost, leaves⟩
      · rw [induction next]
        exact (and_iff_right keeps).symm
      · exact iff_of_false (isLost_foldl lost).not_isMultiplier fun stays => leaves stays.1

/-- The multiplier of a unit lies between two powers of two. -/
def BaseUnit.IsBetween (low : Int) (spread : Nat) (unit : BaseUnit Float) : Prop :=
  2 ^ low ≤ size unit.multiplier ∧ size unit.multiplier ≤ 2 ^ (low + spread)

instance (low : Int) (spread : Nat) (unit : BaseUnit Float) :
    Decidable (unit.IsBetween low spread) :=
  inferInstanceAs (Decidable (_ ∧ _))

theorem FactorStep.isWithin_ratio {step : FactorStep} {low : Int} {spread : Nat}
    (source_between : step.source.IsBetween low spread)
    (target_between : step.target.IsBetween low spread) :
    IsWithin spread (size step.source.multiplier / size step.target.multiplier) where
  lower := by
    rw [le_div_iff₀ (size_pos step.target.isMultiplier)]
    calc (2 : Rat) ^ (-spread : Int) * size step.target.multiplier
        ≤ 2 ^ (-spread : Int) * 2 ^ (low + spread) :=
          mul_le_mul_of_nonneg_left target_between.2 (two_zpow_pos _).le
      _ = 2 ^ low := by
          rw [← zpow_add₀ two_ne_zero]
          congr 1
          omega
      _ ≤ size step.source.multiplier := source_between.1
  upper := by
    rw [div_le_iff₀ (size_pos step.target.isMultiplier)]
    calc size step.source.multiplier ≤ 2 ^ (low + spread) := source_between.2
      _ = 2 ^ (spread : Int) * 2 ^ low := by rw [add_comm, zpow_add₀ two_ne_zero]
      _ ≤ 2 ^ (spread : Int) * size step.target.multiplier :=
          mul_le_mul_of_nonneg_left target_between.1 (two_zpow_pos _).le

/-- The powers of two that bound a factor are kept by rounding, so they grow by the spread alone. -/
theorem staysInRange_of_isBetween {low : Int} {spread count : Nat}
    (between : ∀ step ∈ steps, step.source.IsBetween low spread ∧
      step.target.IsBetween low spread)
    (multiplier : Scalar.isMultiplier factor = true) (within : IsWithin count (size factor))
    (bound : count + steps.length * spread ≤ 1023) : StaysInRange factor steps := by
  induction steps generalizing factor count with
  | nil => trivial
  | cons step steps induction =>
      obtain ⟨⟨source_between, target_between⟩, rest_between⟩ := List.forall_mem_cons.mp between
      rw [List.length_cons, Nat.succ_mul] at bound
      have exact_within := FactorStep.isWithin_ratio source_between target_between
      obtain ⟨ratio_multiplier, ratio_eq⟩ := isMultiplier_apply .over step.source.isMultiplier
        step.target.isMultiplier (exact_within.inRange (by omega))
      have ratio_within : IsWithin spread (size step.ratio) :=
        ratio_eq ▸ exact_within.rounded (by omega)
      have product_within := within.apply step.operator ratio_within
      obtain ⟨next_multiplier, next_eq⟩ := isMultiplier_apply step.operator multiplier
        ratio_multiplier (product_within.inRange (by omega))
      have next_within : IsWithin (count + spread) (size (step.apply factor)) :=
        next_eq ▸ product_within.rounded (by omega)
      exact ⟨⟨exact_within.inRange (by omega), product_within.inRange (by omega)⟩,
        induction rest_between next_multiplier next_within (by omega)⟩

end

/-! ## Cancellation and conversion -/

/-- A factor that starts at one stays in range among multipliers of little spread. -/
theorem staysInRange_one {steps : List FactorStep} {low : Int} {spread : Nat}
    (between : ∀ step ∈ steps, step.source.IsBetween low spread ∧
      step.target.IsBetween low spread)
    (bound : steps.length * spread ≤ 1023) : StaysInRange 1 steps := by
  have within : IsWithin 0 (size 1) := by
    rw [size_one]
    exact ⟨le_rfl, le_rfl⟩
  exact staysInRange_of_isBetween between Scalar.isMultiplier_one within (by omega)

/-- The steps of a cancellation, one for each pair of entries that is removed. -/
def Cancellation.steps (pairs : List (BaseUnit Float × BaseUnit Float)) : List FactorStep :=
  pairs.map fun pair => ⟨.times, pair.1, pair.2⟩

/-- The steps of a conversion, one for each pair of entries at one place. -/
def CompoundUnit.steps (source target : CompoundUnit Float) : List FactorStep :=
  List.zipWith (FactorStep.mk .times) source.numerator target.numerator ++
    List.zipWith (FactorStep.mk .over) source.denominator target.denominator

theorem Cancellation.Removes.factor_eq_foldl {left : Cancellation Float}
    {numerator denominator : Side Float} {factor : Float}
    {pairs : List (BaseUnit Float × BaseUnit Float)}
    (removes : left.Removes numerator factor denominator pairs) :
    left.factor = (steps pairs).foldl FactorStep.apply factor := by
  rw [removes.factor_eq, steps, List.foldl_map]
  rfl

theorem CompoundUnit.foldl_ratios (operator : Operator) (factor : Float)
    (sources targets : Side Float) :
    (ratios sources targets).foldl operator.operation.apply factor =
      (List.zipWith (FactorStep.mk operator) sources targets).foldl FactorStep.apply factor := by
  induction sources generalizing factor targets with
  | nil => rfl
  | cons source sources induction =>
      cases targets with
      | nil => rfl
      | cons target targets => exact induction _ targets

theorem CompoundUnit.Aligned.conversionFactor_eq_foldl {source target : CompoundUnit Float}
    (aligned : source.Aligned target) :
    source.conversionFactor target = .ok ((steps source target).foldl FactorStep.apply 1) := by
  rw [CompoundUnit.conversionFactor_eq_foldl aligned.above aligned.below, steps, List.foldl_append]
  exact congrArg Except.ok ((foldl_ratios .over _ _ _).trans
    (congrArg (List.foldl FactorStep.apply · _) (foldl_ratios .times _ _ _)))

namespace Cancellation

variable {left : Cancellation Float} {numerator denominator : Side Float}
  {pairs : List (BaseUnit Float × BaseUnit Float)}

theorem Removes.isMultiplier_iff (removes : left.Removes numerator 1 denominator pairs) :
    Scalar.isMultiplier left.factor = true ↔ StaysInRange 1 (steps pairs) := by
  rw [removes.factor_eq_foldl]
  exact isMultiplier_foldl_iff Scalar.isMultiplier_one

theorem Removes.length_le (removes : left.Removes numerator 1 denominator pairs) :
    (steps pairs).length ≤ min numerator.length denominator.length := by
  have above := removes.numerator_perm.length_eq
  have below := removes.denominator_perm.length_eq
  rw [List.length_append, List.length_map] at above below
  rw [steps, List.length_map]
  omega

theorem Removes.staysInRange (removes : left.Removes numerator 1 denominator pairs) {low : Int}
    {spread : Nat} (between : ∀ entry ∈ numerator ++ denominator, entry.IsBetween low spread)
    (bound : min numerator.length denominator.length * spread ≤ 1023) :
    StaysInRange 1 (steps pairs) := by
  have steps_between : ∀ step ∈ steps pairs, step.source.IsBetween low spread ∧
      step.target.IsBetween low spread := by
    intro step member
    obtain ⟨pair, pair_member, rfl⟩ := List.mem_map.mp member
    refine ⟨between _ (List.mem_append_left _ ?_), between _ (List.mem_append_right _ ?_)⟩
    · exact removes.numerator_perm.mem_iff.mpr
        (List.mem_append_left _ (List.mem_map_of_mem pair_member))
    · exact removes.denominator_perm.mem_iff.mpr
        (List.mem_append_left _ (List.mem_map_of_mem pair_member))
  exact staysInRange_one steps_between ((Nat.mul_le_mul_right _ removes.length_le).trans bound)

end Cancellation

namespace CompoundUnit

/-- The entries on both sides of a unit. -/
def entries (unit : CompoundUnit Float) : Side Float :=
  unit.numerator ++ unit.denominator

theorem mem_of_mem_steps {source target : CompoundUnit Float} {step : FactorStep}
    (member : step ∈ steps source target) :
    step.source ∈ source.entries ∧ step.target ∈ target.entries := by
  have sides {operator : Operator} {sources targets : Side Float}
      (own : step ∈ List.zipWith (FactorStep.mk operator) sources targets) :
      step.source ∈ sources ∧ step.target ∈ targets := by
    rw [← List.map_uncurry_zip_eq_zipWith] at own
    obtain ⟨⟨source, target⟩, pair_member, rfl⟩ := List.mem_map.mp own
    exact List.of_mem_zip pair_member
  rcases List.mem_append.mp member with above | below
  · exact (sides above).imp (List.mem_append_left _) (List.mem_append_left _)
  · exact (sides below).imp (List.mem_append_right _) (List.mem_append_right _)

theorem length_steps_le (source target : CompoundUnit Float) :
    (steps source target).length ≤ source.entries.length := by
  rw [steps, entries, List.length_append, List.length_append, List.length_zipWith,
    List.length_zipWith]
  omega

end CompoundUnit

/--
The factor of a cancellation, and that of a conversion between aligned units, is finite and above
zero exactly if no ratio of multipliers and no factor on the way leaves the range of the doubles.
It never does where the multipliers lie between two powers of two that are few enough binary places
apart for the number of entries.
-/
theorem isMultiplier_factor_iff_staysInRange (numerator denominator : Side Float)
    {source target : CompoundUnit Float} (aligned : source.Aligned target) :
    (∃ pairs, (simplify numerator denominator).Removes (Side.dimensional numerator) 1
          (Side.dimensional denominator) pairs ∧
        (Scalar.isMultiplier (simplify numerator denominator).factor = true ↔
          StaysInRange 1 (Cancellation.steps pairs))) ∧
      (∃ factor, source.conversionFactor target = .ok factor ∧
        (Scalar.isMultiplier factor = true ↔
          StaysInRange 1 (CompoundUnit.steps source target))) ∧
      ∀ (low : Int) (spread : Nat),
        ((∀ entry ∈ Side.dimensional numerator ++ Side.dimensional denominator,
              entry.IsBetween low spread) →
            min (Side.dimensional numerator).length (Side.dimensional denominator).length *
                spread ≤ 1023 →
              Scalar.isMultiplier (simplify numerator denominator).factor = true) ∧
          ((∀ entry ∈ source.entries ++ target.entries, entry.IsBetween low spread) →
            source.entries.length * spread ≤ 1023 →
              ∃ factor, source.conversionFactor target = .ok factor ∧
                Scalar.isMultiplier factor = true) := by
  obtain ⟨pairs, removes⟩ := exists_simplify_removes numerator denominator
  have factor_eq := aligned.conversionFactor_eq_foldl
  have multiplier_iff : Scalar.isMultiplier
      ((CompoundUnit.steps source target).foldl FactorStep.apply 1) = true ↔
        StaysInRange 1 (CompoundUnit.steps source target) :=
    isMultiplier_foldl_iff Scalar.isMultiplier_one
  refine ⟨⟨pairs, removes, removes.isMultiplier_iff⟩, ⟨_, factor_eq, multiplier_iff⟩, ?_⟩
  intro low spread
  refine ⟨fun between bound => ?_, fun between bound => ⟨_, factor_eq, ?_⟩⟩
  · exact removes.isMultiplier_iff.mpr (removes.staysInRange between bound)
  · have steps_between : ∀ step ∈ CompoundUnit.steps source target,
        step.source.IsBetween low spread ∧ step.target.IsBetween low spread := by
      intro step member
      obtain ⟨source_member, target_member⟩ := CompoundUnit.mem_of_mem_steps member
      exact ⟨between _ (List.mem_append_left _ source_member),
        between _ (List.mem_append_right _ target_member)⟩
    refine multiplier_iff.mpr (staysInRange_one steps_between ?_)
    exact (Nat.mul_le_mul_right _ (CompoundUnit.length_steps_le source target)).trans bound

/-- A length, a mass and a time. -/
private def lapEntries : Side Float :=
  [⟨"lap", "[length]", "meter", 400, by decide⟩, ⟨"stone", "[mass]", "gram", 6350.29318, by decide⟩,
    ⟨"heat", "[time]", "second", 45, by decide⟩]

/-- A smaller length, mass and time. -/
private def cubitEntries : Side Float :=
  [⟨"cubit", "[length]", "meter", 0.4572, by decide⟩,
    ⟨"ounce", "[mass]", "gram", 28.349523125, by decide⟩,
    ⟨"second", "[time]", "second", 1, Scalar.isMultiplier_one⟩]

/-- Six multipliers within fifteen binary places cancel and convert in range. -/
theorem lapEntries_stay_in_range :
    Scalar.isMultiplier (simplify lapEntries cubitEntries).factor = true ∧
      ∃ factor, (CompoundUnit.ofSides lapEntries [] .dimensionless).conversionFactor
          (CompoundUnit.ofSides cubitEntries [] .dimensionless) = .ok factor ∧
        Scalar.isMultiplier factor = true := by
  have aligned : (CompoundUnit.ofSides lapEntries [] .dimensionless).Aligned
      (CompoundUnit.ofSides cubitEntries [] .dimensionless) :=
    CompoundUnit.aligned_ofSides_of_perm _ (by decide +kernel) (by decide +kernel)
  obtain ⟨-, -, stays⟩ := isMultiplier_factor_iff_staysInRange lapEntries cubitEntries aligned
  obtain ⟨cancels, converts⟩ := stays (-2) 15
  exact ⟨cancels (by decide +kernel) (by decide +kernel),
    converts (by decide +kernel) (by decide +kernel)⟩

/-- A length, a mass and a time, two of which are large. -/
private def vastEntries : Side Float :=
  [⟨"expanse", "[length]", "meter", 1e200, by decide +kernel⟩,
    ⟨"bulk", "[mass]", "gram", 1e200, by decide +kernel⟩,
    ⟨"flash", "[time]", "second", 1e-200, by decide +kernel⟩]

/-- The reference units of a length, a mass and a time. -/
private def referenceEntries : Side Float :=
  [⟨"meter", "[length]", "meter", 1, Scalar.isMultiplier_one⟩,
    ⟨"gram", "[mass]", "gram", 1, Scalar.isMultiplier_one⟩,
    ⟨"second", "[time]", "second", 1, Scalar.isMultiplier_one⟩]

/-- A small length. -/
private def moteEntry : BaseUnit Float :=
  ⟨"mote", "[length]", "meter", 1e-300, by decide +kernel⟩

/-- A large length. -/
private def spanEntry : BaseUnit Float :=
  ⟨"span", "[length]", "meter", 1e300, by decide +kernel⟩

/--
The ratios of three dimensions and their product are in range, but the factor is infinite before the
last ratio.  The ratio of a small and a large multiplier vanishes by itself.
-/
theorem vastEntries_overflow :
    InRange (size 1e200 * size 1e200 * size 1e-200) ∧
      (simplify vastEntries referenceEntries).factor.isFinite = false ∧
      (∃ factor, (CompoundUnit.ofSides vastEntries [] .dimensionless).conversionFactor
          (CompoundUnit.ofSides referenceEntries [] .dimensionless) = .ok factor ∧
        factor.isFinite = false) ∧
      (simplify [moteEntry] [spanEntry]).factor = 0 := by
  have converts : Outcome.passes
      ((CompoundUnit.ofSides vastEntries [] .dimensionless).conversionFactor
        (CompoundUnit.ofSides referenceEntries [] .dimensionless))
      (fun factor => !factor.isFinite) = true := by
    decide +kernel
  obtain ⟨factor, factor_eq, infinite⟩ := Outcome.exists_of_passes converts
  refine ⟨⟨by decide +kernel, by decide +kernel⟩, by decide +kernel, ?_, by decide +kernel⟩
  exact ⟨factor, factor_eq, by simpa using infinite⟩

end UnitAlgebra
