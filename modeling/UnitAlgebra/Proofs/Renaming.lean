import UnitAlgebra.Proofs.EqualUnits

/-!
# Names and the order of assembly

Two runs of one operation on equal operands differ at most in the names that they show.  The
canonical order does not see names, so it puts equal entries at equal places; whichever of several
equal entries then stands first, cancellation removes the same multipliers in the same order.  Sides
that are put together in another order, or under other names, are therefore interchangeable.
-/

namespace UnitAlgebra

variable {K : Type} [Scalar K]

/-! ## Sides -/

namespace Side

/-- The entries of one side are those of another in some order, under names of their own. -/
def Resembles (left right : Side K) : Prop :=
  ∃ middle, left.Perm middle ∧ (middle == right) = true

variable {left right : Side K}

theorem Resembles.unnamed_perm [OrderedScalar K] (resembles : left.Resembles right) :
    (unnamed left).Perm (unnamed right) := by
  obtain ⟨middle, permuted, equal⟩ := resembles
  rw [← beq_iff.mp equal]
  exact permuted.map BaseUnit.unnamed

theorem hash_eq_of_unnamed_eq (same : unnamed left = unnamed right) : hash left = hash right := by
  have hash_unnamed (side : Side K) : hash (unnamed side) = hash side := by
    change List.foldl _ 7 (side.map BaseUnit.unnamed) = List.foldl _ 7 side
    rw [List.foldl_map]
    rfl
  rw [← hash_unnamed, same, hash_unnamed]

end Side

/-! ## Cancellation -/

/-- Two cancellations that leave equal sides and incur the same factor. -/
structure Cancellation.Agrees (left right : Cancellation K) : Prop where
  /-- The entries left above the line are equal. -/
  numerator_beq : (left.numerator == right.numerator) = true
  /-- The entries left below the line are equal. -/
  denominator_beq : (left.denominator == right.denominator) = true
  /-- The factors are the same scalar. -/
  factor_eq : left.factor = right.factor

theorem simplify_agrees [OrderedScalar K] {numerator numerator' denominator denominator' : Side K}
    (numerators : numerator.Resembles numerator')
    (denominators : denominator.Resembles denominator') :
    (simplify numerator denominator).Agrees (simplify numerator' denominator') := by
  have same := simplify_unnamed_eq_of_perm numerators.unnamed_perm denominators.unnamed_perm
  have factor_eq := congrArg Cancellation.factor same
  exact ⟨Side.beq_iff.mpr (congrArg Cancellation.numerator same),
    Side.beq_iff.mpr (congrArg Cancellation.denominator same), factor_eq⟩

/-! ## Base units -/

theorem BaseUnit.same_of_unnamed_eq {left right : BaseUnit K}
    (same : left.unnamed = right.unnamed) :
    left.dimension = right.dimension ∧ left.multiplier = right.multiplier := by
  rw [← dimension_unnamed left, ← multiplier_unnamed left, same]
  exact ⟨rfl, rfl⟩

theorem BaseUnit.conversionFactor_alike {source target source' target' : BaseUnit K}
    (source_same : source.unnamed = source'.unnamed)
    (target_same : target.unnamed = target'.unnamed) :
    Outcome.Alike Eq (source.conversionFactor target) (source'.conversionFactor target') := by
  obtain ⟨source_dimension, source_multiplier⟩ := same_of_unnamed_eq source_same
  obtain ⟨target_dimension, target_multiplier⟩ := same_of_unnamed_eq target_same
  rw [conversionFactor, conversionFactor, source_dimension, target_dimension, source_multiplier,
    target_multiplier]
  split
  · exact .ok rfl
  · exact .error _ _

/-! ## Units -/

namespace CompoundUnit

/-- Equal units whose placeholders are equal too. -/
structure Resembles (left right : CompoundUnit K) : Prop where
  /-- The sides are equal entry by entry. -/
  equal : (left == right) = true
  /-- What stands on empty sides is equal. -/
  placeholder_equal : (left.placeholder == right.placeholder) = true

/-- Interchangeable units, and the same factor. -/
structure ResultsResemble (left right : CompoundUnit K × K) : Prop where
  /-- The units are interchangeable. -/
  units : left.1.Resembles right.1
  /-- The factors are the same scalar. -/
  factor_eq : left.2 = right.2

namespace Resembles

variable {left right left' right' : CompoundUnit K}

theorem isDimensionless_eq (resembles : left.Resembles left') :
    left.isDimensionless = left'.isDimensionless := by
  obtain ⟨above_equal, below_equal⟩ := Bool.and_eq_true_iff.mp resembles.equal
  rw [isDimensionless, isDimensionless, Side.isPlaceholder_of_beq above_equal,
    Side.isPlaceholder_of_beq below_equal]

variable [OrderedScalar K]

theorem refl (unit : CompoundUnit K) : unit.Resembles unit :=
  ⟨beq_self unit, BaseUnit.beq_self unit.placeholder⟩

theorem trans {first second third : CompoundUnit K} (resembles : first.Resembles second)
    (next_resembles : second.Resembles third) : first.Resembles third := by
  obtain ⟨above, below⟩ := beq_iff.mp resembles.equal
  obtain ⟨next_above, next_below⟩ := beq_iff.mp next_resembles.equal
  have placeholder_same := (BaseUnit.beq_iff.mp resembles.placeholder_equal).trans
    (BaseUnit.beq_iff.mp next_resembles.placeholder_equal)
  exact ⟨beq_iff.mpr ⟨above.trans next_above, below.trans next_below⟩,
    BaseUnit.beq_iff.mpr placeholder_same⟩

theorem hash_eq (resembles : left.Resembles left') : hash left = hash left' := by
  obtain ⟨above, below⟩ := beq_iff.mp resembles.equal
  change mixHash (hash left.numerator) (hash left.denominator) =
    mixHash (hash left'.numerator) (hash left'.denominator)
  rw [Side.hash_eq_of_unnamed_eq above, Side.hash_eq_of_unnamed_eq below]

end Resembles

theorem ResultsResemble.trans [OrderedScalar K] {first second third : CompoundUnit K × K}
    (resemble : ResultsResemble first second) (next_resemble : ResultsResemble second third) :
    ResultsResemble first third :=
  ⟨resemble.units.trans next_resemble.units, resemble.factor_eq.trans next_resemble.factor_eq⟩

/-! ## Products, quotients and powers -/

namespace Resembles

variable [OrderedScalar K] {left right left' right' : CompoundUnit K}

/-- Equal entries that are joined to equal units give equal units and the same factor. -/
theorem extend (resembles : left.Resembles left') {above above' below below' : Side K}
    (above_same : Side.unnamed above = Side.unnamed above')
    (below_same : Side.unnamed below = Side.unnamed below') :
    ResultsResemble (left.extend above below) (left'.extend above' below') := by
  obtain ⟨numerator_same, denominator_same⟩ := beq_iff.mp resembles.equal
  have numerators :
      Side.unnamed (left.numerator ++ above) = Side.unnamed (left'.numerator ++ above') := by
    rw [Side.unnamed_append, Side.unnamed_append, numerator_same, above_same]
  have denominators :
      Side.unnamed (left.denominator ++ below) = Side.unnamed (left'.denominator ++ below') := by
    rw [Side.unnamed_append, Side.unnamed_append, denominator_same, below_same]
  have same := simplify_unnamed_eq_of_perm (.of_eq numerators) (.of_eq denominators)
  have factor_eq := congrArg Cancellation.factor same
  refine ⟨⟨?_, resembles.placeholder_equal⟩, factor_eq⟩
  exact ofSides_beq (congrArg Cancellation.numerator same)
    (congrArg Cancellation.denominator same) resembles.placeholder_equal

theorem productWithFactor (left_resembles : left.Resembles left')
    (right_resembles : right.Resembles right') :
    ResultsResemble (left.productWithFactor right) (left'.productWithFactor right') := by
  obtain ⟨above_same, below_same⟩ := beq_iff.mp right_resembles.equal
  rw [CompoundUnit.productWithFactor, CompoundUnit.productWithFactor,
    left_resembles.isDimensionless_eq, right_resembles.isDimensionless_eq]
  split
  · exact ⟨left_resembles, rfl⟩
  · split
    · exact ⟨right_resembles, rfl⟩
    · exact left_resembles.extend above_same below_same

theorem quotientWithFactor (left_resembles : left.Resembles left')
    (right_resembles : right.Resembles right') :
    ResultsResemble (left.quotientWithFactor right) (left'.quotientWithFactor right') := by
  obtain ⟨above_same, below_same⟩ := beq_iff.mp right_resembles.equal
  rw [CompoundUnit.quotientWithFactor, CompoundUnit.quotientWithFactor,
    right_resembles.isDimensionless_eq]
  split
  · exact ⟨left_resembles, rfl⟩
  · exact left_resembles.extend below_same above_same

theorem combine (left_resembles : left.Resembles left') (right_resembles : right.Resembles right')
    (operator : Operator) :
    ResultsResemble (left.combine operator right) (left'.combine operator right') := by
  cases operator
  · exact left_resembles.productWithFactor right_resembles
  · exact left_resembles.quotientWithFactor right_resembles

theorem multiplyTimes {unit unit' product product' : CompoundUnit K}
    (unit_resembles : unit.Resembles unit') (product_resembles : product.Resembles product')
    (count : Nat) :
    (unit.multiplyTimes product count).Resembles (unit'.multiplyTimes product' count) := by
  induction count generalizing product product' with
  | zero => exact product_resembles
  | succ count induction =>
      exact induction (product_resembles.productWithFactor unit_resembles).units

theorem power (resembles : left.Resembles left') (exponent : Nat) :
    Outcome.Alike (fun power power' => (power == power') = true) (left.power exponent)
      (left'.power exponent) := by
  cases exponent with
  | zero => exact .error _ _
  | succ count => exact .ok (resembles.multiplyTimes resembles count).equal

/-! ## Conversion -/

theorem compatible_eq (left_resembles : left.Resembles left')
    (right_resembles : right.Resembles right') :
    left.compatible right = left'.compatible right' := by
  obtain ⟨left_above, left_below⟩ := tags_eq_of_beq left_resembles.equal
  obtain ⟨right_above, right_below⟩ := tags_eq_of_beq right_resembles.equal
  rw [compatible, compatible, dimensionality, dimensionality, dimensionality, dimensionality,
    left_above, left_below, right_above, right_below]

end Resembles

theorem foldFactors_alike (step : K → K → K) {sources targets sources' targets' : Side K}
    (sources_same : Side.unnamed sources = Side.unnamed sources')
    (targets_same : Side.unnamed targets = Side.unnamed targets') (factor : K) :
    Outcome.Alike Eq (foldFactors step factor sources targets)
      (foldFactors step factor sources' targets') := by
  induction sources generalizing targets sources' targets' factor with
  | nil =>
      obtain rfl : sources' = [] := List.map_eq_nil_iff.mp sources_same.symm
      exact .ok rfl
  | cons source sources induction =>
      cases sources' with
      | nil => cases sources_same
      | cons source' sources' =>
          obtain ⟨source_same, sources_same⟩ := List.cons.inj sources_same
          cases targets with
          | nil =>
              obtain rfl : targets' = [] := List.map_eq_nil_iff.mp targets_same.symm
              exact .ok rfl
          | cons target targets =>
              cases targets' with
              | nil => cases targets_same
              | cons target' targets' =>
                  obtain ⟨target_same, targets_same⟩ := List.cons.inj targets_same
                  rw [foldFactors, foldFactors]
                  refine (BaseUnit.conversionFactor_alike source_same target_same).bind ?_
                  rintro ratio _ rfl
                  exact induction sources_same targets_same _

theorem Resembles.conversionFactor [OrderedScalar K]
    {source target source' target' : CompoundUnit K}
    (source_resembles : source.Resembles source') (target_resembles : target.Resembles target') :
    Outcome.Alike Eq (source.conversionFactor target) (source'.conversionFactor target') := by
  obtain ⟨source_above, source_below⟩ := beq_iff.mp source_resembles.equal
  obtain ⟨target_above, target_below⟩ := beq_iff.mp target_resembles.equal
  rw [CompoundUnit.conversionFactor, CompoundUnit.conversionFactor,
    source_resembles.compatible_eq target_resembles]
  split
  · refine (foldFactors_alike _ source_above target_above 1).bind ?_
    rintro above _ rfl
    exact foldFactors_alike _ source_below target_below above
  · exact .error _ _

/-- Whatever is done with two units comes out as with two others. -/
structure Interchangeable (left right left' right' : CompoundUnit K) : Prop where
  /-- The products are equal. -/
  multiply : (left.multiply right == left'.multiply right') = true
  /-- The quotients are equal. -/
  divide : (left.divide right == left'.divide right') = true
  /-- Products and quotients incur the same factor. -/
  factor_eq (operator : Operator) :
    (left.combine operator right).2 = (left'.combine operator right').2
  /-- The powers are equal, or there is none. -/
  power (exponent : Nat) : Outcome.Alike (fun power power' => (power == power') = true)
    (left.power exponent) (left'.power exponent)
  /-- The conversion factors are the same, or there is none. -/
  conversionFactor :
    Outcome.Alike Eq (left.conversionFactor right) (left'.conversionFactor right')
  /-- Both pairs are compatible, or neither is. -/
  compatible_eq : left.compatible right = left'.compatible right'
  /-- Both units have a dimension, or neither has. -/
  isDimensionless_eq : left.isDimensionless = left'.isDimensionless
  /-- The hashes are the same. -/
  hash_eq : hash left = hash left'

theorem Resembles.interchangeable [OrderedScalar K] {left right left' right' : CompoundUnit K}
    (left_resembles : left.Resembles left') (right_resembles : right.Resembles right') :
    left.Interchangeable right left' right' where
  multiply := (left_resembles.productWithFactor right_resembles).units.equal
  divide := (left_resembles.quotientWithFactor right_resembles).units.equal
  factor_eq operator := (left_resembles.combine right_resembles operator).factor_eq
  power := left_resembles.power
  conversionFactor := left_resembles.conversionFactor right_resembles
  compatible_eq := left_resembles.compatible_eq right_resembles
  isDimensionless_eq := left_resembles.isDimensionless_eq
  hash_eq := left_resembles.hash_eq

end CompoundUnit

/--
Names, labels and the order of assembly play no part in the algebra.  The canonical order is total,
and exactly the equal base units stand at one place.  So sides of the same entries in any order and
under any names cancel to equal sides with the same factor, and equal units with equal placeholders
are interchangeable in every operation.
-/
theorem algebra_ignores_names [OrderedScalar K] :
    (∀ first second : BaseUnit K, second.order first = (first.order second).swap) ∧
      (∀ first second third : BaseUnit K, (first.order second).isLE = true →
        (second.order third).isLE = true → (first.order third).isLE = true) ∧
      (∀ first second : BaseUnit K, first.order second = .eq ↔ (first == second) = true) ∧
      (∀ numerator numerator' denominator denominator' : Side K, numerator.Resembles numerator' →
        denominator.Resembles denominator' →
          (simplify numerator denominator).Agrees (simplify numerator' denominator')) ∧
      ∀ left right left' right' : CompoundUnit K, left.Resembles left' → right.Resembles right' →
        left.Interchangeable right left' right' := by
  refine ⟨BaseUnit.order_swap, ?_, ?_, ?_, ?_⟩
  · exact fun first second third => Std.TransCmp.isLE_trans
  · exact fun first second => BaseUnit.order_eq_iff.trans BaseUnit.beq_iff.symm
  · exact fun _ _ _ _ => simplify_agrees
  · exact fun _ _ _ _ => CompoundUnit.Resembles.interchangeable

/-- Nautical mile, fathom and nautical mile again, under three names. -/
private def trackAbove : Side Float :=
  [⟨"nautical-mile", "[length]", "meter", 1852, by decide⟩,
    ⟨"fathom", "[length]", "meter", 1.8288, by decide⟩,
    ⟨"nmi", "[length]", "meter", 1852, by decide⟩]

/-- The same entries in another order, with the names of the nautical miles exchanged. -/
private def trackAbove' : Side Float :=
  [⟨"ftm", "[length]", "meter", 1.8288, by decide⟩, ⟨"nmi", "[length]", "meter", 1852, by decide⟩,
    ⟨"nautical-mile", "[length]", "meter", 1852, by decide⟩]

private def trackBelow : Side Float :=
  [⟨"day", "[time]", "second", 86400, by decide⟩,
    ⟨"cable", "[length]", "meter", 185.2, by decide⟩]

private def trackBelow' : Side Float :=
  [⟨"cbl", "[length]", "meter", 185.2, by decide⟩, ⟨"d", "[time]", "second", 86400, by decide⟩]

/-- The names differ, and so do the names of what is left; cancellation and the algebra agree. -/
theorem algebra_ignores_names_of_tracks :
    Side.names (simplify trackAbove trackBelow).numerator = ["nautical-mile", "nmi"] ∧
      Side.names (simplify trackAbove' trackBelow').numerator = ["nmi", "nautical-mile"] ∧
      (simplify trackAbove trackBelow).Agrees (simplify trackAbove' trackBelow') ∧
      (CompoundUnit.ofSides trackAbove trackBelow .dimensionless).Interchangeable
        (CompoundUnit.ofSides trackBelow trackAbove .dimensionless)
        ((CompoundUnit.ofSides trackAbove' trackBelow' .dimensionless).withLabel "track")
        (CompoundUnit.ofSides trackBelow' trackAbove' .dimensionless) := by
  obtain ⟨-, -, -, cancel, interchange⟩ := algebra_ignores_names (K := Float)
  refine ⟨by decide +kernel, by decide +kernel, cancel _ _ _ _ ?_ ?_, interchange _ _ _ _ ?_ ?_⟩
  · exact ⟨_, (List.perm_append_singleton _ _).symm, by decide +kernel⟩
  · exact ⟨_, List.Perm.swap _ _ _, by decide +kernel⟩
  · exact ⟨by decide +kernel, by decide +kernel⟩
  · exact ⟨by decide +kernel, by decide +kernel⟩

end UnitAlgebra
