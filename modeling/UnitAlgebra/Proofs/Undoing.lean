import UnitAlgebra.Proofs.Association
import UnitAlgebra.Proofs.Conversion

/-!
# Products that are divided again

A product that is divided by one factor has the dimensions of the other.  Bare units drop what
cancelling incurs, and an entry cancels the first entry of its dimension, not the one that it was
multiplied by.  So over the rationals the size comes back up to the dropped factors, and it comes
back as it was where both units measure the dimensions that they share in equally large entries.
-/

namespace UnitAlgebra

/-! ## Sides of equal size -/

namespace Side

/-- Entries of a dimension that two sides share are equally large. -/
def EquallySized (left right : Side Rat) : Prop :=
  ∀ entry ∈ left, ∀ other ∈ right, entry.dimension = other.dimension →
    entry.multiplier = other.multiplier

instance (left right : Side Rat) : Decidable (EquallySized left right) :=
  inferInstanceAs (Decidable (∀ entry ∈ left, ∀ other ∈ right,
    entry.dimension = other.dimension → entry.multiplier = other.multiplier))

theorem EquallySized.mono {left right left_part right_part : Side Rat}
    (equally : EquallySized left right) (left_subset : left_part ⊆ left)
    (right_subset : right_part ⊆ right) : EquallySized left_part right_part :=
  fun entry member other other_member =>
    equally entry (left_subset member) other (right_subset other_member)

theorem size_eq_of_tags_eq {left right : Side Rat} (same_tags : tags left = tags right)
    (equally : EquallySized left right) : size left = size right := by
  replace same_tags := tags_eq_iff.mp same_tags
  induction same_tags with
  | nil => rfl
  | @cons head head' tail tail' same _ induction =>
      have tails := equally.mono (List.subset_cons_self head tail)
        (List.subset_cons_self head' tail')
      rw [size_cons, size_cons, equally head (by simp) head' (by simp) same, induction tails]

theorem tags_filter {K : Type} [Scalar K] (test : String → Bool) (side : Side K) :
    tags (side.filter fun entry => test entry.dimension) = (tags side).filter test := by
  simp [tags, List.filter_map, Function.comp_def]

theorem size_filter_mul (test : BaseUnit Rat → Bool) (side : Side Rat) :
    size (side.filter test) * size (side.filter fun entry => !test entry) = size side := by
  rw [← size_append]
  exact size_perm (List.filter_append_perm test side)

/--
A side has the size of another of the same dimensions if it is drawn from that and from a pool that
is equally large in each dimension that they share.
-/
theorem size_eq_of_subperm {left right pool : Side Rat} (same_tags : tags left = tags right)
    (drawn : left.Subperm (right ++ pool)) (equally : EquallySized right pool) :
    size left = size right := by
  let pooled (tag : String) : Bool := (tags pool).contains tag
  -- Where the pool has a dimension, all entries of it are equally large.
  have shared : size (left.filter fun entry => pooled entry.dimension) =
      size (right.filter fun entry => pooled entry.dimension) := by
    apply size_eq_of_tags_eq
    · rw [tags_filter, tags_filter, same_tags]
    · intro entry member other other_member same
      obtain ⟨entry_member, -⟩ := List.mem_filter.mp member
      obtain ⟨other_member, other_pooled⟩ := List.mem_filter.mp other_member
      obtain ⟨third, third_member, third_eq⟩ :=
        List.mem_map.mp (List.contains_iff_mem.mp other_pooled)
      rcases List.mem_append.mp (drawn.subset entry_member) with in_right | in_pool
      · rw [equally entry in_right third third_member (same.trans third_eq.symm),
          equally other other_member third third_member third_eq.symm]
      · exact (equally other other_member entry in_pool same.symm).symm
  -- Where it has not, the entries are those of the other side, of which none is missing.
  have own : size (left.filter fun entry => !pooled entry.dimension) =
      size (right.filter fun entry => !pooled entry.dimension) := by
    have own_drawn := drawn.filter fun entry => !pooled entry.dimension
    have none_pooled : pool.filter (fun entry => !pooled entry.dimension) = [] := by
      rw [List.filter_eq_nil_iff]
      intro entry member
      have tagged : entry.dimension ∈ tags pool := List.mem_map_of_mem member
      simp [pooled, tagged]
    rw [List.filter_append, none_pooled, List.append_nil] at own_drawn
    have own_tags : tags (left.filter fun entry => !pooled entry.dimension) =
        tags (right.filter fun entry => !pooled entry.dimension) := by
      rw [tags_filter fun tag => !pooled tag, tags_filter fun tag => !pooled tag, same_tags]
    exact size_perm (own_drawn.perm_of_length_le (CompoundUnit.length_eq_of_tags_eq own_tags).ge)
  rw [← size_filter_mul (fun entry => pooled entry.dimension) left, shared, own, size_filter_mul]

theorem size_fill (side : Side Rat) : size (fill side) = size side := by
  cases side with
  | nil => exact size_dimensionless
  | cons head tail => rfl

end Side

namespace CompoundUnit

/-! ## Entries -/

section

variable {K : Type} [Scalar K] [LawfulScalar K] {unit other : CompoundUnit K}

theorem IsReduced.exponent_multiply_divide (unit_reduced : unit.IsReduced)
    (other_reduced : other.IsReduced) {tag : String} (proper : tag ≠ noDimension) :
    ((unit.multiply other).divide other).exponent tag = unit.exponent tag := by
  obtain ⟨above, below, entries⟩ := unit_reduced
  obtain ⟨product_above, product_below, product_entries⟩ :=
    IsReduced.multiply ⟨above, below, entries⟩ other_reduced
  rw [CompoundUnit.divide,
    exponent_quotientWithFactor proper product_entries.isDimensionless_placeholder,
    CompoundUnit.multiply, exponent_productWithFactor proper entries.isDimensionless_placeholder,
    Int.add_sub_cancel]

theorem IsReduced.tags_multiply_divide (unit_reduced : unit.IsReduced)
    (other_reduced : other.IsReduced) :
    Side.tags ((unit.multiply other).divide other).numerator = Side.tags unit.numerator ∧
      Side.tags ((unit.multiply other).divide other).denominator = Side.tags unit.denominator := by
  obtain ⟨_, _, restored_entries⟩ := (unit_reduced.multiply other_reduced).divide other_reduced
  obtain ⟨_, _, unit_entries⟩ := unit_reduced
  exact restored_entries.side_tags_eq unit_entries fun tag proper =>
    IsReduced.exponent_multiply_divide ⟨_, _, unit_entries⟩ other_reduced proper

theorem IsReduced.compatible_multiply_divide (unit_reduced : unit.IsReduced)
    (other_reduced : other.IsReduced) :
    ((unit.multiply other).divide other).compatible unit = true := by
  obtain ⟨above_eq, below_eq⟩ := unit_reduced.tags_multiply_divide other_reduced
  rw [compatible, dimensionality, dimensionality, above_eq, below_eq, beq_self_eq_true]

end

/-! ## Sizes -/

variable {unit other : CompoundUnit Rat}

/-- The size comes back up to the factors that the product and the quotient drop. -/
theorem IsReduced.size_multiply_divide (unit_reduced : unit.IsReduced)
    (other_reduced : other.IsReduced) :
    (unit.productWithFactor other).2 * ((unit.multiply other).quotientWithFactor other).2 *
        ((unit.multiply other).divide other).size = unit.size := by
  obtain ⟨_, _, product_entries⟩ := unit_reduced.multiply other_reduced
  obtain ⟨_, _, unit_entries⟩ := unit_reduced
  obtain ⟨_, _, other_entries⟩ := other_reduced
  have product_size := unit_entries.isStandard.size_productWithFactor other_entries.isStandard
  have quotient_size := product_entries.isStandard.size_quotientWithFactor other_entries.isStandard
  calc
    (unit.productWithFactor other).2 * ((unit.multiply other).quotientWithFactor other).2 *
        ((unit.multiply other).divide other).size
      = (unit.productWithFactor other).2 * ((unit.multiply other).size / other.size) := by
        rw [mul_assoc, ← quotient_size]
        rfl
    _ = unit.size * other.size / other.size := by
        rw [← mul_div_assoc, ← product_size]
        rfl
    _ = unit.size := mul_div_cancel_right₀ unit.size other.size_pos.ne'

/-- A product divided by one factor converts to the other by the factors that were dropped. -/
theorem IsReduced.conversionFactor_multiply_divide (unit_reduced : unit.IsReduced)
    (other_reduced : other.IsReduced) :
    ((unit.multiply other).divide other).conversionFactor unit =
      .ok (1 / ((unit.productWithFactor other).2 *
        ((unit.multiply other).quotientWithFactor other).2)) := by
  obtain ⟨above_eq, below_eq⟩ := unit_reduced.tags_multiply_divide other_reduced
  have restored_pos := ((unit.multiply other).divide other).size_pos
  rw [conversionFactor_of_tags_eq above_eq below_eq]
  rw [← unit_reduced.size_multiply_divide other_reduced, div_mul_cancel_right₀ restored_pos.ne',
    one_div]

/-- Whether two units measure the dimensions that they share in equally large entries. -/
def EquallySized (unit other : CompoundUnit Rat) : Prop :=
  Side.EquallySized (unit.numerator ++ unit.denominator) (other.numerator ++ other.denominator)

instance (unit other : CompoundUnit Rat) : Decidable (EquallySized unit other) :=
  inferInstanceAs (Decidable (Side.EquallySized _ _))

namespace HasEntries

variable {above below other_above other_below : Side Rat}

theorem size_eq (entries : unit.HasEntries above below) :
    unit.size = Side.size above / Side.size below := by
  rw [size, entries.numerator_eq, entries.denominator_eq, Side.size_fill, Side.size_fill]

theorem subset_sides (entries : unit.HasEntries above below) :
    above ⊆ unit.numerator ++ unit.denominator ∧ below ⊆ unit.numerator ++ unit.denominator := by
  rw [entries.numerator_eq, entries.denominator_eq]
  exact ⟨List.subset_append_of_subset_left _ (Side.subset_fill above),
    List.subset_append_of_subset_right _ (Side.subset_fill below)⟩

theorem size_multiply_divide (unit_entries : unit.HasEntries above below)
    (other_entries : other.HasEntries other_above other_below)
    (equally : unit.EquallySized other) :
    ((unit.multiply other).divide other).size = unit.size := by
  obtain ⟨product_above, product_below, product_entries, product_above_drawn,
    product_below_drawn⟩ := unit_entries.productWithFactor other_entries
  obtain ⟨restored_above, restored_below, restored_entries, above_drawn, below_drawn⟩ :=
    product_entries.quotientWithFactor other_entries
  have same : ∀ tag, tag ≠ noDimension →
      ((unit.multiply other).divide other).exponent tag = unit.exponent tag := fun tag proper =>
    IsReduced.exponent_multiply_divide ⟨_, _, unit_entries⟩ ⟨_, _, other_entries⟩ proper
  obtain ⟨above_tags, below_tags⟩ :=
    HasEntries.tags_eq_of_exponent_eq restored_entries unit_entries same
  have above_pool : restored_above.Subperm (above ++ (other_above ++ other_below)) := by
    rw [← List.append_assoc]
    exact above_drawn.trans (product_above_drawn.append (List.Subperm.refl _))
  have below_pool : restored_below.Subperm (below ++ (other_below ++ other_above)) := by
    rw [← List.append_assoc]
    exact below_drawn.trans (product_below_drawn.append (List.Subperm.refl _))
  obtain ⟨other_above_subset, other_below_subset⟩ := other_entries.subset_sides
  have above_size := Side.size_eq_of_subperm above_tags above_pool
    (equally.mono unit_entries.subset_sides.1
      (List.append_subset.mpr ⟨other_above_subset, other_below_subset⟩))
  have below_size := Side.size_eq_of_subperm below_tags below_pool
    (equally.mono unit_entries.subset_sides.2
      (List.append_subset.mpr ⟨other_below_subset, other_above_subset⟩))
  calc
    ((unit.multiply other).divide other).size
      = Side.size restored_above / Side.size restored_below := restored_entries.size_eq
    _ = Side.size above / Side.size below := by rw [above_size, below_size]
    _ = unit.size := unit_entries.size_eq.symm

end HasEntries

end CompoundUnit

/-! ## Expressions -/

namespace Expression

/-- A text of three units, of which the first two are multiplied and the last is a divisor. -/
theorem evaluate_multiply_divide {K : Type} [Scalar K] {registry : Registry K} {text : String}
    {left middle right : CompoundUnit K}
    (read : Token.ofText registry text = .ok [.operand (.bare left), .operator .times,
      .operand (.bare middle), .operator .over, .operand (.bare right)]) :
    evaluate registry text = .ok (.bare ((left.multiply middle).divide right)) := by
  rw [evaluate, read]
  rfl

/-- The words of a registered name, of another one and of the other one again as a divisor. -/
theorem ofText_multiply_divide {K : Type} [Scalar K] {registry : Registry K}
    {text left right : String} {unit other : CompoundUnit K}
    (words_eq : words text = [.plain left.toList, .mark (.operator .times), .plain right.toList,
      .mark (.operator .over), .plain right.toList])
    (found : registry.lookup? left = some unit)
    (other_found : registry.lookup? right = some other) :
    Token.ofText registry text = .ok [.operand (.bare unit), .operator .times,
      .operand (.bare other), .operator .over, .operand (.bare other)] := by
  have left_read : Token.ofWord registry (.plain left.toList) = .ok (.operand (.bare unit)) := by
    simp [Token.ofWord, Token.valueOfWord?, found]
  have right_read : Token.ofWord registry (.plain right.toList) = .ok (.operand (.bare other)) := by
    simp [Token.ofWord, Token.valueOfWord?, other_found]
  rw [Token.ofText, words_eq]
  simp only [List.mapM_cons, List.mapM_nil, left_read, right_read]
  rfl

end Expression

namespace Registry

/-! ## Given units -/

/--
A product of given units that is divided by the second one converts to the first, and it is what
texts denote that spell it.  Over the rationals the conversion factor is one over what the product
and the quotient drop, which is one if the units measure the dimensions that they share in equally
large entries.
-/
theorem multiply_divide_restores :
    (∀ {K : Type} [Scalar K] [LawfulScalar K] {table : DefinitionTable K} {registry : Registry K}
        {unit other : CompoundUnit K}, ofTable table = .ok registry →
        registry.Gives (.bare unit) → registry.Gives (.bare other) →
      ((unit.multiply other).divide other).compatible unit = true ∧
        ∀ text, Expression.Token.ofText registry text = .ok [.operand (.bare unit),
            .operator .times, .operand (.bare other), .operator .over, .operand (.bare other)] →
          Expression.evaluate registry text = .ok (.bare ((unit.multiply other).divide other))) ∧
    (∀ {table : DefinitionTable Rat} {registry : Registry Rat} {unit other : CompoundUnit Rat},
        ofTable table = .ok registry →
        registry.Gives (.bare unit) → registry.Gives (.bare other) →
      ((unit.multiply other).divide other).conversionFactor unit =
          .ok (1 / ((unit.productWithFactor other).2 *
            ((unit.multiply other).quotientWithFactor other).2)) ∧
        (unit.EquallySized other →
          ((unit.multiply other).divide other).conversionFactor unit = .ok 1)) := by
  constructor
  · intro K _ _ table registry unit other built unit_given other_given
    have unit_reduced : unit.IsReduced := isReduced_of_gives built unit_given
    have other_reduced : other.IsReduced := isReduced_of_gives built other_given
    exact ⟨unit_reduced.compatible_multiply_divide other_reduced,
      fun text read => Expression.evaluate_multiply_divide read⟩
  · intro table registry unit other built unit_given other_given
    have unit_reduced : unit.IsReduced := isReduced_of_gives built unit_given
    have other_reduced : other.IsReduced := isReduced_of_gives built other_given
    refine ⟨unit_reduced.conversionFactor_multiply_divide other_reduced, fun equally => ?_⟩
    obtain ⟨above_eq, below_eq⟩ := unit_reduced.tags_multiply_divide other_reduced
    obtain ⟨_, _, unit_entries⟩ := unit_reduced
    obtain ⟨_, _, other_entries⟩ := other_reduced
    rw [CompoundUnit.conversionFactor_of_tags_eq above_eq below_eq,
      unit_entries.size_multiply_divide other_entries equally, div_self unit.size_pos.ne']

/-- A table of lengths and times. -/
private def distances : DefinitionTable Rat where
  prefixes := [("kilo-", 1000)]
  dimensions :=
    [⟨dimensionlessName, [(dimensionlessName, .multiplier 1)]⟩,
      ⟨"length", [("meter", .multiplier 1)]⟩,
      ⟨"time", [("second", .multiplier 1), ("hour", .multiplier 3600),
        ("speed", .composed ⟨some ["kilometer"], some ["hour"]⟩)]⟩]

/-- The hours of a speed are cancelled and come back, and the length is not concerned. -/
theorem speed_times_hour_over_hour :
    ∃ registry speed hour, ofTable distances = .ok registry ∧
      registry.lookup? "speed" = some speed ∧ registry.lookup? "hour" = some hour ∧
      ((speed.multiply hour).divide hour).conversionFactor speed = .ok 1 ∧
      Expression.evaluate registry "speed * hour / hour" =
        .ok (.bare ((speed.multiply hour).divide hour)) := by
  have computed : Outcome.passes (ofTable distances) (fun registry =>
      (registry.lookup? "speed").any fun speed => (registry.lookup? "hour").any fun hour =>
        decide (speed.EquallySized hour)) = true := by decide +kernel
  have words_eq : Expression.words "speed * hour / hour" =
      [.plain "speed".toList, .mark (.operator .times), .plain "hour".toList,
        .mark (.operator .over), .plain "hour".toList] := by decide +kernel
  obtain ⟨registry, built, tests⟩ := Outcome.exists_of_passes computed
  simp only [Option.any_eq_true, decide_eq_true_eq] at tests
  obtain ⟨speed, speed_found, hour, hour_found, equally⟩ := tests
  obtain ⟨-, reads⟩ := multiply_divide_restores.1 built (.lookup speed_found) (.lookup hour_found)
  obtain ⟨-, restores⟩ :=
    multiply_divide_restores.2 built (.lookup speed_found) (.lookup hour_found)
  exact ⟨registry, speed, hour, built, speed_found, hour_found, restores equally,
    reads _ (Expression.ofText_multiply_divide words_eq speed_found hour_found)⟩

/-- A kilometer cancels the meter that it is multiplied by, which leaves a thousandfold unit. -/
theorem meter_times_kilometer_over_kilometer :
    ∃ registry meter kilometer unit, ofTable distances = .ok registry ∧
      registry.lookup? "meter" = some meter ∧ registry.lookup? "kilometer" = some kilometer ∧
      ((meter.multiply kilometer).divide kilometer).conversionFactor meter = .ok 1000 ∧
      Expression.evaluate registry "meter * kilometer / kilometer" = .ok (.bare unit) ∧
      unit.conversionFactor meter = .ok 1000 := by
  have computed : Outcome.passes (ofTable distances) (fun registry =>
      (registry.lookup? "meter").any fun meter =>
        (registry.lookup? "kilometer").any fun kilometer =>
          Outcome.passes (((meter.multiply kilometer).divide kilometer).conversionFactor meter)
            fun factor => decide (factor = 1000)) = true := by decide +kernel
  have words_eq : Expression.words "meter * kilometer / kilometer" =
      [.plain "meter".toList, .mark (.operator .times), .plain "kilometer".toList,
        .mark (.operator .over), .plain "kilometer".toList] := by decide +kernel
  obtain ⟨registry, built, tests⟩ := Outcome.exists_of_passes computed
  simp only [Option.any_eq_true] at tests
  obtain ⟨meter, meter_found, kilometer, kilometer_found, converts⟩ := tests
  obtain ⟨factor, factor_eq, thousand⟩ := Outcome.exists_of_passes converts
  obtain rfl := of_decide_eq_true thousand
  have evaluated := Expression.evaluate_multiply_divide
    (Expression.ofText_multiply_divide words_eq meter_found kilometer_found)
  exact ⟨registry, meter, kilometer, _, built, meter_found, kilometer_found, factor_eq, evaluated,
    factor_eq⟩

end Registry
end UnitAlgebra
