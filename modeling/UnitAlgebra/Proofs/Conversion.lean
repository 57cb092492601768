import UnitAlgebra.Proofs.Size

/-!
# Conversion factors

Two units convert only if their dimensions agree entry by entry.  The texts of the dimensions are
compared first, and such a text does not determine its entries; but the entries that are paired
afterwards have equal dimensions, and no text of a proper prefix of the entries is the text of all
of them.  So no entry is left unpaired, and over the rationals the factor is the ratio of the sizes.
-/

namespace UnitAlgebra
namespace Side

/-! ## Texts of dimensions -/

theorem product_append {front back : List String} (front_ne : front ≠ []) (back_ne : back ≠ []) :
    (product (front ++ back)).toList =
      (product front).toList ++ '*' :: (product back).toList := by
  rw [product, String.intercalate_append_of_ne_nil front_ne back_ne, String.toList_append,
    String.toList_append, List.append_assoc]
  rfl

theorem eq_of_product_eq {front whole : List String} (front_ne : front ≠ [])
    (initial : front <+: whole) (text_eq : product front = product whole) : front = whole := by
  obtain ⟨back, rfl⟩ := initial
  by_cases back_eq : back = []
  · simp [back_eq]
  · have lengths := congrArg (fun text => text.toList.length) text_eq
    simp only [product_append front_ne back_eq, List.length_append, List.length_cons] at lengths
    omega

/-- The mark after the shorter list differs from the mark inside the longer one. -/
theorem eq_of_quotient_eq {front whole : List String} {below below' : String}
    (front_ne : front ≠ []) (initial : front <+: whole)
    (text_eq : product front ++ "/" ++ below = product whole ++ "/" ++ below') :
    front = whole := by
  obtain ⟨back, rfl⟩ := initial
  by_cases back_eq : back = []
  · simp [back_eq]
  · have characters := congrArg String.toList text_eq
    simp only [String.toList_append, product_append front_ne back_eq,
      List.append_assoc] at characters
    have marks := List.append_cancel_left characters
    simp at marks

theorem tags_eq_of_quotient_eq {above above' below below' : List String} (above_ne : above ≠ [])
    (above_ne' : above' ≠ []) (below_ne : below ≠ []) (below_ne' : below' ≠ [])
    (above_comparable : above <+: above' ∨ above' <+: above)
    (below_comparable : product below = product below' → below <+: below' ∨ below' <+: below)
    (text_eq : product above ++ "/" ++ product below = product above' ++ "/" ++ product below') :
    above = above' ∧ below = below' := by
  have above_eq : above = above' := by
    rcases above_comparable with initial | initial
    · exact eq_of_quotient_eq above_ne initial text_eq
    · exact (eq_of_quotient_eq above_ne' initial text_eq.symm).symm
  subst above_eq
  have below_text : product below = product below' := by
    apply String.toList_injective
    have characters := congrArg String.toList text_eq
    simpa only [String.toList_append, List.append_cancel_left_eq] using characters
  rcases below_comparable below_text with initial | initial
  · exact ⟨rfl, eq_of_product_eq below_ne initial below_text⟩
  · exact ⟨rfl, (eq_of_product_eq below_ne' initial below_text.symm).symm⟩

theorem tags_ne_nil {K : Type} [Scalar K] {side : Side K} (side_ne : side ≠ []) :
    tags side ≠ [] := by
  simpa [tags] using side_ne

end Side

namespace CompoundUnit

/-! ## Paired entries -/

section

variable {K : Type} [Scalar K]

/-- If all paired entries convert, then the shorter side has the first dimensions of the longer. -/
theorem foldFactors_tags {step : K → K → K} {factor result : K} {sources targets : Side K}
    (folded : foldFactors step factor sources targets = .ok result) :
    Side.tags sources <+: Side.tags targets ∨ Side.tags targets <+: Side.tags sources := by
  induction sources generalizing factor targets with
  | nil => exact .inl List.nil_prefix
  | cons source sources induction =>
      cases targets with
      | nil => exact .inr List.nil_prefix
      | cons target targets =>
          simp only [foldFactors, BaseUnit.conversionFactor] at folded
          split at folded
          · rename_i same
            simp only [Side.tags, List.map_cons, same, List.cons_prefix_cons, true_and]
            exact induction folded
          · cases folded

theorem tags_eq_of_conversionFactor {source target : CompoundUnit K} {factor : K}
    (source_filled : source.numerator ≠ [] ∧ source.denominator ≠ [])
    (target_filled : target.numerator ≠ [] ∧ target.denominator ≠ [])
    (converted : source.conversionFactor target = .ok factor) :
    Side.tags source.numerator = Side.tags target.numerator ∧
      Side.tags source.denominator = Side.tags target.denominator := by
  rw [conversionFactor] at converted
  split at converted
  · rename_i text_eq
    cases above_folded : foldFactors (· * ·) 1 source.numerator target.numerator with
    | error failure => simp [above_folded, bind, Except.bind] at converted
    | ok above =>
        rw [above_folded] at converted
        exact Side.tags_eq_of_quotient_eq (Side.tags_ne_nil source_filled.1)
          (Side.tags_ne_nil target_filled.1) (Side.tags_ne_nil source_filled.2)
          (Side.tags_ne_nil target_filled.2) (foldFactors_tags above_folded)
          (fun _ => foldFactors_tags converted) (beq_iff_eq.mp text_eq)
  · cases converted

/-- The ratios of the multipliers of paired entries. -/
def ratios (sources targets : Side K) : List K :=
  List.zipWith (fun source target => source.multiplier / target.multiplier) sources targets

/-- Sides of equal dimensions convert, and every ratio goes into the factor in order. -/
theorem foldFactors_eq_foldl {step : K → K → K} {factor : K} {sources targets : Side K}
    (same_tags : Side.tags sources = Side.tags targets) :
    foldFactors step factor sources targets = .ok ((ratios sources targets).foldl step factor) := by
  replace same_tags := Side.tags_eq_iff.mp same_tags
  induction same_tags generalizing factor with
  | nil => rfl
  | cons same _ induction =>
      rw [foldFactors, BaseUnit.conversionFactor, if_pos same]
      exact induction

theorem conversionFactor_eq_foldl {source target : CompoundUnit K}
    (above : Side.tags source.numerator = Side.tags target.numerator)
    (below : Side.tags source.denominator = Side.tags target.denominator) :
    source.conversionFactor target =
      .ok ((ratios source.denominator target.denominator).foldl (· / ·)
        ((ratios source.numerator target.numerator).foldl (· * ·) 1)) := by
  have compatible : source.compatible target = true := by
    simp [CompoundUnit.compatible, dimensionality, above, below]
  rw [conversionFactor, if_pos compatible]
  exact (congrArg (Except.bind · _) (foldFactors_eq_foldl above)).trans (foldFactors_eq_foldl below)

end

/-! ## Ratios of sizes -/

theorem foldl_div (values : List Rat) (factor : Rat) :
    values.foldl (· / ·) factor = factor / values.prod := by
  induction values generalizing factor with
  | nil => simp
  | cons value values induction => rw [List.foldl_cons, induction, List.prod_cons, div_div]

theorem prod_ratios {sources targets : Side Rat}
    (same_length : sources.length = targets.length) :
    (ratios sources targets).prod = Side.size sources / Side.size targets := by
  induction sources generalizing targets with
  | nil =>
      obtain rfl : targets = [] := List.length_eq_zero_iff.mp same_length.symm
      simp [ratios]
  | cons source sources induction =>
      cases targets with
      | nil => simp at same_length
      | cons target targets =>
          change (source.multiplier / target.multiplier) * (ratios sources targets).prod = _
          rw [induction (Nat.succ.inj same_length), Side.size_cons, Side.size_cons,
            div_mul_div_comm]

theorem length_eq_of_tags_eq {K : Type} [Scalar K] {sources targets : Side K}
    (same_tags : Side.tags sources = Side.tags targets) : sources.length = targets.length := by
  simpa [Side.tags] using congrArg List.length same_tags

theorem conversionFactor_of_tags_eq {source target : CompoundUnit Rat}
    (above : Side.tags source.numerator = Side.tags target.numerator)
    (below : Side.tags source.denominator = Side.tags target.denominator) :
    source.conversionFactor target = .ok (source.size / target.size) := by
  refine (conversionFactor_eq_foldl above below).trans (congrArg Except.ok ?_)
  refine (foldl_div _ _).trans ?_
  refine (congrArg (· / _) List.prod_eq_foldl.symm).trans ?_
  rw [prod_ratios (length_eq_of_tags_eq above), prod_ratios (length_eq_of_tags_eq below),
    size, size, div_div_div_comm]

/-- Wherever a conversion factor exists, it is the ratio of the sizes. -/
theorem eq_of_conversionFactor {source target : CompoundUnit Rat} {factor : Rat}
    (source_standard : source.IsStandard) (target_standard : target.IsStandard)
    (converted : source.conversionFactor target = .ok factor) :
    factor = source.size / target.size := by
  have same_tags := tags_eq_of_conversionFactor
    ⟨source_standard.numerator.ne_nil, source_standard.denominator.ne_nil⟩
    ⟨target_standard.numerator.ne_nil, target_standard.denominator.ne_nil⟩ converted
  rw [conversionFactor_of_tags_eq same_tags.1 same_tags.2] at converted
  exact (Except.ok.inj converted).symm

end CompoundUnit
end UnitAlgebra
