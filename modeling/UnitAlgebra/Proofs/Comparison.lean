import UnitAlgebra.Proofs.Compatibility
import UnitAlgebra.Quantity.Comparison

/-!
# Comparison of quantities

Equality of quantities asks for agreement in one of their two units, and an ordering is looked up in
the unit of the left quantity.  Equality is symmetric whatever the scalars are.  Over the rationals
both directions of a conversion say the same, so that equality and ordering are those of physical
values.
-/

namespace UnitAlgebra

/-! ## Scalars -/

/-- Scalars that compare alike in both orders, and as equal exactly if they are equal. -/
class ComparableScalar (K : Type) [Scalar K] : Prop where
  /-- The comparison of two scalars is turned around with them. -/
  compare?_swap (left right : K) :
    Scalar.compare? right left = (Scalar.compare? left right).map Ordering.swap
  /-- Two scalars compare as equal exactly if they are equal. -/
  compare?_eq_iff {left right : K} : Scalar.compare? left right = some .eq ↔ (left == right) = true

namespace Binary64

open Float.Model (UnpackedFloat)

/-- The order of unpacked doubles is turned around with its arguments; a NaN has no place in it. -/
theorem compare_swap (left right : UnpackedFloat) :
    right.compare left = (left.compare right).map Ordering.swap := by
  have sizes_swap (exponent exponent' : Int) (significand significand' : Nat) :
      (compare exponent' exponent).then (compare significand' significand) =
        ((compare exponent exponent').then (compare significand significand')).swap := by
    rw [Ordering.swap_then, ← Std.OrientedCmp.eq_swap, ← Std.OrientedCmp.eq_swap]
  cases left with
  | notANumber => cases right <;> rfl
  | infinity sign =>
      cases right with
      | infinity sign' => cases sign <;> cases sign' <;> rfl
      | _ => cases sign <;> rfl
  | zero sign =>
      cases right with
      | notANumber => rfl
      | zero sign' => rfl
      | infinity sign' => cases sign' <;> rfl
      | finite sign' _ _ _ => cases sign' <;> rfl
  | finite sign significand exponent _ =>
      cases right with
      | notANumber => cases sign <;> rfl
      | infinity sign' => cases sign <;> cases sign' <;> rfl
      | zero sign' => cases sign <;> rfl
      | finite sign' significand' exponent' _ =>
          cases sign <;> cases sign'
          case negative.negative => exact congrArg (some ·.swap) (sizes_swap _ _ _ _)
          case positive.positive => exact congrArg some (sizes_swap _ _ _ _)
          all_goals rfl

theorem compare?_eq (left right : Float) :
    Scalar.compare? left right = left.toModel.unpack.compare right.toModel.unpack := by
  have less_eq (left right : Float) : Scalar.less left right =
      (left.toModel.unpack.compare right.toModel.unpack == some .lt) :=
    Bool.eq_iff_iff.mpr ((decide_eq_true_iff (p := left < right)).trans
      (decide_eq_true_iff (p := left.toModel < right.toModel)))
  have beq_eq : (left == right) =
      (left.toModel.unpack.compare right.toModel.unpack == some .eq) := rfl
  rw [Scalar.compare?, less_eq, less_eq, beq_eq, compare_swap left.toModel.unpack]
  cases left.toModel.unpack.compare right.toModel.unpack with
  | none => rfl
  | some order => cases order <;> rfl

end Binary64

instance : ComparableScalar Float where
  compare?_swap left right := by
    rw [Binary64.compare?_eq, Binary64.compare?_eq, Binary64.compare_swap]
  compare?_eq_iff {left right} := by
    rw [Binary64.compare?_eq]
    exact beq_iff_eq.symm

theorem compare?_rat (left right : Rat) : Scalar.compare? left right = some (cmp left right) := by
  have less_eq (left right : Rat) : Scalar.less left right = decide (left < right) := rfl
  rcases lt_trichotomy left right with less | same | greater
  · rw [less.cmp_eq_lt]
    simp [Scalar.compare?, less_eq, less]
  · rw [same.cmp_eq_eq]
    simp [Scalar.compare?, less_eq, same]
  · rw [greater.cmp_eq_gt]
    simp [Scalar.compare?, less_eq, greater, greater.not_gt, greater.ne']

instance : ComparableScalar Rat where
  compare?_swap left right := by rw [compare?_rat, compare?_rat, Option.map_some, cmp_swap]
  compare?_eq_iff {left right} := by
    rw [compare?_rat, Option.some_inj, cmp_eq_eq_iff, beq_iff_eq]

theorem ComparableScalar.beq_comm {K : Type} [Scalar K] [ComparableScalar K] (left right : K) :
    (left == right) = (right == left) := by
  rw [Bool.eq_iff_iff, ← compare?_eq_iff, ← compare?_eq_iff, compare?_swap right left]
  cases Scalar.compare? right left with
  | none => simp
  | some order => cases order <;> simp

/-! ## Symmetry -/

theorem list_beq_comm {Entry : Type} [BEq Entry]
    (beq_comm : ∀ left right : Entry, (left == right) = (right == left))
    (left right : List Entry) : (left == right) = (right == left) := by
  induction left generalizing right with
  | nil => cases right <;> rfl
  | cons head tail induction =>
      cases right with
      | nil => rfl
      | cons head' tail' =>
          rw [List.cons_beq_cons, List.cons_beq_cons, beq_comm, induction]

section

variable {K : Type} [Scalar K]

theorem CompoundUnit.beq_comm
    (order_swap : ∀ left right : K, Scalar.order right left = (Scalar.order left right).swap)
    (left right : CompoundUnit K) : (left == right) = (right == left) := by
  have entries_comm (left right : BaseUnit K) : (left == right) = (right == left) := by
    have multipliers_comm : (Scalar.order right.multiplier left.multiplier == .eq) =
        (Scalar.order left.multiplier right.multiplier == .eq) := by
      rw [order_swap]
      cases Scalar.order left.multiplier right.multiplier <;> rfl
    change BaseUnit.equals left right = BaseUnit.equals right left
    rw [BaseUnit.equals, BaseUnit.equals, multipliers_comm, BEq.comm (a := left.dimension),
      BEq.comm (a := left.reference)]
  change CompoundUnit.equals left right = CompoundUnit.equals right left
  rw [CompoundUnit.equals, CompoundUnit.equals, list_beq_comm entries_comm left.numerator,
    list_beq_comm entries_comm left.denominator]

theorem CompoundUnit.compatible_comm (left right : CompoundUnit K) :
    left.compatible right = right.compatible left :=
  BEq.comm

theorem Magnitude.equals_comm (beq_comm : ∀ left right : K, (left == right) = (right == left))
    (left right : Magnitude K) : left.equals right = right.equals left := by
  cases left with
  | scalar left =>
      cases right with
      | scalar right => exact beq_comm left right
      | list right => rfl
  | list left =>
      cases right with
      | scalar right => rfl
      | list right => exact list_beq_comm beq_comm left right

/-- Quantities are equal in both orders, whatever the conversions between their units give. -/
theorem Quantity.equals_comm
    (order_swap : ∀ left right : K, Scalar.order right left = (Scalar.order left right).swap)
    (beq_comm : ∀ left right : K, (left == right) = (right == left))
    (left right : Quantity K) : left.equals right = right.equals left := by
  rw [equals, equals, CompoundUnit.beq_comm order_swap left.unit, compatible, compatible,
    CompoundUnit.compatible_comm left.unit, Magnitude.equals_comm beq_comm left.magnitude]
  cases right.magnitudeIn left.unit <;> cases left.magnitudeIn right.unit
  case ok.ok theirs ours =>
    dsimp only
    rw [Bool.or_comm]
  all_goals rfl

end

/-! ## Conversion to the other unit -/

namespace Quantity

section

variable {K : Type} [Scalar K] [DividingScalar K]

/-- Quantities whose units do not convert are different and do not compare. -/
theorem incomparable_of_misaligned (left right : Quantity K) (left_formed : left.unit.IsFormed)
    (right_formed : right.unit.IsFormed) (misaligned : ¬left.unit.Aligned right.unit) :
    left.equals right = false ∧ left.compare? right = none := by
  obtain ⟨failure, failed, -⟩ := CompoundUnit.exists_mismatch right_formed left_formed
    fun aligned => misaligned aligned.symm
  have no_magnitude : right.magnitudeIn left.unit = .error failure := by
    rw [magnitudeIn_eq_scale, failed]
    rfl
  constructor
  · have different : ¬(left.unit == right.unit) = true :=
      fun equal => misaligned (CompoundUnit.Aligned.of_beq equal)
    rw [equals, if_neg different, no_magnitude]
    split <;> rfl
  · rw [compare?, no_magnitude]
    cases left.magnitude.scalar? <;> rfl

/-- Quantities are equal if they agree in one of their units; this includes equal units. -/
theorem equals_of_converted [ComparableScalar K] {left right : Quantity K} {there back : K}
    (there_eq : right.unit.conversionFactor left.unit = .ok there)
    (back_eq : left.unit.conversionFactor right.unit = .ok back) :
    left.equals right = ((right.magnitude.scale there).equals left.magnitude ||
      (left.magnitude.scale back).equals right.magnitude) := by
  rw [equals]
  split
  · rename_i equal
    rw [CompoundUnit.conversionFactor_of_beq equal] at back_eq
    rw [CompoundUnit.beq_comm LawfulScalar.order_swap] at equal
    rw [CompoundUnit.conversionFactor_of_beq equal] at there_eq
    obtain rfl := Except.ok.inj there_eq
    obtain rfl := Except.ok.inj back_eq
    rw [Magnitude.scale_one, Magnitude.scale_one,
      Magnitude.equals_comm ComparableScalar.beq_comm right.magnitude, Bool.or_self]
  · have compatible : left.compatible right = true :=
      CompoundUnit.compatible_of_conversionFactor back_eq
    rw [if_pos compatible, magnitudeIn_eq_scale, magnitudeIn_eq_scale, there_eq, back_eq]
    rfl

theorem compare?_ofNumber {left right : CompoundUnit K} {factor : K}
    (converted : right.conversionFactor left = .ok factor) (number number' : K) :
    (ofNumber number left).compare? (ofNumber number' right) =
      Scalar.compare? number (number' * factor) := by
  rw [compare?, magnitudeIn_eq_scale]
  change (((right.conversionFactor left).map (Magnitude.scalar number').scale).toOption.bind _) = _
  rw [converted]
  rfl

end
end Quantity

/-! ## Physical values -/

namespace Magnitude

theorem map_injective {K L : Type} {function : K → L} (injective : Function.Injective function) :
    Function.Injective (Magnitude.map function) := by
  intro left right same
  cases left <;> cases right
  case scalar.scalar => exact congrArg scalar (injective (scalar.inj same))
  case list.list => exact congrArg list (List.map_injective_iff.mpr injective (list.inj same))
  all_goals cases same

theorem equals_iff {left right : Magnitude Rat} : left.equals right = true ↔ left = right := by
  cases left <;> cases right <;> simp [equals]

end Magnitude

theorem CompoundUnit.mul_size_injective (unit : CompoundUnit Rat) :
    Function.Injective fun number => number * unit.size :=
  mul_left_injective₀ unit.size_pos.ne'

namespace Quantity

/-- A magnitude becomes another one in the conversion exactly if their physical values agree. -/
theorem scale_eq_iff_inBase {left right : Quantity Rat} :
    left.magnitude.scale (left.unit.size / right.unit.size) = right.magnitude ↔
      left.inBase = right.inBase := by
  have size_ne := right.unit.size_pos.ne'
  have inBase_eq : left.inBase =
      (left.magnitude.scale (left.unit.size / right.unit.size)).map (· * right.unit.size) := by
    rw [Magnitude.scale, Magnitude.map_map]
    simp only [mul_assoc, div_mul_cancel₀ _ size_ne]
    rfl
  rw [inBase_eq, inBase]
  exact (Magnitude.map_injective right.unit.mul_size_injective).eq_iff.symm

/-- Quantities in aligned units are equal exactly if their physical values are the same. -/
theorem equals_iff_inBase {left right : Quantity Rat} (aligned : left.unit.Aligned right.unit) :
    left.equals right = true ↔ left.inBase = right.inBase := by
  rw [equals_of_converted aligned.symm.conversionFactor_eq aligned.conversionFactor_eq,
    Bool.or_eq_true, Magnitude.equals_iff, Magnitude.equals_iff, scale_eq_iff_inBase,
    scale_eq_iff_inBase, eq_comm, or_self]

/-- Single numbers in aligned units are ordered as their physical values are. -/
theorem compare?_eq_cmp {left right : CompoundUnit Rat} (aligned : left.Aligned right)
    (number number' : Rat) :
    (ofNumber number left).compare? (ofNumber number' right) =
      some (cmp (number * left.size) (number' * right.size)) := by
  have grows : StrictMono fun value : Rat => value * left.size :=
    fun _ _ less => mul_lt_mul_of_pos_right less left.size_pos
  have value_eq : number' * (right.size / left.size) * left.size = number' * right.size := by
    rw [mul_assoc, div_mul_cancel₀ _ left.size_pos.ne']
  rw [compare?_ofNumber aligned.symm.conversionFactor_eq, compare?_rat,
    ← grows.cmp_map_eq, value_eq]

/-- Quantities are equal exactly if their units are aligned and their physical values the same. -/
theorem equals_iff_aligned {left right : Quantity Rat} (left_formed : left.unit.IsFormed)
    (right_formed : right.unit.IsFormed) : left.equals right = true ↔
      left.unit.Aligned right.unit ∧ left.inBase = right.inBase := by
  by_cases aligned : left.unit.Aligned right.unit
  · rw [equals_iff_inBase aligned, and_iff_right aligned]
  · rw [(incomparable_of_misaligned left right left_formed right_formed aligned).1]
    simp [aligned]

theorem equals_equivalence :
    Equivalence fun left right : { quantity : Quantity Rat // quantity.unit.IsFormed } =>
      left.1.equals right.1 = true where
  refl := by
    rintro ⟨quantity, formed⟩
    exact (equals_iff_aligned formed formed).mpr ⟨.refl quantity.unit, rfl⟩
  symm := by
    rintro ⟨left, left_formed⟩ ⟨right, right_formed⟩ equal
    obtain ⟨aligned, same⟩ := (equals_iff_aligned left_formed right_formed).mp equal
    exact (equals_iff_aligned right_formed left_formed).mpr ⟨aligned.symm, same.symm⟩
  trans := by
    rintro ⟨first, first_formed⟩ ⟨second, second_formed⟩ ⟨third, third_formed⟩ equal next_equal
    obtain ⟨aligned, same⟩ := (equals_iff_aligned first_formed second_formed).mp equal
    obtain ⟨next_aligned, next_same⟩ :=
      (equals_iff_aligned second_formed third_formed).mp next_equal
    exact (equals_iff_aligned first_formed third_formed).mpr
      ⟨aligned.trans next_aligned, same.trans next_same⟩

/--
Over the rationals the comparison of quantities is that of their physical values.  Quantities are
equal exactly if their units are aligned and their magnitudes in units of multiplier one are the
same, shape included, so that equality is an equivalence.  Single numbers are ordered by their
physical values if their units are aligned, and not at all otherwise.  Equality is symmetric over
all scalars, whatever their arithmetic gives, doubles and NaN included.
-/
theorem comparison_follows_inBase :
    (∀ left right : Quantity Rat, left.unit.IsFormed → right.unit.IsFormed →
        (left.equals right = true ↔
          left.unit.Aligned right.unit ∧ left.inBase = right.inBase)) ∧
      (Equivalence fun left right : { quantity : Quantity Rat // quantity.unit.IsFormed } =>
        left.1.equals right.1 = true) ∧
      (∀ (left right : CompoundUnit Rat) (number number' : Rat), left.IsFormed → right.IsFormed →
        (left.Aligned right →
          (ofNumber number left).compare? (ofNumber number' right) =
            some (cmp (number * left.size) (number' * right.size))) ∧
        (¬left.Aligned right →
          (ofNumber number left).compare? (ofNumber number' right) = none)) ∧
      (∀ {K : Type} [Scalar K],
        (∀ number number' : K,
          Scalar.order number' number = (Scalar.order number number').swap) →
        (∀ number number' : K, (number == number') = (number' == number)) →
          ∀ left right : Quantity K, left.equals right = right.equals left) ∧
      ∀ left right : Quantity Float, left.equals right = right.equals left := by
  refine ⟨?_, equals_equivalence, ?_, ?_, ?_⟩
  · intro left right left_formed right_formed
    exact equals_iff_aligned left_formed right_formed
  · intro left right number number' left_formed right_formed
    refine ⟨fun aligned => compare?_eq_cmp aligned number number', fun misaligned => ?_⟩
    exact (incomparable_of_misaligned (ofNumber number left) (ofNumber number' right) left_formed
      right_formed misaligned).2
  · intro K _ order_swap beq_comm left right
    exact equals_comm order_swap beq_comm left right
  · intro left right
    exact equals_comm LawfulScalar.order_swap ComparableScalar.beq_comm left right

/-- A speed: one length over one time. -/
private def speedOf (length time : String) (inches seconds : Nat) : CompoundUnit Rat :=
  .ofSides [.ofCount "length" "inch" length inches] [.ofCount "time" "second" time seconds]
    .dimensionless

private def yardByMinute : CompoundUnit Rat :=
  speedOf "yard" "minute" 36 60

private def inchBySecond : CompoundUnit Rat :=
  speedOf "inch" "second" 1 1

private def footByHour : CompoundUnit Rat :=
  speedOf "foot" "hour" 12 3600

/-- A double without dimension. -/
private def bareNumber (number : Float) : Quantity Float :=
  ofNumber number (.ofSides [] [] .dimensionless)

/-- Speeds are equal through a third unit, are ordered, and do not compare with their squares. -/
theorem comparison_of_speeds_follows_inBase :
    equals ⟨.list [1, 2], yardByMinute⟩ ⟨.list [180, 360], footByHour⟩ = true ∧
      equals ⟨.list [1, 2], yardByMinute⟩ ⟨.list [180], footByHour⟩ = false ∧
      (ofNumber 1 yardByMinute).compare? (ofNumber (3 / 5) inchBySecond) = some .eq ∧
      (ofNumber 1 footByHour).compare? (ofNumber 1 yardByMinute) = some .lt ∧
      (ofNumber 1 yardByMinute).compare? (ofNumber 1 (yardByMinute.multiply yardByMinute)) =
        none ∧
      (bareNumber (0 / 0)).equals (bareNumber 1) = (bareNumber 1).equals (bareNumber (0 / 0)) := by
  obtain ⟨equals_iff, equivalence, compares, -, symmetric⟩ := comparison_follows_inBase
  have formed (length time : String) (inches seconds : Nat) :
      (speedOf length time inches seconds).IsFormed := CompoundUnit.ofSides_isFormed _ _ _
  have yards_formed : yardByMinute.IsFormed := formed _ _ _ _
  have inches_formed : inchBySecond.IsFormed := formed _ _ _ _
  have feet_formed : footByHour.IsFormed := formed _ _ _ _
  have square_formed : (yardByMinute.multiply yardByMinute).IsFormed :=
    yards_formed.combine yards_formed .times
  have to_inches :
      equals ⟨.list [1, 2], yardByMinute⟩ ⟨.list [3 / 5, 6 / 5], inchBySecond⟩ = true :=
    (equals_iff _ _ yards_formed inches_formed).mpr
      ⟨⟨by decide +kernel, by decide +kernel⟩, by decide +kernel⟩
  have to_feet :
      equals ⟨.list [3 / 5, 6 / 5], inchBySecond⟩ ⟨.list [180, 360], footByHour⟩ = true :=
    (equals_iff _ _ inches_formed feet_formed).mpr
      ⟨⟨by decide +kernel, by decide +kernel⟩, by decide +kernel⟩
  refine ⟨?_, ?_, ?_, ?_, ?_, symmetric _ _⟩
  · exact @equivalence.trans ⟨⟨.list [1, 2], yardByMinute⟩, yards_formed⟩
      ⟨⟨.list [3 / 5, 6 / 5], inchBySecond⟩, inches_formed⟩
      ⟨⟨.list [180, 360], footByHour⟩, feet_formed⟩ to_inches to_feet
  · refine Bool.eq_false_iff.mpr fun equal => ?_
    have same := ((equals_iff _ _ yards_formed feet_formed).mp equal).2
    exact absurd same (by decide +kernel)
  · rw [(compares _ _ _ _ yards_formed inches_formed).1 ⟨by decide +kernel, by decide +kernel⟩]
    decide +kernel
  · rw [(compares _ _ _ _ feet_formed yards_formed).1 ⟨by decide +kernel, by decide +kernel⟩]
    decide +kernel
  · exact (compares _ _ _ _ yards_formed square_formed).2 fun aligned =>
      absurd aligned.above (by decide +kernel)

end Quantity
end UnitAlgebra
