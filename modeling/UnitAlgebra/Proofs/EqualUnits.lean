import UnitAlgebra.Proofs.Commutation
import UnitAlgebra.Proofs.Conversion

/-!
# Equal units

Equal units differ in their names and labels only.  So they have the same dimensions, and every
multiplier meets itself: their conversion factor is exactly one, for doubles as well.  A conversion
that leaves the magnitude alone between equal units therefore agrees with one that multiplies by the
factor in all cases, and converting a quantity in place is converting it, or leaves it as it was.
-/

namespace UnitAlgebra

/-! ## Division by itself -/

/-- Scalars that give one when a multiplier is divided by itself. -/
class DividingScalar (K : Type) [Scalar K] : Prop extends OrderedScalar K where
  /-- A multiplier divided by itself is one. -/
  div_self {value : K} : Scalar.isMultiplier value = true → value / value = 1

instance : DividingScalar Float where
  div_self multiplier := by
    obtain ⟨finite, positive⟩ := Bool.and_eq_true_iff.mp multiplier
    exact Binary64.div_self_eq finite (of_decide_eq_true positive)

instance : DividingScalar Rat where
  div_self multiplier := div_self (of_decide_eq_true multiplier).ne'

variable {K : Type} [Scalar K]

theorem DividingScalar.one_div_one [DividingScalar K] : (1 : K) / 1 = 1 :=
  div_self Scalar.isMultiplier_one

/-! ## Ratios of equal units -/

theorem Side.tags_eq_of_unnamed_eq {left right : Side K} (same : unnamed left = unnamed right) :
    tags left = tags right := by
  have tags_unnamed (side : Side K) : tags (unnamed side) = tags side := by simp [tags, unnamed]
  rw [← tags_unnamed, same, tags_unnamed]

namespace CompoundUnit

variable {source target : CompoundUnit K}

theorem foldl_ratios_of_unnamed_eq [DividingScalar K] {step : K → K → K} (step_one : step 1 1 = 1)
    {sources targets : Side K} (same : Side.unnamed sources = Side.unnamed targets) :
    (ratios sources targets).foldl step 1 = 1 := by
  induction sources generalizing targets with
  | nil => rfl
  | cons source sources induction =>
      cases targets with
      | nil => rfl
      | cons target targets =>
          obtain ⟨head_eq, tails_eq⟩ := List.cons.inj same
          have multiplier_eq : source.multiplier = target.multiplier := by
            rw [← BaseUnit.multiplier_unnamed, head_eq, BaseUnit.multiplier_unnamed]
          have ratio_eq : source.multiplier / target.multiplier = 1 := by
            rw [multiplier_eq]
            exact DividingScalar.div_self target.isMultiplier
          rw [ratios, List.zipWith_cons_cons, List.foldl_cons, ratio_eq, step_one]
          exact induction tails_eq

theorem tags_eq_of_beq [OrderedScalar K] (equal : (source == target) = true) :
    Side.tags source.numerator = Side.tags target.numerator ∧
      Side.tags source.denominator = Side.tags target.denominator := by
  obtain ⟨above, below⟩ := beq_iff.mp equal
  exact ⟨Side.tags_eq_of_unnamed_eq above, Side.tags_eq_of_unnamed_eq below⟩

theorem conversionFactor_of_beq [DividingScalar K] (equal : (source == target) = true) :
    source.conversionFactor target = .ok 1 := by
  obtain ⟨above, below⟩ := beq_iff.mp equal
  obtain ⟨above_tags, below_tags⟩ := tags_eq_of_beq equal
  rw [conversionFactor_eq_foldl above_tags below_tags,
    foldl_ratios_of_unnamed_eq (LawfulScalar.mul_one 1) above,
    foldl_ratios_of_unnamed_eq DividingScalar.one_div_one below]

end CompoundUnit

/-! ## Conversion in place -/

theorem Magnitude.map_id {K : Type} (magnitude : Magnitude K) :
    (magnitude.map fun value => value) = magnitude := by
  cases magnitude <;> simp [Magnitude.map]

theorem Magnitude.scale_one [LawfulScalar K] (magnitude : Magnitude K) :
    magnitude.scale 1 = magnitude := by
  simp only [scale, LawfulScalar.mul_one, map_id]

namespace Quantity

variable [DividingScalar K] {quantity converted : Quantity K} {target : CompoundUnit K}
  {failure : UnitError}

/-- The magnitude in any unit is multiplied by the conversion factor, equal units included. -/
theorem magnitudeIn_eq_scale (quantity : Quantity K) (target : CompoundUnit K) :
    quantity.magnitudeIn target =
      (quantity.unit.conversionFactor target).map quantity.magnitude.scale := by
  rw [magnitudeIn]
  split
  · rename_i equal
    rw [CompoundUnit.conversionFactor_of_beq equal, Except.map, Magnitude.scale_one]
  · cases quantity.unit.conversionFactor target <;> rfl

theorem convert_eq_ok_iff : quantity.convert target = .ok converted ↔
    ∃ factor, quantity.unit.conversionFactor target = .ok factor ∧
      converted = ⟨quantity.magnitude.scale factor, target⟩ := by
  rw [convert, magnitudeIn_eq_scale]
  cases quantity.unit.conversionFactor target with
  | error failure => simp [Except.map, bind, Except.bind]
  | ok factor => simp [Except.map, bind, Except.bind, pure, Except.pure, eq_comm]

theorem convert_eq_error_iff : quantity.convert target = .error failure ↔
    quantity.unit.conversionFactor target = .error failure := by
  rw [convert, magnitudeIn_eq_scale]
  cases quantity.unit.conversionFactor target <;>
    simp [Except.map, bind, Except.bind, pure, Except.pure]

theorem convert_of_beq (equal : (quantity.unit == target) = true) :
    quantity.convert target = .ok ⟨quantity.magnitude, target⟩ :=
  convert_eq_ok_iff.mpr
    ⟨1, CompoundUnit.conversionFactor_of_beq equal, by rw [Magnitude.scale_one]⟩

theorem convertInPlace_of_convert (converted_eq : quantity.convert target = .ok converted) :
    quantity.convertInPlace target = (converted, .ok ()) := by
  obtain ⟨factor, factor_eq, rfl⟩ := convert_eq_ok_iff.mp converted_eq
  rw [convertInPlace, factor_eq]

/--
Converting in place does what converting does if there is a conversion, and otherwise reports the
same error and leaves the quantity as it was.  Between equal units no element of the magnitude
changes.
-/
theorem convertInPlace_agrees (quantity : Quantity K) (target : CompoundUnit K) :
    (∀ converted, quantity.convert target = .ok converted →
        quantity.convertInPlace target = (converted, .ok ()) ∧
          converted.unit = target ∧ quantity.magnitudeIn target = .ok converted.magnitude) ∧
      (∀ failure, quantity.convert target = .error failure →
        quantity.convertInPlace target = (quantity, .error failure) ∧
          quantity.magnitudeIn target = .error failure) ∧
      ((quantity.unit == target) = true →
        quantity.convert target = .ok ⟨quantity.magnitude, target⟩ ∧
          quantity.convertInPlace target = (⟨quantity.magnitude, target⟩, .ok ())) := by
  refine ⟨?_, ?_, ?_⟩
  · intro converted converted_eq
    refine ⟨convertInPlace_of_convert converted_eq, ?_⟩
    obtain ⟨factor, factor_eq, rfl⟩ := convert_eq_ok_iff.mp converted_eq
    rw [magnitudeIn_eq_scale, factor_eq]
    exact ⟨rfl, rfl⟩
  · intro failure failed
    have factor_failed := convert_eq_error_iff.mp failed
    rw [convertInPlace, magnitudeIn_eq_scale, factor_failed]
    exact ⟨rfl, rfl⟩
  · intro equal
    exact ⟨convert_of_beq equal, convertInPlace_of_convert (convert_of_beq equal)⟩

/-- A unit of one entry. -/
private def single (name dimension reference : String) (multiplier : Float)
    (isMultiplier : Scalar.isMultiplier multiplier = true) : CompoundUnit Float :=
  .ofSides [⟨name, dimensionTag dimension, reference, multiplier, isMultiplier⟩] [] .dimensionless

private def meter : CompoundUnit Float :=
  single "meter" "length" "meter" 1 Scalar.isMultiplier_one

private def stride : CompoundUnit Float :=
  single "stride" "length" "meter" 0.9144 (by decide)

private def second : CompoundUnit Float :=
  single "second" "time" "second" 1 Scalar.isMultiplier_one

/-- Some yards under the label of a pace. -/
private def paces : Quantity Float :=
  ⟨.list [1, 2.5, -0.1], (single "yard" "length" "meter" 0.9144 (by decide)).withLabel "pace"⟩

/-- Paces become meters, keep their numbers as strides, and are no seconds. -/
theorem convertInPlace_agrees_paces :
    (∃ converted, paces.convert meter = .ok converted ∧
        paces.convertInPlace meter = (converted, .ok ())) ∧
      paces.convertInPlace stride = (⟨paces.magnitude, stride⟩, .ok ()) ∧
      ∃ failure, paces.convertInPlace second = (paces, .error failure) := by
  have converts : Outcome.passes (paces.convert meter) (fun _ => true) = true := by decide +kernel
  have equal : (paces.unit == stride) = true := by decide +kernel
  have refused : (paces.convert second).isOk = false := by decide +kernel
  obtain ⟨converted, converted_eq, -⟩ := Outcome.exists_of_passes converts
  refine ⟨⟨converted, converted_eq, ?_⟩, ?_, ?_⟩
  · exact ((convertInPlace_agrees paces meter).1 converted converted_eq).1
  · exact ((convertInPlace_agrees paces stride).2.2 equal).2
  · cases failed : paces.convert second with
    | ok converted =>
        rw [failed] at refused
        cases refused
    | error failure =>
        exact ⟨failure, ((convertInPlace_agrees paces second).2.1 failure failed).1⟩

end Quantity
end UnitAlgebra
