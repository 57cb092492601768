import UnitAlgebra.Proofs.EqualUnits

/-!
# Physical values

The physical value of a quantity is its magnitude in units of multiplier one: every element times
the size of the unit.  Over the rationals the arithmetic of quantities is the arithmetic of their
physical values, whatever units of one dimension meet in it.
-/

namespace UnitAlgebra
namespace Magnitude

/-! ## Pairing of elements -/

/-- The elements of two magnitudes are paired by a step; a single number meets every element. -/
inductive Pairs {K : Type} (step : K → K → K) : Magnitude K → Magnitude K → Magnitude K → Prop where
  /-- Two single numbers. -/
  | scalars (left right : K) : Pairs step (.scalar left) (.scalar right) (.scalar (step left right))
  /-- A list and a single number. -/
  | listScalar (left : List K) (right : K) :
      Pairs step (.list left) (.scalar right) (.list (left.map fun value => step value right))
  /-- A single number and a list. -/
  | scalarList (left : K) (right : List K) :
      Pairs step (.scalar left) (.list right) (.list (right.map (step left)))
  /-- Two lists of one length. -/
  | lists {left right : List K} (same_length : left.length = right.length) :
      Pairs step (.list left) (.list right) (.list (List.zipWith step left right))

theorem pairs_of_combine {K : Type} [Scalar K] {operation : Operation}
    {left right result : Magnitude K} (combined : combine operation left right = .ok result) :
    Pairs operation.apply left right result := by
  cases left with
  | scalar left =>
      cases right with
      | scalar right =>
          obtain rfl := Except.ok.inj combined
          exact .scalars left right
      | list right =>
          obtain rfl := Except.ok.inj combined
          exact .scalarList left right
  | list left =>
      cases right with
      | scalar right =>
          obtain rfl := Except.ok.inj combined
          exact .listScalar left right
      | list right =>
          simp only [combine] at combined
          split at combined
          · cases combined
          · split at combined
            · cases combined
            · rename_i same_length
              obtain rfl := Except.ok.inj combined
              exact .lists (not_not.mp same_length)

/-- Maps that carry one step to another carry its pairings along. -/
theorem Pairs.map {K L : Type} {step : K → K → K} {step' : L → L → L} {f g h : K → L}
    (carries : ∀ left right, step' (f left) (g right) = h (step left right))
    {left right result : Magnitude K} (paired : Pairs step left right result) :
    Pairs step' (left.map f) (right.map g) (result.map h) := by
  cases paired with
  | scalars left right =>
      have image : Pairs step' _ _ _ := .scalars (f left) (g right)
      rwa [carries] at image
  | listScalar left right =>
      have image : Pairs step' _ _ _ := .listScalar (left.map f) (g right)
      simpa only [Magnitude.map, List.map_map, Function.comp_def, carries] using image
  | scalarList left right =>
      have image : Pairs step' _ _ _ := .scalarList (f left) (right.map g)
      simpa only [Magnitude.map, List.map_map, Function.comp_def, carries] using image
  | @lists left right same_length =>
      have image : Pairs step' (.list (left.map f)) (.list (right.map g)) _ :=
        .lists (by simpa using same_length)
      simpa only [Magnitude.map, List.zipWith_map, carries, ← List.map_zipWith] using image

theorem map_map {K L M : Type} (f : K → L) (g : L → M) (magnitude : Magnitude K) :
    (magnitude.map f).map g = magnitude.map fun value => g (f value) := by
  cases magnitude with
  | scalar value => rfl
  | list values => simp [Magnitude.map, Function.comp_def]

end Magnitude

/-! ## Operators on units -/

/-- The operation on numbers that an operator is the mark of. -/
def Operator.operation : Operator → Operation
  | .times => .multiply
  | .over => .divide

theorem CompoundUnit.IsStandard.size_combine {left right : CompoundUnit Rat}
    (left_standard : left.IsStandard) (right_standard : right.IsStandard) (operator : Operator) :
    (left.combine operator right).2 * (left.combine operator right).1.size =
      operator.operation.apply left.size right.size := by
  cases operator
  · exact left_standard.size_productWithFactor right_standard
  · exact left_standard.size_quotientWithFactor right_standard

namespace Quantity

/-- The physical value: the magnitude in units of multiplier one. -/
def inBase (quantity : Quantity Rat) : Magnitude Rat :=
  quantity.magnitude.map (· * quantity.unit.size)

/-! ## Conversion -/

theorem magnitudeIn_eq {quantity : Quantity Rat} {target : CompoundUnit Rat}
    {magnitude : Magnitude Rat} (source_standard : quantity.unit.IsStandard)
    (target_standard : target.IsStandard)
    (converted : quantity.magnitudeIn target = .ok magnitude) :
    magnitude = quantity.magnitude.map (· * (quantity.unit.size / target.size)) := by
  rw [magnitudeIn_eq_scale] at converted
  obtain ⟨factor, factor_eq, rfl⟩ := Outcome.exists_of_map_eq_ok converted
  rw [CompoundUnit.eq_of_conversionFactor source_standard target_standard factor_eq]
  rfl

theorem inBase_convert {quantity result : Quantity Rat} {target : CompoundUnit Rat}
    (source_standard : quantity.unit.IsStandard) (target_standard : target.IsStandard)
    (converted : quantity.convert target = .ok result) : result.inBase = quantity.inBase := by
  obtain ⟨magnitude, magnitude_eq, result_eq⟩ := Outcome.exists_of_bind_eq_ok converted
  obtain rfl := Except.ok.inj result_eq
  rw [inBase, magnitudeIn_eq source_standard target_standard magnitude_eq, Magnitude.map_map]
  simp only [mul_assoc, div_mul_cancel₀ _ target.size_pos.ne']
  rfl

/-! ## Sums -/

/-- A step that commutes with scaling acts on physical values as it acts on magnitudes. -/
theorem inBase_combineInLeftUnit (operation : Operation) {left right result : Quantity Rat}
    (left_standard : left.unit.IsStandard) (right_standard : right.unit.IsStandard)
    (scales : ∀ x y factor : Rat,
      operation.apply (x * factor) (y * factor) = operation.apply x y * factor)
    (combined : combineInLeftUnit operation left right = .ok result) :
    Magnitude.Pairs operation.apply left.inBase right.inBase result.inBase := by
  obtain ⟨converted, converted_eq, rest⟩ := Outcome.exists_of_bind_eq_ok combined
  obtain ⟨magnitude, magnitude_eq, result_eq⟩ := Outcome.exists_of_bind_eq_ok rest
  obtain rfl := Except.ok.inj result_eq
  have right_value : right.inBase = converted.map (· * left.unit.size) := by
    rw [magnitudeIn_eq right_standard left_standard converted_eq, Magnitude.map_map]
    simp only [mul_assoc, div_mul_cancel₀ _ left.unit.size_pos.ne']
    rfl
  rw [right_value]
  exact (Magnitude.pairs_of_combine magnitude_eq).map fun x y => scales x y _

/-! ## Products -/

theorem inBase_scaled {magnitude : Magnitude Rat} {reduced : CompoundUnit Rat × Rat} {size : Rat}
    (kept : reduced.2 * reduced.1.size = size) :
    (scaled magnitude reduced).inBase = magnitude.map (· * size) := by
  rw [inBase, scaled, Magnitude.scale, Magnitude.map_map, ← kept]
  simp only [← mul_assoc]

theorem inBase_multiplyUnit {quantity : Quantity Rat} {unit : CompoundUnit Rat}
    (quantity_standard : quantity.unit.IsStandard) (unit_standard : unit.IsStandard) :
    (quantity.multiplyUnit unit).inBase = quantity.inBase.map (· * unit.size) := by
  rw [multiplyUnit, inBase_scaled (quantity_standard.size_productWithFactor unit_standard), inBase,
    Magnitude.map_map]
  simp only [mul_assoc]

theorem inBase_divideUnit {quantity : Quantity Rat} {unit : CompoundUnit Rat}
    (quantity_standard : quantity.unit.IsStandard) (unit_standard : unit.IsStandard) :
    (quantity.divideUnit unit).inBase = quantity.inBase.map (· / unit.size) := by
  rw [divideUnit, inBase_scaled (quantity_standard.size_quotientWithFactor unit_standard), inBase,
    Magnitude.map_map]
  simp only [mul_div_assoc]

theorem inBase_multiply {left right result : Quantity Rat}
    (left_standard : left.unit.IsStandard) (right_standard : right.unit.IsStandard)
    (multiplied : left.multiply right = .ok result) :
    Magnitude.Pairs (· * ·) left.inBase right.inBase result.inBase := by
  obtain ⟨magnitude, magnitude_eq, result_eq⟩ := Outcome.exists_of_bind_eq_ok multiplied
  obtain rfl := Except.ok.inj result_eq
  rw [inBase_scaled (left_standard.size_productWithFactor right_standard)]
  exact (Magnitude.pairs_of_combine magnitude_eq).map fun x y => mul_mul_mul_comm x _ y _

theorem inBase_divide {left right result : Quantity Rat}
    (left_standard : left.unit.IsStandard) (right_standard : right.unit.IsStandard)
    (divided : left.divide right = .ok result) :
    Magnitude.Pairs (· / ·) left.inBase right.inBase result.inBase := by
  obtain ⟨magnitude, magnitude_eq, result_eq⟩ := Outcome.exists_of_bind_eq_ok divided
  obtain rfl := Except.ok.inj result_eq
  rw [inBase_scaled (left_standard.size_quotientWithFactor right_standard)]
  exact (Magnitude.pairs_of_combine magnitude_eq).map fun x y => mul_div_mul_comm x _ y _

/-! ## Arithmetic -/

/--
The arithmetic of quantities is the arithmetic of their physical values, element by element, also
where differently sized units of one dimension meet.  Division by zero gives zero on both sides.
-/
theorem arithmetic_keeps_inBase (left right : Quantity Rat) (unit : CompoundUnit Rat)
    (left_standard : left.unit.IsStandard) (right_standard : right.unit.IsStandard)
    (unit_standard : unit.IsStandard) :
    (∀ result, left.multiply right = .ok result →
        Magnitude.Pairs (· * ·) left.inBase right.inBase result.inBase) ∧
      (∀ result, left.divide right = .ok result →
        Magnitude.Pairs (· / ·) left.inBase right.inBase result.inBase) ∧
      (left.multiplyUnit unit).inBase = left.inBase.map (· * unit.size) ∧
      (left.divideUnit unit).inBase = left.inBase.map (· / unit.size) ∧
      (∀ result, left.add right = .ok result →
        Magnitude.Pairs (· + ·) left.inBase right.inBase result.inBase) ∧
      (∀ result, left.subtract right = .ok result →
        Magnitude.Pairs (· - ·) left.inBase right.inBase result.inBase) ∧
      (∀ result, left.convert unit = .ok result → result.inBase = left.inBase) := by
  refine ⟨?_, ?_, ?_, ?_, ?_, ?_, ?_⟩
  · intro result multiplied
    exact inBase_multiply left_standard right_standard multiplied
  · intro result divided
    exact inBase_divide left_standard right_standard divided
  · exact inBase_multiplyUnit left_standard unit_standard
  · exact inBase_divideUnit left_standard unit_standard
  · intro result added
    exact inBase_combineInLeftUnit .add left_standard right_standard
      (fun x y factor => (add_mul x y factor).symm) added
  · intro result subtracted
    exact inBase_combineInLeftUnit .subtract left_standard right_standard
      (fun x y factor => (sub_mul x y factor).symm) subtracted
  · intro result converted
    exact inBase_convert left_standard unit_standard converted

/-- A length unit of a given size in meters. -/
private def lengthUnit (name : String) (multiplier : Rat)
    (positive : Scalar.isMultiplier multiplier = true) : BaseUnit Rat :=
  ⟨name, "[length]", "meter", multiplier, positive⟩

/-- Two products of kilometer and meter. -/
private def mixedArea : Quantity Rat :=
  ⟨.scalar 2, .ofSides [lengthUnit "kilometer" 1000 (by decide), lengthUnit "meter" 1 (by decide)]
    [] .dimensionless⟩

/-- Ten and twenty products of meter and foot. -/
private def smallAreas : Quantity Rat :=
  ⟨.list [10, 20],
    .ofSides [lengthUnit "meter" 1 (by decide), lengthUnit "foot" (3 / 10) (by decide +kernel)]
      [] .dimensionless⟩

/-- Areas of mixed units are added, divided and converted. -/
theorem mixed_areas_keep_inBase :
    Magnitude.Pairs (· + ·) mixedArea.inBase smallAreas.inBase
        (inBase ⟨.list [2003 / 1000, 2006 / 1000], mixedArea.unit⟩) ∧
      Magnitude.Pairs (· / ·) mixedArea.inBase smallAreas.inBase
        (inBase ⟨.list [2000 / 3, 1000 / 3], .ofSides [] [] .dimensionless⟩) ∧
      inBase ⟨.scalar (20000 / 3), smallAreas.unit⟩ = mixedArea.inBase := by
  obtain ⟨-, divided, -, -, added, -, converted⟩ :=
    arithmetic_keeps_inBase mixedArea smallAreas smallAreas.unit
      (CompoundUnit.ofSides_isStandard _ _) (CompoundUnit.ofSides_isStandard _ _)
      (CompoundUnit.ofSides_isStandard _ _)
  refine ⟨?_, ?_, ?_⟩
  · exact added ⟨.list [2003 / 1000, 2006 / 1000], mixedArea.unit⟩ (by with_unfolding_all rfl)
  · exact divided ⟨.list [2000 / 3, 1000 / 3], .ofSides [] [] .dimensionless⟩
      (by with_unfolding_all rfl)
  · exact converted ⟨.scalar (20000 / 3), smallAreas.unit⟩ (by with_unfolding_all rfl)

end Quantity
end UnitAlgebra
