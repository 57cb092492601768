import UnitAlgebra.Proofs.PhysicalValue
import UnitAlgebra.Quantity.Rounding

/-!
# Elements of quantities

A list of numbers in a unit behaves as its elements do: what is done to a quantity is done to every
element on its own, and two quantities are combined element by element, a single number standing for
every element of a list.  Two lists are added only if they are equally long, and not multiplied at
all.  Nothing is assumed of the scalars, so that all this holds of doubles bit for bit.
-/

namespace UnitAlgebra
namespace Magnitude

section

variable {K : Type}

/-- The number that stands at an index; a single number stands at every index. -/
def at? : Magnitude K → Nat → Option K
  | .scalar value, _ => some value
  | .list values, index => values[index]?

theorem isList_map {L : Type} (function : K → L) (magnitude : Magnitude K) :
    (magnitude.map function).isList = magnitude.isList := by
  cases magnitude <;> rfl

theorem length_map {L : Type} (function : K → L) (magnitude : Magnitude K) :
    (magnitude.map function).length = magnitude.length := by
  simp [length]

/-! ## Pairing -/

namespace Pairs

variable {step : K → K → K} {left right result : Magnitude K}

theorem isList_eq (paired : Pairs step left right result) :
    result.isList = (left.isList || right.isList) := by
  cases paired <;> rfl

theorem length_eq_left (paired : Pairs step left right result) (left_list : left.isList = true) :
    result.length = left.length := by
  cases paired with
  | scalars _ _ => cases left_list
  | listScalar _ _ => simp [length, elements]
  | scalarList _ _ => cases left_list
  | lists same_length => simp [length, elements, same_length]

theorem length_eq_right (paired : Pairs step left right result) (right_list : right.isList = true) :
    result.length = right.length := by
  cases paired with
  | scalars _ _ => cases right_list
  | listScalar _ _ => cases right_list
  | scalarList _ _ => simp [length, elements]
  | lists same_length => simp [length, elements, same_length]

theorem exists_of_get? (paired : Pairs step left right result) {index : Nat} {number : K}
    (found : result.get? index = some number) :
    ∃ first second, left.at? index = some first ∧ right.at? index = some second ∧
      step first second = number := by
  rw [get?] at found
  cases paired with
  | scalars left right =>
      obtain rfl := List.mem_singleton.mp (List.mem_of_getElem? found)
      exact ⟨left, right, rfl, rfl, rfl⟩
  | listScalar left right =>
      rw [elements, List.getElem?_map] at found
      obtain ⟨first, first_found, number_eq⟩ := Option.map_eq_some_iff.mp found
      exact ⟨first, right, first_found, rfl, number_eq⟩
  | scalarList left right =>
      rw [elements, List.getElem?_map] at found
      obtain ⟨second, second_found, number_eq⟩ := Option.map_eq_some_iff.mp found
      exact ⟨left, second, rfl, second_found, number_eq⟩
  | lists _ => exact List.getElem?_zipWith_eq_some.mp found

/-- A function of the right numbers may be left to the step. -/
theorem of_map_right {function : K → K} (paired : Pairs step left (right.map function) result) :
    Pairs (fun first second => step first (function second)) left right result := by
  cases right with
  | scalar right =>
      cases paired with
      | scalars left _ => exact .scalars left right
      | listScalar left _ => exact .listScalar left right
  | list right =>
      -- A pairing is split by its right magnitude, which is here the image of another one.
      generalize mapped_eq : Magnitude.map function (.list right) = mapped at paired
      cases paired with
      | scalars _ _ => cases mapped_eq
      | listScalar _ _ => cases mapped_eq
      | scalarList left _ =>
          obtain rfl := list.inj mapped_eq
          rw [List.map_map]
          exact .scalarList left right
      | lists same_length =>
          obtain rfl := list.inj mapped_eq
          rw [List.zipWith_map_right]
          exact .lists (by simpa using same_length)

theorem map_result (paired : Pairs step left right result) (function : K → K) :
    Pairs (fun first second => function (step first second)) left right
      (result.map function) := by
  cases paired with
  | scalars left right => exact .scalars left right
  | listScalar left right =>
      rw [Magnitude.map, List.map_map]
      exact .listScalar left right
  | scalarList left right =>
      rw [Magnitude.map, List.map_map]
      exact .scalarList left right
  | lists same_length =>
      rw [Magnitude.map, List.map_zipWith]
      exact .lists same_length

end Pairs
end

section

variable {K : Type} [Scalar K] {operation : Operation} {left right : Magnitude K}

theorem exists_combine_error_iff :
    (∃ failure, combine operation left right = .error failure) ↔
      left.isList = true ∧ right.isList = true ∧
        (operation.pairsLists = true → left.length ≠ right.length) := by
  cases left <;> cases right
  case list.list lefts rights =>
    by_cases pairs : operation.pairsLists = true
    · by_cases same_length : lefts.length = rights.length
      · simp [combine, isList, length, elements, pairs, same_length]
      · simp [combine, isList, length, elements, pairs, same_length]
    · simp [combine, isList, pairs]
  all_goals simp [combine, isList]

theorem exists_cause_of_combine {failure : UnitError}
    (failed : combine operation left right = .error failure) :
    ∃ cause, failure = .ambiguousBroadcast cause := by
  cases left <;> cases right
  case list.list lefts rights =>
    rw [combine] at failed
    split at failed
    · exact ⟨_, (Except.error.inj failed).symm⟩
    · split at failed
      · exact ⟨_, (Except.error.inj failed).symm⟩
      · cases failed
  all_goals cases failed

end
end Magnitude

/-! ## Operations on one quantity -/

namespace Quantity

variable {K : Type} [Scalar K]

/-- The quantity that stands at an index; a single number stands at every index. -/
def at? (quantity : Quantity K) (index : Nat) : Option (Quantity K) :=
  (quantity.magnitude.at? index).map fun number => ofNumber number quantity.unit

/-- An operation that is done to every element on its own. -/
def ActsByElement (operation : Quantity K → Quantity K) : Prop :=
  ∀ quantity index, (operation quantity).get? index = (quantity.get? index).map operation

theorem actsByElement_map (function : K → K) : ActsByElement (map function) := by
  intro quantity index
  simp only [get?, map, Magnitude.get?_map, Option.map_map]
  rfl

/-- Joining a unit changes the unit of all elements and scales them alike. -/
theorem actsByElement_scaled (join : CompoundUnit K → CompoundUnit K × K) :
    ActsByElement fun quantity => scaled quantity.magnitude (join quantity.unit) := by
  intro quantity index
  simp only [get?, scaled, Magnitude.scale, Magnitude.get?_map, Option.map_map]
  rfl

/-! ## Conversion -/

/-- A conversion is one function of every number in a unit, or fails for all of them. -/
theorem magnitudeIn_uniform (unit target : CompoundUnit K) :
    (∃ function : K → K, ∀ magnitude,
        magnitudeIn ⟨magnitude, unit⟩ target = .ok (magnitude.map function)) ∨
      ∃ failure, ∀ magnitude, magnitudeIn ⟨magnitude, unit⟩ target = .error failure := by
  by_cases equal : (unit == target) = true
  · refine .inl ⟨fun value => value, fun magnitude => ?_⟩
    rw [magnitudeIn, if_pos equal, Magnitude.map_id]
  · cases converted : unit.conversionFactor target with
    | ok factor =>
        refine .inl ⟨(· * factor), fun magnitude => ?_⟩
        rw [magnitudeIn, if_neg equal, converted]
        rfl
    | error failure =>
        refine .inr ⟨failure, fun magnitude => ?_⟩
        rw [magnitudeIn, if_neg equal, converted]
        rfl

theorem convert_get? {quantity converted : Quantity K} {target : CompoundUnit K}
    (given : quantity.convert target = .ok converted) (index : Nat) :
    (quantity.get? index).map (·.convert target) = (converted.get? index).map .ok := by
  rcases magnitudeIn_uniform quantity.unit target with ⟨function, uniform⟩ | ⟨failure, failed⟩
  · rw [convert, uniform] at given
    obtain rfl := Except.ok.inj given
    simp only [get?, Magnitude.get?_map, Option.map_map]
    refine congrArg (Option.map · _) (funext fun number => ?_)
    rw [Function.comp_apply, convert, ofNumber, uniform]
    rfl
  · rw [convert, failed] at given
    cases given

theorem convert_get?_of_error {quantity element : Quantity K} {target : CompoundUnit K}
    {failure : UnitError} (failed : quantity.convert target = .error failure) {index : Nat}
    (found : quantity.get? index = some element) : element.convert target = .error failure := by
  obtain ⟨number, -, rfl⟩ := Option.map_eq_some_iff.mp found
  rcases magnitudeIn_uniform quantity.unit target with ⟨function, uniform⟩ | ⟨failure', uniform⟩
  · rw [convert, uniform] at failed
    cases failed
  · rw [convert, uniform] at failed
    obtain rfl := Except.error.inj failed
    rw [convert, ofNumber, uniform]
    rfl

/-! ## Operations on two quantities -/

/-- The result of an operation on two quantities. -/
def combine (operation : Operation) (left right : Quantity K) : Except UnitError (Quantity K) :=
  match operation with
  | .add => left.add right
  | .subtract => left.subtract right
  | .multiply => left.multiply right
  | .divide => left.divide right

/-- The result of an operation whose elements are the results of its operands' elements. -/
structure IsElementwise (operation : Quantity K → Quantity K → Except UnitError (Quantity K))
    (left right result : Quantity K) : Prop where
  /-- The result is a list exactly if an operand is one. -/
  isList_eq : result.magnitude.isList = (left.magnitude.isList || right.magnitude.isList)
  /-- The result is as long as a list on the left. -/
  length_eq_left : left.magnitude.isList = true → result.magnitude.length = left.magnitude.length
  /-- The result is as long as a list on the right. -/
  length_eq_right : right.magnitude.isList = true → result.magnitude.length = right.magnitude.length
  /-- Every element is the result of the quantities that stand at its index. -/
  element_eq {index : Nat} {element : Quantity K} : result.get? index = some element →
    ∃ first second, left.at? index = some first ∧ right.at? index = some second ∧
      operation first second = .ok element

/-- Paired magnitudes make an elementwise result if single numbers are combined by the same step. -/
theorem isElementwise_of_pairs
    {operation : Quantity K → Quantity K → Except UnitError (Quantity K)}
    {left right result : Quantity K} {step : K → K → K}
    (paired : Magnitude.Pairs step left.magnitude right.magnitude result.magnitude)
    (on_numbers : ∀ number number', operation (ofNumber number left.unit)
      (ofNumber number' right.unit) = .ok (ofNumber (step number number') result.unit)) :
    IsElementwise operation left right result where
  isList_eq := paired.isList_eq
  length_eq_left := paired.length_eq_left
  length_eq_right := paired.length_eq_right
  element_eq := by
    intro index element found
    obtain ⟨number, number_found, rfl⟩ := Option.map_eq_some_iff.mp found
    obtain ⟨first, second, first_found, second_found, rfl⟩ := paired.exists_of_get? number_found
    exact ⟨_, _, Option.map_eq_some_iff.mpr ⟨first, first_found, rfl⟩,
      Option.map_eq_some_iff.mpr ⟨second, second_found, rfl⟩, on_numbers first second⟩

section Sums

variable {operation : Operation} {left right result : Quantity K}

theorem exists_combineInLeftUnit_error_iff :
    (∃ failure, combineInLeftUnit operation left right = .error failure) ↔
      (∃ failure, right.convert left.unit = .error failure) ∨
        left.magnitude.isList = true ∧ right.magnitude.isList = true ∧
          (operation.pairsLists = true → left.magnitude.length ≠ right.magnitude.length) := by
  rcases magnitudeIn_uniform right.unit left.unit with ⟨function, uniform⟩ | ⟨failure, failed⟩
  · have combined_eq : combineInLeftUnit operation left right =
        (left.magnitude.combine operation (right.magnitude.map function)).map (⟨·, left.unit⟩) := by
      rw [combineInLeftUnit, uniform]
      rfl
    have combined_iff : (∃ failure, combineInLeftUnit operation left right = .error failure) ↔
        ∃ failure,
          left.magnitude.combine operation (right.magnitude.map function) = .error failure := by
      rw [combined_eq]
      cases left.magnitude.combine operation (right.magnitude.map function) <;> simp [Except.map]
    have converts : ¬∃ failure, right.convert left.unit = .error failure := by
      rintro ⟨failure, failed⟩
      rw [convert, uniform] at failed
      cases failed
    rw [combined_iff, Magnitude.exists_combine_error_iff, Magnitude.isList_map,
      Magnitude.length_map, or_iff_right converts]
  · have fails : combineInLeftUnit operation left right = .error failure := by
      rw [combineInLeftUnit, failed]
      rfl
    have no_conversion : right.convert left.unit = .error failure := by
      rw [convert, failed]
      rfl
    exact iff_of_true ⟨failure, fails⟩ (.inl ⟨failure, no_conversion⟩)

theorem isElementwise_combineInLeftUnit
    (combined : combineInLeftUnit operation left right = .ok result) :
    IsElementwise (combineInLeftUnit operation) left right result := by
  obtain ⟨converted, converted_eq, rest⟩ := Outcome.exists_of_bind_eq_ok combined
  obtain ⟨magnitude, magnitude_eq, result_eq⟩ := Outcome.exists_of_bind_eq_ok rest
  obtain rfl := Except.ok.inj result_eq
  rcases magnitudeIn_uniform right.unit left.unit with ⟨function, uniform⟩ | ⟨failure, failed⟩
  · rw [uniform] at converted_eq
    obtain rfl := Except.ok.inj converted_eq
    refine isElementwise_of_pairs (Magnitude.pairs_of_combine magnitude_eq).of_map_right ?_
    intro number number'
    rw [combineInLeftUnit, ofNumber, ofNumber, uniform]
    rfl
  · rw [failed] at converted_eq
    cases converted_eq

end Sums

section Products

variable {operation : Operation} {join : CompoundUnit K → CompoundUnit K → CompoundUnit K × K}
  {left right result : Quantity K}

/-- Combine two magnitudes by an operation, and scale the result by the factor of the joint unit. -/
def combineScaled (operation : Operation)
    (join : CompoundUnit K → CompoundUnit K → CompoundUnit K × K) (left right : Quantity K) :
    Except UnitError (Quantity K) := do
  let magnitude ← left.magnitude.combine operation right.magnitude
  return scaled magnitude (join left.unit right.unit)

theorem combineScaled_eq_error_iff {failure : UnitError} :
    combineScaled operation join left right = .error failure ↔
      left.magnitude.combine operation right.magnitude = .error failure := by
  rw [combineScaled]
  cases left.magnitude.combine operation right.magnitude <;>
    simp [bind, Except.bind, pure, Except.pure]

theorem isElementwise_combineScaled
    (combined : combineScaled operation join left right = .ok result) :
    IsElementwise (combineScaled operation join) left right result := by
  obtain ⟨magnitude, magnitude_eq, result_eq⟩ := Outcome.exists_of_bind_eq_ok combined
  obtain rfl := Except.ok.inj result_eq
  have paired := (Magnitude.pairs_of_combine magnitude_eq).map_result
    (· * (join left.unit right.unit).2)
  exact isElementwise_of_pairs paired fun _ _ => rfl

end Products

/-! ## The four operations -/

section

variable {operation : Operation} {left right result : Quantity K}

theorem combine_eq_combineInLeftUnit (pairs : operation.pairsLists = true) :
    combine (K := K) operation = combineInLeftUnit operation := by
  cases operation with
  | add => rfl
  | subtract => rfl
  | multiply => cases pairs
  | divide => cases pairs

theorem exists_combine_eq_combineScaled (unpaired : operation.pairsLists = false) :
    ∃ join, combine (K := K) operation = combineScaled operation join := by
  cases operation with
  | add => cases unpaired
  | subtract => cases unpaired
  | multiply => exact ⟨CompoundUnit.productWithFactor, rfl⟩
  | divide => exact ⟨CompoundUnit.quotientWithFactor, rfl⟩

/-- What an operation gives, it gives element by element. -/
theorem isElementwise_combine (combined : combine operation left right = .ok result) :
    IsElementwise (combine operation) left right result := by
  cases pairs : operation.pairsLists with
  | true =>
      rw [combine_eq_combineInLeftUnit pairs] at combined ⊢
      exact isElementwise_combineInLeftUnit combined
  | false =>
      obtain ⟨join, combine_eq⟩ := exists_combine_eq_combineScaled (K := K) pairs
      rw [combine_eq] at combined ⊢
      exact isElementwise_combineScaled combined

theorem exists_sum_error_iff (pairs : operation.pairsLists = true) :
    (∃ failure, combine operation left right = .error failure) ↔
      (∃ failure, right.convert left.unit = .error failure) ∨
        left.magnitude.isList = true ∧ right.magnitude.isList = true ∧
          left.magnitude.length ≠ right.magnitude.length := by
  rw [combine_eq_combineInLeftUnit pairs, exists_combineInLeftUnit_error_iff]
  simp only [pairs, forall_const]

theorem exists_product_error_iff (unpaired : operation.pairsLists = false) :
    (∃ failure, combine operation left right = .error failure) ↔
      left.magnitude.isList = true ∧ right.magnitude.isList = true := by
  obtain ⟨join, combine_eq⟩ := exists_combine_eq_combineScaled (K := K) unpaired
  simp [combine_eq, combineScaled_eq_error_iff, Magnitude.exists_combine_error_iff, unpaired]

theorem exists_cause_of_product (unpaired : operation.pairsLists = false) {failure : UnitError}
    (failed : combine operation left right = .error failure) :
    ∃ cause, failure = .ambiguousBroadcast cause := by
  obtain ⟨join, combine_eq⟩ := exists_combine_eq_combineScaled (K := K) unpaired
  rw [combine_eq, combineScaled_eq_error_iff] at failed
  exact Magnitude.exists_cause_of_combine failed

end

/-! ## Lists of doubles -/

/--
Lists behave as their elements do, bit for bit.  What is done to one quantity is done to each of its
elements, conversion included.  Sums fail exactly if there is no conversion or two lists differ in
length, and products exactly if both operands are lists; every other operation is done element by
element, where a single number stands for each of its elements.
-/
theorem lists_behave_as_elements (left right : Quantity Float) (unit : CompoundUnit Float)
    (number : Float) (places : Int) :
    (ActsByElement (scale · number) ∧ ActsByElement (divideNumber · number) ∧
        ActsByElement (negate (K := Float)) ∧ ActsByElement absolute ∧
        ActsByElement (round · places) ∧ ActsByElement truncate ∧ ActsByElement floor ∧
        ActsByElement ceiling ∧ ActsByElement (multiplyUnit · unit) ∧
        ActsByElement (divideUnit · unit)) ∧
      (∀ converted, left.convert unit = .ok converted → ∀ index,
        (left.get? index).map (·.convert unit) = (converted.get? index).map .ok) ∧
      (∀ failure, left.convert unit = .error failure → ∀ index element,
        left.get? index = some element → element.convert unit = .error failure) ∧
      (∀ operation ∈ [Operation.add, .subtract],
        (∃ failure, combine operation left right = .error failure) ↔
          (∃ failure, right.convert left.unit = .error failure) ∨
            left.magnitude.isList = true ∧ right.magnitude.isList = true ∧
              left.magnitude.length ≠ right.magnitude.length) ∧
      (∀ operation ∈ [Operation.multiply, .divide],
        ((∃ failure, combine operation left right = .error failure) ↔
          left.magnitude.isList = true ∧ right.magnitude.isList = true) ∧
        ∀ failure, combine operation left right = .error failure →
          ∃ cause, failure = .ambiguousBroadcast cause) ∧
      ∀ operation result, combine operation left right = .ok result →
        IsElementwise (combine operation) left right result := by
  refine ⟨⟨?_, ?_, ?_, ?_, ?_, ?_, ?_, ?_, ?_, ?_⟩, ?_, ?_, ?_, ?_, ?_⟩
  · exact actsByElement_map (· * number)
  · exact actsByElement_map (· / number)
  · exact actsByElement_map (- ·)
  · exact actsByElement_map Float.abs
  · exact actsByElement_map (Binary64.roundToPlaces places)
  · exact actsByElement_map (Binary64.toIntegral .towardZero)
  · exact actsByElement_map (Binary64.toIntegral .down)
  · exact actsByElement_map (Binary64.toIntegral .up)
  · exact actsByElement_scaled (·.productWithFactor unit)
  · exact actsByElement_scaled (·.quotientWithFactor unit)
  · intro converted given index
    exact convert_get? given index
  · intro failure failed index element found
    exact convert_get?_of_error failed found
  · intro operation sums
    have pairs : ∀ operation ∈ [Operation.add, .subtract], operation.pairsLists = true := by decide
    exact exists_sum_error_iff (pairs operation sums)
  · intro operation products
    have unpaired : ∀ operation ∈ [Operation.multiply, .divide], operation.pairsLists = false := by
      decide
    exact ⟨exists_product_error_iff (unpaired operation products),
      fun _ failed => exists_cause_of_product (unpaired operation products) failed⟩
  · intro operation result combined
    exact isElementwise_combine combined

private def hand : CompoundUnit Float :=
  .ofSides [.ofMeters "hand" 0.1016 (by decide)] [] .dimensionless

private def span : CompoundUnit Float :=
  .ofSides [.ofMeters "span" 0.2286 (by decide)] [] .dimensionless

/-- Three lengths are taken from one, and neither added to nor divided by a list of one length. -/
theorem hands_behave_as_elements :
    (∃ result, combine .subtract (ofNumber 4 span) ⟨.list [1, 2, 3], hand⟩ = .ok result ∧
        result.magnitude.isList = true ∧ result.magnitude.length = 3 ∧
        ∀ element, result.get? 1 = some element →
          ∃ first second, first = ofNumber 4 span ∧ second = ofNumber 2 hand ∧
            combine .subtract first second = .ok element) ∧
      (∃ failure, combine .add ⟨.list [1, 2, 3], hand⟩ ⟨.list [4], span⟩ = .error failure) ∧
      (∃ cause, combine .divide ⟨.list [1, 2, 3], hand⟩ ⟨.list [4], span⟩ =
        .error (.ambiguousBroadcast cause)) ∧
      (floor ⟨.list [0.5, 1.5], hand⟩).get? 1 = (get? ⟨.list [0.5, 1.5], hand⟩ 1).map floor := by
  obtain ⟨-, -, -, -, -, elementwise⟩ :=
    lists_behave_as_elements (ofNumber 4 span) ⟨.list [1, 2, 3], hand⟩ hand 1 0
  obtain ⟨acts, -, -, sums, products, -⟩ :=
    lists_behave_as_elements ⟨.list [1, 2, 3], hand⟩ ⟨.list [4], span⟩ hand 1 0
  refine ⟨?_, ?_, ?_, ?_⟩
  · have computed : Outcome.passes
        (combine .subtract (ofNumber 4 span) ⟨.list [1, 2, 3], hand⟩) (fun _ => true) = true := by
      decide +kernel
    obtain ⟨result, combined, -⟩ := Outcome.exists_of_passes computed
    have from_elements := elementwise .subtract result combined
    refine ⟨result, combined, from_elements.isList_eq, from_elements.length_eq_right rfl, ?_⟩
    intro element found
    obtain ⟨first, second, first_found, second_found, given⟩ := from_elements.element_eq found
    exact ⟨first, second, (Option.some.inj first_found).symm, (Option.some.inj second_found).symm,
      given⟩
  · exact (sums .add (by decide)).mpr (.inr ⟨rfl, rfl, by decide⟩)
  · obtain ⟨failure, failed⟩ := (products .divide (by decide)).1.mpr ⟨rfl, rfl⟩
    obtain ⟨cause, rfl⟩ := (products .divide (by decide)).2 failure failed
    exact ⟨cause, failed⟩
  · obtain ⟨-, -, -, -, -, -, acts_floor, -⟩ := acts
    exact acts_floor _ 1

end Quantity
end UnitAlgebra
