import UnitAlgebra.Proofs.Completeness
import UnitAlgebra.Proofs.Reachability

/-!
# Powers

A power of a unit that shares no dimension between its sides holds every entry as often as the
exponent says.  No entry ever meets one of its dimension on the other side, so no step of the
repeated multiplication cancels anything, and exponents are added in products and multiplied in
powers of powers.  The placeholder may be any unit: it is one more entry if it has a dimension.
-/

namespace UnitAlgebra

variable {K : Type} [Scalar K]

/-! ## Copies of a side -/

namespace Side

/-- All entries of a side, a number of times. -/
def copies (count : Nat) (side : Side K) : Side K :=
  (List.replicate count side).flatten

@[simp]
theorem copies_zero (side : Side K) : copies 0 side = [] := rfl

@[simp]
theorem copies_one (side : Side K) : copies 1 side = side := by
  simp [copies]

theorem copies_add (count more : Nat) (side : Side K) :
    copies (count + more) side = copies count side ++ copies more side := by
  rw [copies, copies, copies, ← List.flatten_append, ← List.replicate_add]

theorem copies_mul (count times : Nat) (side : Side K) :
    copies (count * times) side = copies times (copies count side) := by
  induction times with
  | zero => rfl
  | succ times induction =>
      rw [Nat.mul_succ, copies_add, induction, copies_add, copies_one]

theorem copies_perm {left right : Side K} (permuted : left.Perm right) (count : Nat) :
    (copies count left).Perm (copies count right) := by
  induction count with
  | zero => exact List.Perm.refl _
  | succ count induction =>
      rw [copies_add, copies_add, copies_one, copies_one]
      exact induction.append permuted

theorem mem_of_mem_copies {count : Nat} {side : Side K} {entry : BaseUnit K}
    (member : entry ∈ copies count side) : entry ∈ side := by
  obtain ⟨copy, copy_member, entry_member⟩ := List.mem_flatten.mp member
  rwa [List.eq_of_mem_replicate copy_member] at entry_member

theorem count_copies (entry : BaseUnit K) (count : Nat) (side : Side K) :
    (copies count side).count entry = count * side.count entry := by
  induction count with
  | zero => simp
  | succ count induction =>
      rw [copies_add, copies_one, List.count_append, induction, Nat.succ_mul]

theorem count_dimensional [OrderedScalar K] {entry : BaseUnit K}
    (has_dimension : entry.isDimensionless = false) (side : Side K) :
    (dimensional side).count entry = side.count entry := by
  rw [dimensional, List.count, List.countP_filter]
  refine List.countP_congr fun other _ => ?_
  rw [Bool.and_eq_true, and_iff_left_iff_imp]
  intro equal
  have same : other.isDimensionless = entry.isDimensionless := by
    rw [← BaseUnit.isDimensionless_unnamed, BaseUnit.beq_iff.mp equal,
      BaseUnit.isDimensionless_unnamed]
  simp [same, has_dimension]

/-! ## Formed sides -/

theorem unnamed_canonical (side : Side K) :
    unnamed (canonical side) = canonical (unnamed side) := by
  rw [canonical, canonical, unnamed_sort, unnamed_dimensional]

theorem canonical_dimensional (side : Side K) : canonical (dimensional side) = canonical side := by
  have have_dimension : ∀ entry ∈ dimensional side, entry.isDimensionless = false :=
    fun entry member => (mem_dimensional.mp member).2
  rw [canonical, canonical, dimensional_eq_self have_dimension]

theorem dimensional_canonical (side : Side K) : dimensional (canonical side) = canonical side :=
  dimensional_eq_self fun _ member => (mem_canonical.mp member).2

theorem dimensional_normalize_perm {placeholder : BaseUnit K} {side : Side K}
    (empty : dimensional side = [] → placeholder.isDimensionless = true) :
    (dimensional (normalize placeholder side)).Perm (dimensional side) := by
  have permuted := canonical_perm side
  have fixed := dimensional_canonical side
  rw [normalize]
  split
  · rename_i canonical_eq
    rw [canonical_eq] at permuted
    have dimensional_eq := permuted.nil_eq.symm
    rw [dimensional_eq, dimensional_eq_nil (by simp [isPlaceholder, empty dimensional_eq])]
  · rename_i canonical_eq
    rw [canonical_eq] at permuted fixed
    rwa [fixed]

theorem IsFilled.isDimensionless_placeholder {placeholder : BaseUnit K} {side : Side K}
    (filled : IsFilled placeholder side) (empty : dimensional side = []) :
    placeholder.isDimensionless = true := by
  cases filled with
  | placeholder =>
      have dropped := List.filter_eq_nil_iff.mp empty placeholder List.mem_cons_self
      simpa using dropped
  | entries nonempty have_dimension =>
      exact absurd ((dimensional_eq_self have_dimension).symm.trans empty) nonempty

theorem normalize_eq_of_canonical_eq {placeholder : BaseUnit K} {left right : Side K}
    (same : canonical left = canonical right) :
    normalize placeholder left = normalize placeholder right := by
  rw [normalize, normalize, same]

theorem normalize_normalize [LawfulScalar K] (placeholder : BaseUnit K) (side : Side K) :
    normalize placeholder (normalize placeholder side) = normalize placeholder side := by
  have fixed := (canonical_isCanonical side).canonical_eq
  cases canonical_eq : canonical side with
  | nil =>
      have formed : normalize placeholder side = [placeholder] := by rw [normalize, canonical_eq]
      rw [formed, normalize, canonical, dimensional]
      cases has : placeholder.isDimensionless <;> simp [has, sort, insert]
  | cons head tail =>
      have formed : normalize placeholder side = head :: tail := by rw [normalize, canonical_eq]
      rw [canonical_eq] at fixed
      rw [formed, normalize, fixed]

theorem unnamed_normalize_eq_of_perm [OrderedScalar K] {placeholder : BaseUnit K}
    {left right : Side K} (permuted : (dimensional (normalize placeholder left)).Perm
      (dimensional (normalize placeholder right))) :
    unnamed (normalize placeholder left) = unnamed (normalize placeholder right) := by
  have formed_again (side : Side K) : unnamed (normalize placeholder side) =
      normalize placeholder.unnamed (unnamed (normalize placeholder side)) := by
    rw [← unnamed_normalize, normalize_normalize]
  have canonical_eq := unnamed_canonical_eq_of_perm (permuted.map BaseUnit.unnamed)
  rw [canonical_dimensional, canonical_dimensional, unnamed_canonical, unnamed_canonical]
    at canonical_eq
  rw [formed_again left, formed_again right, normalize_eq_of_canonical_eq canonical_eq]

/-! ## Joining copies -/

section

variable {placeholder : BaseUnit K} {side left right : Side K} {count more : Nat}

theorem dimensional_append_perm_copies
    (left_perm : (dimensional left).Perm (copies count (dimensional side)))
    (right_perm : (dimensional right).Perm (copies more (dimensional side))) :
    (dimensional (left ++ right)).Perm (copies (count + more) (dimensional side)) := by
  rw [dimensional_append, copies_add]
  exact left_perm.append right_perm

/-- Copies that are joined to copies on a filled side are kept when the side is formed. -/
theorem dimensional_joined_perm (filled : IsFilled placeholder left)
    (left_perm : (dimensional left).Perm (copies count (dimensional side)))
    (right_perm : (dimensional right).Perm (copies more (dimensional side))) :
    (dimensional (normalize placeholder (canonical (left ++ right)))).Perm
      (copies (count + more) (dimensional side)) := by
  refine (dimensional_normalize_perm fun empty => ?_).trans ?_
  · -- Without dimensions on the joined side there are none on the left one either.
    rw [dimensional_canonical] at empty
    have joined_empty := (canonical_perm (left ++ right)).symm
    rw [empty, dimensional_append] at joined_empty
    exact filled.isDimensionless_placeholder (List.append_eq_nil_iff.mp joined_empty.eq_nil).1
  · rw [dimensional_canonical]
    exact (canonical_perm _).trans (dimensional_append_perm_copies left_perm right_perm)

end

end Side

/-! ## Units with copies of entries -/

namespace CompoundUnit

/-- A unit whose entries are those of another, a number of times. -/
structure HasCopies (power unit : CompoundUnit K) (count : Nat) : Prop where
  /-- Both sides are in canonical form. -/
  formed : power.IsFormed
  /-- The placeholders are the same. -/
  placeholder_eq : power.placeholder = unit.placeholder
  /-- The entries above the line. -/
  numerator_perm : (Side.dimensional power.numerator).Perm
    (Side.copies count (Side.dimensional unit.numerator))
  /-- The entries below the line. -/
  denominator_perm : (Side.dimensional power.denominator).Perm
    (Side.copies count (Side.dimensional unit.denominator))

/-- The sides of a unit share no dimension. -/
def SharesNothing (unit : CompoundUnit K) : Prop :=
  Side.Apart (Side.dimensional unit.numerator) (Side.dimensional unit.denominator)

namespace HasCopies

variable {unit power left right : CompoundUnit K} {count more : Nat}

theorem self (formed : unit.IsFormed) : unit.HasCopies unit 1 :=
  ⟨formed, rfl, by simp, by simp⟩

theorem sharesNothing (copies : power.HasCopies unit count) (apart : unit.SharesNothing) :
    power.SharesNothing :=
  Side.Apart.mono apart
    (fun _ member => Side.mem_of_mem_copies (copies.numerator_perm.mem_iff.mp member))
    fun _ member => Side.mem_of_mem_copies (copies.denominator_perm.mem_iff.mp member)

theorem trans {middle : CompoundUnit K} (copies : power.HasCopies middle more)
    (middle_copies : middle.HasCopies unit count) : power.HasCopies unit (count * more) where
  formed := copies.formed
  placeholder_eq := copies.placeholder_eq.trans middle_copies.placeholder_eq
  numerator_perm := by
    rw [Side.copies_mul]
    exact copies.numerator_perm.trans (Side.copies_perm middle_copies.numerator_perm more)
  denominator_perm := by
    rw [Side.copies_mul]
    exact copies.denominator_perm.trans (Side.copies_perm middle_copies.denominator_perm more)

theorem beq [OrderedScalar K] (left_copies : left.HasCopies unit count)
    (right_copies : right.HasCopies unit count) : (left == right) = true := by
  obtain ⟨⟨left_above, left_above_eq⟩, ⟨left_below, left_below_eq⟩⟩ := left_copies.formed
  obtain ⟨⟨right_above, right_above_eq⟩, ⟨right_below, right_below_eq⟩⟩ := right_copies.formed
  have above_perm := left_copies.numerator_perm.trans right_copies.numerator_perm.symm
  have below_perm := left_copies.denominator_perm.trans right_copies.denominator_perm.symm
  rw [left_above_eq, right_above_eq, left_copies.placeholder_eq, right_copies.placeholder_eq]
    at above_perm
  rw [left_below_eq, right_below_eq, left_copies.placeholder_eq, right_copies.placeholder_eq]
    at below_perm
  rw [beq_iff, left_above_eq, right_above_eq, left_below_eq, right_below_eq,
    left_copies.placeholder_eq, right_copies.placeholder_eq]
  exact ⟨Side.unnamed_normalize_eq_of_perm above_perm, Side.unnamed_normalize_eq_of_perm below_perm⟩

theorem count_eq [OrderedScalar K] (copies : power.HasCopies unit count) {entry : BaseUnit K}
    (has_dimension : entry.isDimensionless = false) :
    power.numerator.count entry = count * unit.numerator.count entry ∧
      power.denominator.count entry = count * unit.denominator.count entry := by
  have above_eq := copies.numerator_perm.count_eq entry
  have below_eq := copies.denominator_perm.count_eq entry
  simp only [Side.count_copies, Side.count_dimensional has_dimension] at above_eq below_eq
  exact ⟨above_eq, below_eq⟩

theorem dimensional_eq_nil (copies : power.HasCopies unit count)
    (empty : power.isDimensionless = true) :
    Side.copies count (Side.dimensional unit.numerator) = [] ∧
      Side.copies count (Side.dimensional unit.denominator) = [] := by
  obtain ⟨above_empty, below_empty⟩ := Bool.and_eq_true_iff.mp empty
  have above_perm := copies.numerator_perm
  have below_perm := copies.denominator_perm
  rw [Side.dimensional_eq_nil above_empty] at above_perm
  rw [Side.dimensional_eq_nil below_empty] at below_perm
  exact ⟨above_perm.nil_eq.symm, below_perm.nil_eq.symm⟩

end HasCopies

/-! ## Products of copies -/

/-- Entries that share no dimension are joined without cancelling any. -/
theorem extend_of_apart {unit : CompoundUnit K} {above below : Side K}
    (apart : Side.Apart (Side.dimensional (unit.numerator ++ above))
      (Side.dimensional (unit.denominator ++ below))) :
    unit.extend above below =
      (ofSides (Side.canonical (unit.numerator ++ above))
        (Side.canonical (unit.denominator ++ below)) unit.placeholder, 1) := by
  have canonical_apart := apart.mono (Side.canonical_perm _).subset (Side.canonical_perm _).subset
  rw [extend, simplify_eq_run, Cancellation.run_of_apart canonical_apart]

namespace HasCopies

variable {unit left right : CompoundUnit K} {count more : Nat}

/-- The product of two numbers of copies has all of them, and incurs no factor. -/
theorem exists_productWithFactor (apart : unit.SharesNothing)
    (left_copies : left.HasCopies unit count) (right_copies : right.HasCopies unit more) :
    ∃ product, left.productWithFactor right = (product, 1) ∧
      product.HasCopies unit (count + more) := by
  rw [productWithFactor]
  split
  · rename_i right_empty
    obtain ⟨above_empty, below_empty⟩ := right_copies.dimensional_eq_nil right_empty
    refine ⟨left, rfl, left_copies.formed, left_copies.placeholder_eq, ?_, ?_⟩
    · rw [Side.copies_add, above_empty, List.append_nil]
      exact left_copies.numerator_perm
    · rw [Side.copies_add, below_empty, List.append_nil]
      exact left_copies.denominator_perm
  · split
    · rename_i left_empty
      obtain ⟨above_empty, below_empty⟩ := left_copies.dimensional_eq_nil left_empty
      refine ⟨right, rfl, right_copies.formed, right_copies.placeholder_eq, ?_, ?_⟩
      · rw [Side.copies_add, above_empty, List.nil_append]
        exact right_copies.numerator_perm
      · rw [Side.copies_add, below_empty, List.nil_append]
        exact right_copies.denominator_perm
    · have joined_apart : Side.Apart (Side.dimensional (left.numerator ++ right.numerator))
          (Side.dimensional (left.denominator ++ right.denominator)) := by
        have above_perm := Side.dimensional_append_perm_copies left_copies.numerator_perm
          right_copies.numerator_perm
        have below_perm := Side.dimensional_append_perm_copies left_copies.denominator_perm
          right_copies.denominator_perm
        exact apart.mono (fun _ member => Side.mem_of_mem_copies (above_perm.subset member))
          fun _ member => Side.mem_of_mem_copies (below_perm.subset member)
      obtain ⟨⟨above, above_eq⟩, ⟨below, below_eq⟩⟩ := left_copies.formed
      rw [extend_of_apart joined_apart]
      refine ⟨_, rfl, ofSides_isFormed _ _ _, left_copies.placeholder_eq, ?_, ?_⟩
      · have filled : Side.IsFilled left.placeholder left.numerator := by
          rw [above_eq]
          exact Side.normalize_isFilled _ _
        exact Side.dimensional_joined_perm filled left_copies.numerator_perm
          right_copies.numerator_perm
      · have filled : Side.IsFilled left.placeholder left.denominator := by
          rw [below_eq]
          exact Side.normalize_isFilled _ _
        exact Side.dimensional_joined_perm filled left_copies.denominator_perm
          right_copies.denominator_perm

end HasCopies

/-! ## Repeated products -/

/-- The factors that the steps of a repeated multiplication incur. -/
def stepFactors (unit product : CompoundUnit K) : Nat → List K
  | 0 => []
  | count + 1 =>
      (product.productWithFactor unit).2 :: stepFactors unit (product.multiply unit) count

/-- Multiplying by a unit some times adds as many copies, and no step incurs a factor. -/
theorem HasCopies.multiplyTimes {unit product : CompoundUnit K} (formed : unit.IsFormed)
    (apart : unit.SharesNothing) {count : Nat} (copies : product.HasCopies unit count)
    (more : Nat) :
    (unit.multiplyTimes product more).HasCopies unit (count + more) ∧
      ∀ factor ∈ unit.stepFactors product more, factor = 1 := by
  induction more generalizing product count with
  | zero => exact ⟨copies, by simp [stepFactors]⟩
  | succ more induction =>
      obtain ⟨next, next_eq, next_copies⟩ := copies.exists_productWithFactor apart (.self formed)
      have multiply_eq : product.multiply unit = next := congrArg Prod.fst next_eq
      obtain ⟨rest_copies, rest_factors⟩ := induction next_copies
      rw [CompoundUnit.multiplyTimes, stepFactors, multiply_eq, next_eq]
      refine ⟨?_, List.forall_mem_cons.mpr ⟨rfl, rest_factors⟩⟩
      rwa [Nat.add_comm more, ← Nat.add_assoc]

theorem stepFactors_eq_one {unit : CompoundUnit K} (formed : unit.IsFormed)
    (apart : unit.SharesNothing) (count : Nat) :
    ∀ factor ∈ unit.stepFactors unit count, factor = 1 :=
  ((HasCopies.self formed).multiplyTimes formed apart count).2

theorem power_pos {unit power : CompoundUnit K} {exponent : Nat}
    (power_eq : unit.power exponent = .ok power) : 0 < exponent := by
  cases exponent with
  | zero => cases power_eq
  | succ count => exact Nat.succ_pos count

theorem exists_power (unit : CompoundUnit K) {exponent : Nat} (positive : 0 < exponent) :
    ∃ power, unit.power exponent = .ok power := by
  cases exponent with
  | zero => cases positive
  | succ count => exact ⟨_, rfl⟩

theorem HasCopies.of_power {unit power : CompoundUnit K} {exponent : Nat} (formed : unit.IsFormed)
    (apart : unit.SharesNothing) (power_eq : unit.power exponent = .ok power) :
    power.HasCopies unit exponent := by
  cases exponent with
  | zero => cases power_eq
  | succ count =>
      obtain rfl := Except.ok.inj power_eq
      rw [Nat.add_comm]
      exact ((HasCopies.self formed).multiplyTimes formed apart count).1

end CompoundUnit

/-! ## Powers of quantities -/

namespace Quantity

/-- Where no step incurs a factor, the numbers are multiplied from left to right. -/
theorem multiplyTimes_ofNumber [LawfulScalar K] {unit product : CompoundUnit K} {count : Nat}
    (no_factor : ∀ factor ∈ unit.stepFactors product count, factor = 1) (number start : K) :
    (ofNumber number unit).multiplyTimes (ofNumber start product) count =
      .ok (ofNumber ((List.replicate count number).foldl (· * ·) start)
        (unit.multiplyTimes product count)) := by
  induction count generalizing product start with
  | zero => rfl
  | succ count induction =>
      obtain ⟨first_one, rest_one⟩ := List.forall_mem_cons.mp no_factor
      have step_eq : (ofNumber start product).multiply (ofNumber number unit) =
          .ok (ofNumber (start * number) (product.multiply unit)) := by
        change Except.ok (ofNumber (start * number * (product.productWithFactor unit).2)
          (product.multiply unit)) = _
        rw [first_one, LawfulScalar.mul_one]
      rw [multiplyTimes, step_eq]
      exact induction rest_one (start * number)

/-- A list cannot be multiplied by itself, so that only its first power exists. -/
theorem power_list_eq (values : List K) (unit : CompoundUnit K) (count : Nat) :
    (⟨.list values, unit⟩ : Quantity K).power (count + 2) =
      .error (.ambiguousBroadcast (.twoLists .multiply)) := rfl

theorem power_list_fails_iff {values : List K} {unit : CompoundUnit K} {exponent : Nat} :
    (∃ fault, (⟨.list values, unit⟩ : Quantity K).power exponent =
      .error (.ambiguousBroadcast fault)) ↔ 2 ≤ exponent := by
  match exponent with
  | 0 => simp [power]
  | 1 => simp [power, multiplyTimes]
  | count + 2 => exact ⟨fun _ => Nat.le_add_left 2 count, fun _ => ⟨_, power_list_eq _ _ _⟩⟩

end Quantity

namespace CompoundUnit

/-- The exponent laws for the powers of a unit and of single numbers in it. -/
structure ObeysExponentLaws (unit : CompoundUnit K) : Prop where
  /-- A power holds every entry with a dimension as often as its exponent says. -/
  occurrences {exponent : Nat} (positive : 0 < exponent) :
    ∃ power, unit.power exponent = .ok power ∧ ∀ entry : BaseUnit K,
      entry.isDimensionless = false →
        power.numerator.count entry = exponent * unit.numerator.count entry ∧
          power.denominator.count entry = exponent * unit.denominator.count entry
  /-- No step of a power incurs a factor. -/
  stepFactors_eq (exponent : Nat) : ∀ factor ∈ unit.stepFactors unit exponent, factor = 1
  /-- Exponents are added in products, which incur no factor. -/
  power_add {first second : Nat} {left right : CompoundUnit K}
    (left_eq : unit.power first = .ok left) (right_eq : unit.power second = .ok right) :
    ∃ power, unit.power (first + second) = .ok power ∧ (left.multiply right == power) = true ∧
      (left.combine .times right).2 = 1
  /-- Exponents are multiplied in powers of powers, and no step incurs a factor. -/
  power_mul {first second : Nat} {middle : CompoundUnit K} (positive : 0 < second)
    (middle_eq : unit.power first = .ok middle) :
    ∃ outer power, middle.power second = .ok outer ∧ unit.power (first * second) = .ok power ∧
      (outer == power) = true ∧ ∀ factor ∈ middle.stepFactors middle (second - 1), factor = 1
  /-- A power of a number in the unit multiplies the number from left to right. -/
  power_ofNumber {exponent : Nat} {power : CompoundUnit K}
    (power_eq : unit.power exponent = .ok power) (number : K) :
    (Quantity.ofNumber number unit).power exponent =
      .ok (.ofNumber ((List.replicate (exponent - 1) number).foldl (· * ·) number) power)

theorem obeysExponentLaws [OrderedScalar K] {unit : CompoundUnit K} (formed : unit.IsFormed)
    (apart : unit.SharesNothing) : unit.ObeysExponentLaws where
  occurrences positive := by
    obtain ⟨power, power_eq⟩ := unit.exists_power positive
    exact ⟨power, power_eq, fun _ => (HasCopies.of_power formed apart power_eq).count_eq⟩
  stepFactors_eq := stepFactors_eq_one formed apart
  power_add {first second left right} left_eq right_eq := by
    have left_copies := HasCopies.of_power formed apart left_eq
    have right_copies := HasCopies.of_power formed apart right_eq
    obtain ⟨product, product_eq, product_copies⟩ :=
      left_copies.exists_productWithFactor apart right_copies
    obtain ⟨power, power_eq⟩ := unit.exists_power (Nat.add_pos_left (power_pos left_eq) second)
    refine ⟨power, power_eq, ?_, congrArg Prod.snd product_eq⟩
    rw [multiply, product_eq]
    exact product_copies.beq (.of_power formed apart power_eq)
  power_mul {first second middle} positive middle_eq := by
    have middle_copies := HasCopies.of_power formed apart middle_eq
    have middle_apart := middle_copies.sharesNothing apart
    obtain ⟨outer, outer_eq⟩ := middle.exists_power positive
    obtain ⟨power, power_eq⟩ := unit.exists_power (Nat.mul_pos (power_pos middle_eq) positive)
    have outer_copies := HasCopies.of_power middle_copies.formed middle_apart outer_eq
    refine ⟨outer, power, outer_eq, power_eq, ?_,
      stepFactors_eq_one middle_copies.formed middle_apart _⟩
    exact (outer_copies.trans middle_copies).beq (.of_power formed apart power_eq)
  power_ofNumber {exponent power} power_eq number := by
    cases exponent with
    | zero => cases power_eq
    | succ count =>
        obtain rfl := Except.ok.inj power_eq
        exact Quantity.multiplyTimes_ofNumber (stepFactors_eq_one formed apart count) number number

/--
Powers obey the exponent laws, for every unit whose sides share no dimension.  There is no power
with the exponent zero, of units and of quantities, and of a list there is the first power only.
-/
theorem powers_obey_exponent_laws [OrderedScalar K] :
    (∀ unit : CompoundUnit K, unit.IsFormed → unit.SharesNothing → unit.ObeysExponentLaws) ∧
      (∀ unit : CompoundUnit K,
        unit.power 0 = .error (.invalidConstruction (.powerNotPositive unit.name))) ∧
      (∀ quantity : Quantity K,
        quantity.power 0 = .error (.invalidConstruction (.powerNotPositive quantity.display))) ∧
      ∀ (values : List K) (unit : CompoundUnit K) (exponent : Nat),
        (∃ fault, (unit.quantity (.list values)).power exponent =
          .error (.ambiguousBroadcast fault)) ↔ 2 ≤ exponent :=
  ⟨fun _ => obeysExponentLaws, fun _ => rfl, fun _ => rfl, fun _ _ _ =>
    Quantity.power_list_fails_iff⟩

/-- Two lengths over a time. -/
private def sweepRate : CompoundUnit Float :=
  .ofSides [⟨"rod", "[length]", "meter", 5.0292, by decide⟩,
      ⟨"link", "[length]", "meter", 0.201168, by decide⟩]
    [⟨"fortnight", "[time]", "second", 1209600, by decide⟩] .dimensionless

/-- Square and cube of two lengths over a time, and the cube of a number in it. -/
theorem sweepRate_powers :
    ∃ square cube, sweepRate.power 2 = .ok square ∧ sweepRate.power 3 = .ok cube ∧
      (∃ power, sweepRate.power 5 = .ok power ∧ (square.multiply cube == power) = true) ∧
      (∃ outer power, square.power 3 = .ok outer ∧ sweepRate.power 6 = .ok power ∧
        (outer == power) = true) ∧
      (Quantity.ofNumber 0.1 sweepRate).power 3 = .ok (.ofNumber (0.1 * 0.1 * 0.1) cube) ∧
      ∃ fault,
        (sweepRate.quantity (.list [1, 2])).power 2 = .error (.ambiguousBroadcast fault) := by
  obtain ⟨laws, -, -, lists⟩ := powers_obey_exponent_laws (K := Float)
  have apart : sweepRate.SharesNothing := by
    unfold SharesNothing Side.Apart
    decide +kernel
  have rate_laws := laws sweepRate (ofSides_isFormed _ _ _) apart
  obtain ⟨square, square_eq, -⟩ := rate_laws.occurrences (show 0 < 2 by decide)
  obtain ⟨cube, cube_eq, -⟩ := rate_laws.occurrences (show 0 < 3 by decide)
  obtain ⟨sum, sum_eq, sum_beq, -⟩ := rate_laws.power_add square_eq cube_eq
  obtain ⟨outer, power, outer_eq, power_eq, power_beq, -⟩ :=
    rate_laws.power_mul (show 0 < 3 by decide) square_eq
  exact ⟨square, cube, square_eq, cube_eq, ⟨sum, sum_eq, sum_beq⟩,
    ⟨outer, power, outer_eq, power_eq, power_beq⟩, rate_laws.power_ofNumber cube_eq 0.1,
    (lists [1, 2] sweepRate 2).mpr (Nat.le_refl 2)⟩

end CompoundUnit
end UnitAlgebra
