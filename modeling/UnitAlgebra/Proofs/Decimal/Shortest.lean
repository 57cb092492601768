import UnitAlgebra.Decimal.Shortest
import UnitAlgebra.Proofs.Decimal.Nearest

/-!
# Shortest decimals round to their doubles

Whatever the search for a shortest decimal finds lies in the interval of the double.  It finds
something: on the grid of 17 digits the points are closer to each other than the interval reaches to
either side, so one of the two neighbours of the double lies in the interval.
-/

namespace UnitAlgebra
namespace Decimal

open Binary64 (Parts two_zpow_pos)

namespace Target

/-- The least number that may round to the double. -/
def low (target : Target) : Rat :=
  target.lower / target.divisor

/-- The double itself. -/
def mid (target : Target) : Rat :=
  target.middle / target.divisor

/-- The greatest number that may round to the double. -/
def high (target : Target) : Rat :=
  target.upper / target.divisor

/-- A number that rounds to the double. -/
def Holds (target : Target) (value : Rat) : Prop :=
  target.low ≤ value ∧ value ≤ target.high ∧
    (target.closed = false → target.low < value ∧ value < target.high)

/-! ## Shifting the point -/

section

variable (target : Target) (exponent : Int)

theorem divisor_shift_pos {target : Target} (positive : 0 < target.divisor) :
    0 < (target.shift exponent).divisor :=
  Nat.mul_pos positive (Nat.pow_pos (by norm_num))

/-- A fraction whose terms are shifted against each other by a power of ten. -/
theorem shifted_fraction (numerator denominator : Nat) :
    ((numerator * Nat.pow 10 (-exponent).toNat : Nat) : Rat) /
        (denominator * Nat.pow 10 exponent.toNat : Nat) =
      numerator / denominator / 10 ^ exponent := by
  rw [Nat.pow_eq, Nat.pow_eq, ← one_mul ((10 : Rat) ^ exponent)]
  have power := fraction_eq 1 exponent
  rw [one_mul, Nat.cast_one] at power
  rw [← power]
  push_cast
  have above : (10 : Rat) ^ exponent.toNat ≠ 0 := pow_ne_zero _ (by norm_num)
  have below : (10 : Rat) ^ (-exponent).toNat ≠ 0 := pow_ne_zero _ (by norm_num)
  field_simp

theorem low_shift : (target.shift exponent).low = target.low / 10 ^ exponent :=
  shifted_fraction exponent target.lower target.divisor

theorem mid_shift : (target.shift exponent).mid = target.mid / 10 ^ exponent :=
  shifted_fraction exponent target.middle target.divisor

theorem high_shift : (target.shift exponent).high = target.high / 10 ^ exponent :=
  shifted_fraction exponent target.upper target.divisor

theorem Holds.of_shift {target : Target} {exponent : Int} {value : Rat}
    (holds : (target.shift exponent).Holds value) : target.Holds (value * 10 ^ exponent) := by
  have power_pos := ten_zpow_pos exponent
  obtain ⟨low_le, le_high, strict⟩ := holds
  rw [low_shift] at low_le strict
  rw [high_shift] at le_high strict
  refine ⟨(div_le_iff₀ power_pos).mp low_le, (le_div_iff₀ power_pos).mp le_high, fun opened => ?_⟩
  obtain ⟨low_lt, lt_high⟩ := strict opened
  exact ⟨(div_lt_iff₀ power_pos).mp low_lt, (lt_div_iff₀ power_pos).mp lt_high⟩

end

/-! ## Neighbours on a grid -/

theorem holds_of_contains {target : Target} {candidate : Nat} (positive : 0 < target.divisor)
    (contained : target.contains candidate = true) : target.Holds candidate := by
  have divisor_pos : (0 : Rat) < target.divisor := by exact_mod_cast positive
  rw [contains] at contained
  rw [Holds, low, high, div_le_iff₀ divisor_pos, le_div_iff₀ divisor_pos,
    div_lt_iff₀ divisor_pos, lt_div_iff₀ divisor_pos]
  split at contained
  · rename_i closed
    simp only [Bool.and_eq_true, decide_eq_true_eq] at contained
    refine ⟨by exact_mod_cast contained.1, by exact_mod_cast contained.2, fun opened => ?_⟩
    rw [closed] at opened
    cases opened
  · simp only [Bool.and_eq_true, decide_eq_true_eq] at contained
    have low_lt : (target.lower : Rat) < candidate * target.divisor := by
      exact_mod_cast contained.1
    have lt_high : (candidate * target.divisor : Rat) < target.upper := by
      exact_mod_cast contained.2
    exact ⟨low_lt.le, lt_high.le, fun _ => ⟨low_lt, lt_high⟩⟩

theorem contains_of_neighbour? {tie : Tie} {target : Target} {candidate : Nat}
    (found : target.neighbour? tie = some candidate) : target.contains candidate = true := by
  unfold neighbour? at found
  dsimp only at found
  split at found
  · cases found
  · rename_i below above
    obtain rfl := Option.some.inj found
    exact below
  · rename_i below above
    obtain rfl := Option.some.inj found
    exact above
  · rename_i below above
    split at found
    all_goals obtain rfl := Option.some.inj found
    · exact below
    · exact above
    · exact above
    · split
      · exact below
      · exact above

/-- On a grid that is finer than the interval reaches to either side, a neighbour is found. -/
theorem exists_neighbour? (tie : Tie) {target : Target} (positive : 0 < target.divisor)
    (reaches_down : target.low + 1 / 2 < target.mid)
    (reaches_up : target.mid + 1 / 2 < target.high) :
    ∃ candidate, target.neighbour? tie = some candidate := by
  have divisor_pos : (0 : Rat) < target.divisor := by exact_mod_cast positive
  have down : 2 * target.lower + target.divisor < 2 * target.middle := by
    rw [low, mid, div_add' _ _ _ divisor_pos.ne', div_lt_div_iff_of_pos_right divisor_pos]
      at reaches_down
    have cast_lt : (2 * target.lower + target.divisor : Rat) < 2 * target.middle := by linarith
    exact_mod_cast cast_lt
  have up : 2 * target.middle + target.divisor < 2 * target.upper := by
    rw [high, mid, div_add' _ _ _ divisor_pos.ne', div_lt_div_iff_of_pos_right divisor_pos]
      at reaches_up
    have cast_lt : (2 * target.middle + target.divisor : Rat) < 2 * target.upper := by linarith
    exact_mod_cast cast_lt
  have division := Nat.div_add_mod target.middle target.divisor
  have remainder_lt := Nat.mod_lt target.middle positive
  have contained : target.contains (target.middle / target.divisor) = true ∨
      target.contains (target.middle / target.divisor + 1) = true := by
    rw [contains, contains, Nat.add_mul, Nat.one_mul, Nat.mul_comm (target.middle / target.divisor)]
    generalize target.divisor * (target.middle / target.divisor) = below at division ⊢
    rcases Nat.lt_or_ge (2 * (target.middle % target.divisor)) target.divisor with near | far
    · left
      split <;> simp <;> omega
    · right
      split <;> simp <;> omega
  unfold neighbour?
  dsimp only
  cases below : target.contains (target.middle / target.divisor) with
  | true =>
      cases above : target.contains (target.middle / target.divisor + 1) with
      | false => exact ⟨_, rfl⟩
      | true =>
          cases compare (2 * (target.middle % target.divisor)) target.divisor with
          | lt => exact ⟨_, rfl⟩
          | gt => exact ⟨_, rfl⟩
          | eq => cases tie <;> exact ⟨_, rfl⟩
  | false =>
      cases above : target.contains (target.middle / target.divisor + 1) with
      | true => exact ⟨_, rfl⟩
      | false => simp [below, above] at contained

/-! ## The search -/

theorem holds_of_search {tie : Tie} {target : Target} {exponent : Int} {remaining : Nat}
    {number : Decimal} (positive : 0 < target.divisor)
    (found : target.search tie exponent remaining = some number) : target.Holds number.size := by
  induction remaining generalizing exponent with
  | zero => cases found
  | succ remaining induction =>
      rw [search] at found
      split at found
      · rename_i digits neighbour
        obtain rfl := Option.some.inj found
        exact (holds_of_contains (divisor_shift_pos exponent positive)
          (contains_of_neighbour? neighbour)).of_shift
      · exact induction found

/-- The search finds something if the last grid has a neighbour. -/
theorem exists_search {tie : Tie} {target : Target} {candidate : Nat} (count : Nat) {exponent : Int}
    (neighbour : (target.shift (exponent - count)).neighbour? tie = some candidate) :
    ∃ number, target.search tie exponent (count + 1) = some number := by
  induction count generalizing exponent with
  | zero =>
      rw [Int.natCast_zero, Int.sub_zero] at neighbour
      exact ⟨⟨false, candidate, exponent⟩, by rw [search, neighbour]⟩
  | succ count induction =>
      rw [search]
      split
      · exact ⟨_, rfl⟩
      · refine induction ?_
        rw [show exponent - 1 - (count : Int) = exponent - ((count + 1 : Nat) : Int) by omega]
        exact neighbour

theorem zpow_leadingPlace_le {target : Target} (middle_pos : 0 < target.middle)
    (positive : 0 < target.divisor) : (10 : Rat) ^ target.leadingPlace ≤ target.mid := by
  have divisor_pos : (0 : Rat) < target.divisor := by exact_mod_cast positive
  rw [leadingPlace]
  generalize estimate_eq : (length target.middle - length target.divisor : Int) = estimate
  split
  · rename_i reached
    have shifted_pos : (0 : Rat) < (target.shift estimate).divisor := by
      exact_mod_cast divisor_shift_pos estimate positive
    have one_le : 1 ≤ (target.shift estimate).mid := by
      rw [mid, one_le_div shifted_pos]
      exact_mod_cast reached
    rw [mid_shift, one_le_div (ten_zpow_pos _)] at one_le
    exact one_le
  · have middle_ge := zpow_le_size middle_pos 0
    have divisor_lt := size_lt_zpow target.divisor 0
    rw [zpow_zero, mul_one] at middle_ge divisor_lt
    rw [mid, le_div_iff₀ divisor_pos]
    calc (10 : Rat) ^ (estimate - 1) * target.divisor ≤
          10 ^ (estimate - 1) * 10 ^ (0 + length target.divisor : Int) :=
            mul_le_mul_of_nonneg_left divisor_lt.le (ten_zpow_pos _).le
      _ = 10 ^ (0 + length target.middle - 1 : Int) := by
          rw [← zpow_add₀ (by norm_num)]
          congr 1
          omega
      _ ≤ target.middle := middle_ge

/-! ## The target of a double -/

section

variable (parts : Parts)

theorem divisor_ofParts_pos : 0 < (ofParts parts).divisor :=
  Nat.mul_pos (by norm_num) (Nat.pow_pos (by norm_num))

theorem lower_ofParts :
    (ofParts parts).lower = (4 * parts.significand - parts.reach) * 2 ^ parts.exponent.toNat := by
  have narrow :
      (parts.significand = Binary64.hiddenBit && Binary64.leastExponent < parts.exponent) =
      decide (parts.significand = 2 ^ 52 ∧ -1074 < parts.exponent) := by
    rw [Bool.decide_and]
    rfl
  rw [ofParts, Parts.reach]
  simp only [narrow, decide_eq_true_eq]
  rfl

theorem scaled_ofParts (count : Nat) :
    ((count * 2 ^ parts.exponent.toNat : Nat) : Rat) / (ofParts parts).divisor =
      count * 2 ^ parts.exponent / 4 := by
  have shifted := Binary64.shifted_fraction 1 count (-parts.exponent)
  rw [neg_neg] at shifted
  change ((count * 2 ^ parts.exponent.toNat : Nat) : Rat) /
    (4 * 2 ^ (-parts.exponent).toNat : Nat) = _
  have quotient := Binary64.shifted_fraction count 1 (-parts.exponent)
  rw [neg_neg, one_mul, Nat.cast_one, div_one, zpow_neg, div_inv_eq_mul] at quotient
  rw [Nat.mul_comm 4, Nat.cast_mul (2 ^ (-parts.exponent).toNat), ← div_div, quotient]
  norm_num

theorem mid_ofParts : (ofParts parts).mid = parts.significand * 2 ^ parts.exponent := by
  rw [mid]
  refine (scaled_ofParts parts (4 * parts.significand)).trans ?_
  push_cast
  ring

theorem high_ofParts :
    (ofParts parts).high = (4 * parts.significand + 2) * 2 ^ parts.exponent / 4 := by
  rw [high]
  refine (scaled_ofParts parts (4 * parts.significand + 2)).trans ?_
  push_cast
  rfl

theorem low_ofParts (nonzero : parts.significand ≠ 0) :
    (ofParts parts).low = (4 * parts.significand - parts.reach) * 2 ^ parts.exponent / 4 := by
  have reach_le : parts.reach ≤ 4 * parts.significand := by
    have : parts.reach ≤ 2 := by exact_mod_cast parts.reach_le
    omega
  rw [low, lower_ofParts, scaled_ofParts, Nat.cast_sub reach_le]
  push_cast
  rfl

end

theorem Holds.attracts {parts : Parts} {value : Rat} (nonzero : parts.significand ≠ 0)
    (holds : (ofParts parts).Holds value) : parts.Attracts value := by
  obtain ⟨low_le, le_high, strict⟩ := holds
  rw [low_ofParts parts nonzero] at low_le strict
  rw [high_ofParts] at le_high strict
  refine ⟨by linarith, by linarith, fun odd => ?_⟩
  have opened : (ofParts parts).closed = false := by
    change decide (parts.significand % 2 = 0) = false
    rw [odd]
    rfl
  obtain ⟨low_lt, lt_high⟩ := strict opened
  exact ⟨by linarith, by linarith⟩

/-- With 17 digits the points of the grid are less than twice the reach of a double apart. -/
theorem reaches_of_grid {parts : Parts} (canonical : parts.IsCanonical) {grid : Rat}
    (grid_pos : 0 < grid) (fine : 10 ^ 16 * grid ≤ parts.significand * 2 ^ parts.exponent) :
    2 * grid < parts.reach * 2 ^ parts.exponent := by
  have power_pos := two_zpow_pos parts.exponent
  rw [Parts.reach]
  split
  · rename_i narrow
    rw [narrow.1] at fine
    push_cast at fine ⊢
    nlinarith
  · have significand_le : (parts.significand : Rat) ≤ 2 ^ 53 := by
      exact_mod_cast canonical.significand_lt.le
    have bound := mul_le_mul_of_nonneg_right significand_le power_pos.le
    push_cast
    nlinarith

theorem exists_neighbour?_ofParts (tie : Tie) {parts : Parts} (canonical : parts.IsCanonical)
    (nonzero : parts.significand ≠ 0) {exponent : Int}
    (fine : 10 ^ 16 * (10 : Rat) ^ exponent ≤ parts.significand * 2 ^ parts.exponent) :
    ∃ candidate, ((ofParts parts).shift exponent).neighbour? tie = some candidate := by
  have grid_pos := ten_zpow_pos exponent
  have reaches := reaches_of_grid canonical grid_pos fine
  have reach_le := mul_le_mul_of_nonneg_right parts.reach_le (two_zpow_pos parts.exponent).le
  refine exists_neighbour? tie (divisor_shift_pos _ (divisor_ofParts_pos parts)) ?_ ?_
  · rw [low_shift, mid_shift, low_ofParts parts nonzero, mid_ofParts, div_add' _ _ _ grid_pos.ne',
      div_lt_div_iff_of_pos_right grid_pos]
    linarith
  · rw [high_shift, mid_shift, high_ofParts, mid_ofParts, div_add' _ _ _ grid_pos.ne',
      div_lt_div_iff_of_pos_right grid_pos]
    linarith

theorem exists_search_ofParts (tie : Tie) {parts : Parts} (canonical : parts.IsCanonical)
    (nonzero : parts.significand ≠ 0) :
    ∃ number, (ofParts parts).search tie (ofParts parts).leadingPlace maximumDigits =
      some number := by
  have middle_pos : 0 < (ofParts parts).middle :=
    Nat.mul_pos (Nat.mul_pos (by norm_num) (Nat.pos_of_ne_zero nonzero)) (Nat.two_pow_pos _)
  have place_le := zpow_leadingPlace_le middle_pos (divisor_ofParts_pos parts)
  have fine : 10 ^ 16 * (10 : Rat) ^ ((ofParts parts).leadingPlace - (16 : Nat)) ≤
      parts.significand * 2 ^ parts.exponent := by
    rw [← mid_ofParts, ← zpow_natCast, ← zpow_add₀ (by norm_num), add_sub_cancel]
    exact place_le
  obtain ⟨candidate, neighbour⟩ := exists_neighbour?_ofParts tie canonical nonzero fine
  exact exists_search 16 neighbour

end Target

/-! ## The shortest decimal -/

/-- Zeros at the end move into the exponent without a change of the value. -/
theorem size_trimZeros (number : Decimal) (count : Nat) :
    (number.trimZeros count).size = number.size := by
  induction count generalizing number with
  | zero => rfl
  | succ count induction =>
      rw [trimZeros]
      split
      · rename_i divisible
        rw [induction, size, size]
        dsimp only
        have digits_eq : (number.digits : Rat) = (number.digits / 10 : Nat) * 10 := by
          exact_mod_cast (Nat.div_mul_cancel (Nat.dvd_of_mod_eq_zero divisible)).symm
        rw [digits_eq, zpow_add_one₀ (by norm_num)]
        ring
      · rfl

theorem negative_shortest (tie : Tie) (parts : Parts) :
    (shortest tie parts).negative = parts.negative := by
  rw [shortest]
  split
  · rfl
  · dsimp only
    split
    · rfl
    · rfl

theorem attracts_shortest (tie : Tie) {parts : Parts} (canonical : parts.IsCanonical)
    (nonzero : parts.significand ≠ 0) : parts.Attracts (shortest tie parts).size := by
  obtain ⟨found, search_eq⟩ := Target.exists_search_ofParts tie canonical nonzero
  have holds := Target.holds_of_search (Target.divisor_ofParts_pos parts) search_eq
  have shortest_eq : shortest tie parts =
      { found.trimZeros maximumDigits with negative := parts.negative } := by
    rw [shortest, if_neg nonzero]
    simp only [search_eq]
  rw [shortest_eq]
  change parts.Attracts (found.trimZeros maximumDigits).size
  rw [size_trimZeros]
  exact holds.attracts nonzero

end Decimal
end UnitAlgebra
