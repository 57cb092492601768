import Mathlib.Data.List.TakeWhile
import UnitAlgebra.Proofs.Decimal.Shortest
import UnitAlgebra.Scalar

/-!
# Displayed numbers are read back

A decimal in positional notation is a literal of the same value and sign.  The shortest decimal of a
double lies in the interval of the double, so every finite double is read back from its text; only a
zero may lose its sign.
-/

namespace UnitAlgebra
namespace Decimal

open Binary64 (Parts)

/-! ## Literals of digits -/

namespace Literal

/-- The characters of a sign. -/
def signChars (negative : Bool) : List Char :=
  if negative then ['-'] else []

variable {whole fraction : List Char}

theorem split_signChars (negative : Bool) (whole_ne_nil : whole ≠ [])
    (whole_digits : ∀ character ∈ whole, isDigit character = true) (rest : List Char) :
    Sign.split (signChars negative ++ (whole ++ rest)) =
      (if negative then some .minus else none, whole ++ rest) := by
  cases negative with
  | true => rfl
  | false =>
      cases whole with
      | nil => exact absurd rfl whole_ne_nil
      | cons first whole =>
          have digit := whole_digits first List.mem_cons_self
          unfold Sign.split
          split
          · rename_i equal
            obtain rfl := (List.cons.inj equal).1
            exact absurd digit (by decide)
          · rename_i equal
            obtain rfl := (List.cons.inj equal).1
            exact absurd digit (by decide)
          · rfl

theorem ofChars?_whole (negative : Bool) (whole_ne_nil : whole ≠ [])
    (whole_digits : ∀ character ∈ whole, isDigit character = true) :
    ofChars? (signChars negative ++ whole) =
      some ⟨if negative then some .minus else none, whole, none, none⟩ := by
  have split_eq := split_signChars negative whole_ne_nil whole_digits []
  rw [List.append_nil] at split_eq
  rw [ofChars?, split_eq]
  simp only [List.takeWhile_eq_self_iff.mpr whole_digits,
    List.dropWhile_eq_nil_iff.mpr whole_digits]
  rfl

theorem ofChars?_fraction (negative : Bool) (whole_ne_nil : whole ≠ [])
    (whole_digits : ∀ character ∈ whole, isDigit character = true)
    (fraction_digits : ∀ character ∈ fraction, isDigit character = true) :
    ofChars? (signChars negative ++ (whole ++ '.' :: fraction)) =
      some ⟨if negative then some .minus else none, whole, some fraction, none⟩ := by
  have point : isDigit '.' = false := by decide
  rw [ofChars?, split_signChars negative whole_ne_nil whole_digits]
  simp only [List.takeWhile_append_of_pos whole_digits, List.dropWhile_append_of_pos whole_digits,
    List.takeWhile_cons_of_neg (by simp [point] : ¬isDigit '.' = true),
    List.dropWhile_cons_of_neg (by simp [point] : ¬isDigit '.' = true), List.append_nil,
    splitFraction, List.takeWhile_eq_self_iff.mpr fraction_digits,
    List.dropWhile_eq_nil_iff.mpr fraction_digits]
  rfl

end Literal

theorem isDigit_of_mem_toDigits {number : Nat} {character : Char}
    (member : character ∈ Nat.toDigits 10 number) : isDigit character = true := by
  have digit := Nat.isDigit_of_mem_toDigits (by norm_num) le_rfl member
  simpa [Char.isDigit, isDigit, Char.le_def] using digit

theorem isDigit_of_mem_zeros {count : Nat} {character : Char}
    (member : character ∈ NumberFormat.zeros count) : isDigit character = true := by
  rw [List.eq_of_mem_replicate member]
  decide

theorem digitsValue_append_zeros (digits : List Char) (count : Nat) :
    digitsValue (digits ++ NumberFormat.zeros count) = digitsValue digits * 10 ^ count := by
  change Nat.ofDigitChars 10 (digits ++ List.replicate count '0') 0 = _
  rw [Nat.ofDigitChars_append, Nat.ofDigitChars_replicate_zero, Nat.mul_comm]
  rfl

theorem digitsValue_zeros_append (count : Nat) (digits : List Char) :
    digitsValue (NumberFormat.zeros count ++ digits) = digitsValue digits := by
  change Nat.ofDigitChars 10 (List.replicate count '0' ++ digits) 0 = _
  rw [Nat.ofDigitChars_append, Nat.ofDigitChars_replicate_zero, Nat.mul_zero]
  rfl

theorem digitsValue_toDigits (number : Nat) : digitsValue (Nat.toDigits 10 number) = number :=
  Nat.ofDigitChars_ten_toDigits

/-! ## Positional notation -/

/-- A literal that denotes a decimal. -/
structure Literal.Denotes (literal : Literal) (number : Decimal) : Prop where
  /-- The literal has a digit. -/
  hasDigit : literal.hasDigit = true
  /-- The sign is the same. -/
  negative_eq : literal.value.negative = number.negative
  /-- The value is the same. -/
  size_eq : literal.value.size = number.size

/-- A text is a literal of a decimal. -/
def IsLiteralOf (text : List Char) (number : Decimal) : Prop :=
  ∃ literal, Literal.ofChars? text = some literal ∧ literal.Denotes number

theorem Literal.hasDigit_of_whole {literal : Literal} (whole_ne_nil : literal.whole ≠ []) :
    literal.hasDigit = true := by
  rw [hasDigit, allDigits]
  cases whole_eq : literal.whole with
  | nil => exact absurd whole_eq whole_ne_nil
  | cons first rest => rfl

theorem sign_beq_minus (negative : Bool) :
    ((if negative then some Sign.minus else none) == some .minus) = negative := by
  cases negative <;> rfl

section

variable {digits : List Char} {exponent : Int} (negative : Bool)

theorem isLiteralOf_of_whole (digits_ne_nil : digits ≠ [])
    (all_digits : ∀ character ∈ digits, isDigit character = true) (whole : 0 ≤ exponent) :
    IsLiteralOf (Literal.signChars negative ++ display.positionalChars digits exponent)
      ⟨negative, digitsValue digits, exponent⟩ := by
  have no_mark : display.wholeMark.toList = [] := rfl
  have whole_ne_nil : digits ++ NumberFormat.zeros exponent.toNat ≠ [] := by
    simp [digits_ne_nil]
  rw [NumberFormat.positionalChars, if_pos whole, no_mark, List.append_nil]
  refine ⟨_, Literal.ofChars?_whole _ whole_ne_nil ?_, ⟨?_, sign_beq_minus negative, ?_⟩⟩
  · intro character member
    rcases List.mem_append.mp member with digit | zero
    · exact all_digits character digit
    · exact isDigit_of_mem_zeros zero
  · exact Literal.hasDigit_of_whole whole_ne_nil
  · obtain ⟨count, rfl⟩ := Int.eq_ofNat_of_zero_le whole
    rw [size, size, zpow_natCast]
    change ((digitsValue (digits ++ NumberFormat.zeros count ++ []) : Nat) : Rat) *
      10 ^ (0 : Int) = _
    rw [List.append_nil, digitsValue_append_zeros, zpow_zero, mul_one, Nat.cast_mul,
      Nat.cast_pow]
    rfl

theorem isLiteralOf_of_split
    (all_digits : ∀ character ∈ digits, isDigit character = true) (fractional : exponent < 0)
    (some_whole : 0 < exponent + digits.length) :
    IsLiteralOf (Literal.signChars negative ++ display.positionalChars digits exponent)
      ⟨negative, digitsValue digits, exponent⟩ := by
  have whole_ne_nil : digits.take (exponent + digits.length).toNat ≠ [] := by
    apply List.ne_nil_of_length_pos
    rw [List.length_take]
    omega
  rw [NumberFormat.positionalChars, if_neg fractional.not_ge, if_pos some_whole]
  refine ⟨_, Literal.ofChars?_fraction _ whole_ne_nil ?_ ?_, ⟨?_, sign_beq_minus negative, ?_⟩⟩
  · exact fun character member => all_digits character (List.mem_of_mem_take member)
  · exact fun character member => all_digits character (List.mem_of_mem_drop member)
  · exact Literal.hasDigit_of_whole whole_ne_nil
  · rw [size, size]
    change ((digitsValue (digits.take _ ++ digits.drop _) : Nat) : Rat) *
      10 ^ (0 - ((digits.drop _).length : Int)) = _
    have exponent_eq :
        0 - ((digits.length - (exponent + digits.length).toNat : Nat) : Int) = exponent := by
      omega
    rw [List.take_append_drop, List.length_drop, exponent_eq]

theorem isLiteralOf_of_small
    (all_digits : ∀ character ∈ digits, isDigit character = true) (fractional : exponent < 0)
    (no_whole : exponent + digits.length ≤ 0) :
    IsLiteralOf (Literal.signChars negative ++ display.positionalChars digits exponent)
      ⟨negative, digitsValue digits, exponent⟩ := by
  rw [NumberFormat.positionalChars, if_neg fractional.not_ge, if_neg no_whole.not_gt]
  refine ⟨_, @Literal.ofChars?_fraction ['0'] (NumberFormat.zeros _ ++ digits) _ (by simp)
    (List.forall_mem_singleton.mpr (by decide)) ?_, ⟨rfl, sign_beq_minus negative, ?_⟩⟩
  · intro character member
    rcases List.mem_append.mp member with zero | digit
    · exact isDigit_of_mem_zeros zero
    · exact all_digits character digit
  · rw [size, size]
    change
      ((digitsValue (NumberFormat.zeros 1 ++ (NumberFormat.zeros _ ++ digits)) : Nat) : Rat) *
      10 ^ (0 - ((NumberFormat.zeros _ ++ digits).length : Int)) = _
    have exponent_eq :
        0 - (((-(exponent + digits.length)).toNat + digits.length : Nat) : Int) = exponent := by
      omega
    rw [digitsValue_zeros_append, digitsValue_zeros_append, List.length_append,
      NumberFormat.zeros, List.length_replicate, exponent_eq]

/-- Positional notation of digits is a literal of their value. -/
theorem isLiteralOf_of_digits (digits_ne_nil : digits ≠ [])
    (all_digits : ∀ character ∈ digits, isDigit character = true) :
    IsLiteralOf (Literal.signChars negative ++ display.positionalChars digits exponent)
      ⟨negative, digitsValue digits, exponent⟩ := by
  rcases le_or_gt 0 exponent with whole | fractional
  · exact isLiteralOf_of_whole negative digits_ne_nil all_digits whole
  · rcases lt_or_ge 0 (exponent + digits.length) with some_whole | no_whole
    · exact isLiteralOf_of_split negative all_digits fractional some_whole
    · exact isLiteralOf_of_small negative all_digits fractional no_whole

end

/-- Positional notation is a literal of the same decimal. -/
theorem isLiteralOf_decimalChars (number : Decimal) :
    IsLiteralOf (display.decimalChars number) number := by
  have chars_eq : display.decimalChars number = Literal.signChars number.negative ++
      display.positionalChars (Nat.toDigits 10 number.digits) number.exponent := by
    rw [NumberFormat.decimalChars, Literal.signChars]
    cases number.negative <;> rfl
  have digits_literal := @isLiteralOf_of_digits _ number.exponent number.negative
    (Nat.toDigits_ne_nil : Nat.toDigits 10 number.digits ≠ []) fun _ => isDigit_of_mem_toDigits
  rw [digitsValue_toDigits, ← chars_eq] at digits_literal
  exact digits_literal

/-! ## Doubles -/

theorem size_eq_zero_iff {number : Decimal} : number.size = 0 ↔ number.digits = 0 := by
  rw [size, mul_eq_zero, Nat.cast_eq_zero]
  exact or_iff_left (ten_zpow_pos _).ne'

section

variable {value : Float} {parts : Parts} {number : Decimal}

theorem exists_nearestFinite?_of_zero (read : Parts.ofFloat? value = some parts)
    (zero : parts.significand = 0) (digits_zero : number.digits = 0) :
    ∃ again, number.nearestFinite? = some again ∧ (again == value) = true := by
  have unsigned_eq : nearestUnsigned number.digits number.exponent = 0 := by
    rw [nearestUnsigned, digits_zero]
    rfl
  have positive_read : Parts.ofFloat? 0 = some ⟨false, 0, -1074⟩ := by decide +kernel
  have negative_read : Parts.ofFloat? (-0) = some ⟨true, 0, -1074⟩ := by decide +kernel
  rw [nearestFinite?, nearest, unsigned_eq]
  cases number.negative with
  | true =>
      refine ⟨-0, if_pos (Binary64.isFinite_of_ofFloat? negative_read), ?_⟩
      exact Binary64.beq_of_significand_eq_zero read zero negative_read rfl
  | false =>
      refine ⟨0, if_pos (Binary64.isFinite_of_ofFloat? positive_read), ?_⟩
      exact Binary64.beq_of_significand_eq_zero read zero positive_read rfl

/-- A signed decimal in the interval of a double is read as the double. -/
theorem nearestFinite?_eq (read : Parts.ofFloat? value = some parts)
    (nonzero : parts.significand ≠ 0) (negative_eq : number.negative = parts.negative)
    (attracts : parts.Attracts number.size) : number.nearestFinite? = some value := by
  have canonical := (Parts.isCanonical_of_ofBits? read).1
  have positive : Parts.IsCanonical { parts with negative := false } :=
    ⟨canonical.significand_lt, canonical.least_le, canonical.exponent_le, canonical.normal⟩
  have nearest_eq : number.nearest = value := by
    rw [nearest, nearestUnsigned_eq attracts canonical nonzero, negative_eq,
      ← Binary64.toFloat_of_ofFloat? read]
    obtain ⟨negative, significand, exponent⟩ := parts
    cases negative with
    | true => exact positive.neg_toFloat
    | false => rfl
  rw [nearestFinite?, nearest_eq]
  exact if_pos (Binary64.isFinite_of_ofFloat? read)

/-- The shortest decimal of a double, in any notation, is read as the double. -/
theorem exists_nearestFinite? (read : Parts.ofFloat? value = some parts)
    (negative_eq : number.negative = parts.negative ∨ number.digits = 0)
    (size_eq : number.size = (shortest .away parts).size) :
    ∃ again, number.nearestFinite? = some again ∧ (again == value) = true := by
  by_cases zero : parts.significand = 0
  · have shortest_eq : shortest .away parts = ⟨parts.negative, 0, 0⟩ := if_pos zero
    rw [shortest_eq] at size_eq
    have size_zero : number.size = 0 := by
      rw [size_eq, size_eq_zero_iff]
    exact exists_nearestFinite?_of_zero read zero (size_eq_zero_iff.mp size_zero)
  · have canonical := (Parts.isCanonical_of_ofBits? read).1
    have attracts := attracts_shortest .away canonical zero
    rw [← size_eq] at attracts
    have digits_ne_zero : number.digits ≠ 0 := by
      intro digits_zero
      have least_lt := lt_value_of_attracts attracts canonical zero
      rw [size_eq_zero_iff.mpr digits_zero] at least_lt
      exact absurd least_lt (ten_zpow_pos (-324)).not_gt
    exact ⟨value, nearestFinite?_eq read zero (negative_eq.resolve_right digits_ne_zero) attracts,
      Binary64.beq_self_of_ofFloat? read⟩

end

theorem negative_unsignedZero (number : Decimal) :
    number.unsignedZero.negative = number.negative ∨ number.unsignedZero.digits = 0 := by
  rw [unsignedZero]
  split
  · exact .inr ‹_›
  · exact .inl rfl

theorem size_unsignedZero (number : Decimal) : number.unsignedZero.size = number.size := by
  rw [unsignedZero]
  split
  · rfl
  · rfl

theorem exists_ofWord?_text {value : Float} (finite : value.isFinite = true) :
    ∃ again, Scalar.ofWord? Float (Scalar.text value).toList = some again ∧
      (again == value) = true := by
  obtain ⟨parts, read⟩ := Binary64.exists_parts_of_isFinite finite
  obtain ⟨literal, literal_eq, has_digit, negative_eq, size_eq⟩ :=
    isLiteralOf_decimalChars (shortest .away parts)
  have text_eq : (Scalar.text value).toList = display.decimalChars (shortest .away parts) := by
    change (display.render value).toList = _
    rw [NumberFormat.render, read]
    exact String.toList_ofList
  have word_eq : Scalar.ofWord? Float (Scalar.text value).toList =
      (if literal.isInteger then literal.value.unsignedZero else literal.value).nearestFinite? := by
    rw [text_eq, Scalar.ofWord?, literal_eq]
    exact if_pos has_digit
  rw [word_eq]
  rw [negative_shortest] at negative_eq
  split
  · refine exists_nearestFinite? read ?_ ((size_unsignedZero _).trans size_eq)
    exact (negative_unsignedZero _).imp_left fun kept => kept.trans negative_eq
  · exact exists_nearestFinite? read (.inl negative_eq) size_eq

end Decimal
end UnitAlgebra
