import UnitAlgebra.Proofs.Decimal.Display
import UnitAlgebra.Proofs.Decimal.Literal
import UnitAlgebra.Proofs.Json.Library

/-!
# Numbers in JSON texts

A double is written in JSON with a point or an exponent, so it is read back as a double and not as
an integer.  What is written is a JSON numeral for the shortest decimal of the double, which lies in
its interval; a zero keeps its sign.
-/

namespace UnitAlgebra
namespace Decimal

namespace Literal

/-! ## Characters of a literal -/

/-- The characters of a sign, if one is written. -/
def writtenSign : Option Sign → List Char
  | none => []
  | some .plus => ['+']
  | some .minus => ['-']

/-- The characters of the digits after a point, if one is written. -/
def writtenFraction : Option (List Char) → List Char
  | none => []
  | some digits => '.' :: digits

/-- The characters of an exponent, if one is written. -/
def writtenExponent : Option (Option Sign × List Char) → List Char
  | none => []
  | some (sign, digits) => 'e' :: (writtenSign sign ++ digits)

/-- The characters of a literal. -/
def chars (literal : Literal) : List Char :=
  writtenSign literal.sign ++
    (literal.whole ++ (writtenFraction literal.fraction ++ writtenExponent literal.exponent))

/-- A literal whose parts are made of digits, with some before the point and in an exponent. -/
structure IsWritten (literal : Literal) : Prop where
  /-- There is a digit before the point. -/
  whole_ne_nil : literal.whole ≠ []
  /-- Digits stand before the point. -/
  whole_digits : ∀ character ∈ literal.whole, isDigit character = true
  /-- Digits stand after the point. -/
  fraction_digits : ∀ digits ∈ literal.fraction, ∀ character ∈ digits, isDigit character = true
  /-- There is a digit in an exponent. -/
  exponent_ne_nil : ∀ exponent ∈ literal.exponent, exponent.2 ≠ []
  /-- Digits stand in an exponent. -/
  exponent_digits : ∀ exponent ∈ literal.exponent, ∀ character ∈ exponent.2,
    isDigit character = true

theorem split_writtenSign (sign : Option Sign) {digits : List Char} (digits_ne_nil : digits ≠ [])
    (all_digits : ∀ character ∈ digits, isDigit character = true) (rest : List Char) :
    Sign.split (writtenSign sign ++ (digits ++ rest)) = (sign, digits ++ rest) := by
  rcases sign with _ | sign
  · exact split_signChars false digits_ne_nil all_digits rest
  · cases sign <;> rfl

theorem exponentOfChars?_writtenExponent {sign : Option Sign} {digits : List Char}
    (digits_ne_nil : digits ≠ [])
    (all_digits : ∀ character ∈ digits, isDigit character = true) :
    exponentOfChars? (writtenExponent (some (sign, digits))) = some (sign, digits) := by
  have split_eq := split_writtenSign sign digits_ne_nil all_digits []
  rw [List.append_nil] at split_eq
  rw [writtenExponent, exponentOfChars?, split_eq]
  have accepted : (('e' == 'e' || 'e' == 'E') && !digits.isEmpty && digits.all isDigit) = true := by
    simp [digits_ne_nil, List.all_eq_true.mpr all_digits]
  exact if_pos accepted

theorem span_digits {digits rest : List Char}
    (all_digits : ∀ character ∈ digits, isDigit character = true)
    (ends : ∀ character ∈ rest.head?, isDigit character = false) :
    (digits ++ rest).takeWhile isDigit = digits ∧ (digits ++ rest).dropWhile isDigit = rest := by
  rw [List.takeWhile_append_of_pos all_digits, List.dropWhile_append_of_pos all_digits]
  cases rest with
  | nil => exact ⟨List.append_nil digits, rfl⟩
  | cons first rest =>
      have stops : ¬isDigit first = true := by simp [ends first rfl]
      rw [List.takeWhile_cons_of_neg stops, List.dropWhile_cons_of_neg stops, List.append_nil]
      exact ⟨rfl, rfl⟩

theorem splitFraction_written (fraction : Option (List Char))
    (exponent : Option (Option Sign × List Char))
    (fraction_digits : ∀ digits ∈ fraction, ∀ character ∈ digits, isDigit character = true) :
    splitFraction (writtenFraction fraction ++ writtenExponent exponent) =
      (fraction, writtenExponent exponent) := by
  have ends : ∀ character ∈ (writtenExponent exponent).head?, isDigit character = false := by
    cases exponent with
    | none => simp [writtenExponent]
    | some exponent =>
        rintro character ⟨⟩
        decide
  cases fraction with
  | none =>
      cases exponent with
      | none => rfl
      | some exponent => rfl
  | some digits =>
      obtain ⟨take_eq, drop_eq⟩ := span_digits (fraction_digits digits rfl) ends
      rw [writtenFraction, List.cons_append, splitFraction, take_eq, drop_eq]

theorem ofChars?_chars {literal : Literal} (written : literal.IsWritten) :
    ofChars? literal.chars = some literal := by
  obtain ⟨sign, whole, fraction, exponent⟩ := literal
  have ends : ∀ character ∈ (writtenFraction fraction ++ writtenExponent exponent).head?,
      isDigit character = false := by
    cases fraction with
    | none =>
        cases exponent with
        | none => simp [writtenFraction, writtenExponent]
        | some exponent =>
            rintro character ⟨⟩
            decide
    | some digits =>
        rintro character ⟨⟩
        decide
  obtain ⟨take_eq, drop_eq⟩ := span_digits written.whole_digits ends
  rw [ofChars?, chars, split_writtenSign sign written.whole_ne_nil written.whole_digits]
  dsimp only at take_eq drop_eq ⊢
  rw [take_eq, drop_eq, splitFraction_written fraction exponent written.fraction_digits]
  cases exponent with
  | none => rfl
  | some exponent =>
      have read := @exponentOfChars?_writtenExponent exponent.1 _
        (written.exponent_ne_nil exponent rfl) (written.exponent_digits exponent rfl)
      dsimp only
      rw [read]
      rfl

theorem whole_of_ofChars? {text : List Char} {literal : Literal}
    (read : ofChars? text = some literal) :
    literal.whole = (Sign.split text).2.takeWhile isDigit := by
  unfold ofChars? at read
  dsimp only at read
  split at read
  · obtain rfl := Option.some.inj read
    rfl
  · obtain ⟨exponent, -, rfl⟩ := Option.map_eq_some_iff.mp read
    rfl

end Literal

/-! ## Numerals of decimals -/

/-- A literal of JSON that is no integer and has the sign and the value of a decimal. -/
structure Literal.Spells (literal : Literal) (number : Decimal) : Prop where
  /-- The literal is read back from its characters. -/
  written : literal.IsWritten
  /-- The literal is a JSON number. -/
  isNumeral : Json.Number.isNumeral literal = true
  /-- The literal has a point or an exponent. -/
  not_integer : literal.isInteger = false
  /-- The sign is the same. -/
  negative_eq : literal.value.negative = number.negative
  /-- The value is the same. -/
  size_eq : literal.value.size = number.size

/-- A text is a JSON number with the sign and the value of a decimal. -/
def IsNumeralOf (text : List Char) (number : Decimal) : Prop :=
  ∃ literal : Literal, literal.chars = text ∧ literal.Spells number

/-- The sign that a number is written with. -/
def signOf (negative : Bool) : Option Sign :=
  if negative then some .minus else none

theorem writtenSign_signOf (negative : Bool) :
    Literal.writtenSign (signOf negative) = Literal.signChars negative := by
  cases negative <;> rfl

theorem signOf_ne_plus (negative : Bool) : (signOf negative != some .plus) = true := by
  cases negative <;> rfl

/-- Digits without a needless zero before them. -/
structure IsLeading (digits : List Char) : Prop where
  /-- There is a digit. -/
  ne_nil : digits ≠ []
  /-- All characters are digits. -/
  all_digits : ∀ character ∈ digits, isDigit character = true
  /-- A zero before the point stands alone. -/
  head_ne_zero : digits.length = 1 ∨ digits.head? ≠ some '0'

theorem IsLeading.isNumeral {whole : List Char} {fraction : Option (List Char)}
    {exponent : Option (Option Sign × List Char)} (leading : IsLeading whole) (negative : Bool)
    (fraction_ne : fraction ≠ some []) :
    Json.Number.isNumeral ⟨signOf negative, whole, fraction, exponent⟩ = true := by
  have head : (whole.length == 1 || whole.head? != some '0') = true := by
    simpa using leading.head_ne_zero
  simp [Json.Number.isNumeral, signOf_ne_plus, leading.ne_nil, head, fraction_ne]

theorem IsLeading.append_zeros {digits : List Char} (leading : IsLeading digits)
    (head_ne_zero : digits.head? ≠ some '0') (count : Nat) :
    IsLeading (digits ++ NumberFormat.zeros count) := by
  refine ⟨by simp [leading.ne_nil],
    List.forall_mem_append.mpr ⟨leading.all_digits, fun _ => isDigit_of_mem_zeros⟩, .inr ?_⟩
  rwa [List.head?_append_of_ne_nil _ leading.ne_nil]

theorem head?_toDigits_ne_zero {number : Nat} (positive : 0 < number) :
    (Nat.toDigits 10 number).head? ≠ some '0' := by
  induction number using Nat.strongRecOn with
  | ind number induction =>
      rcases Nat.lt_or_ge number 10 with small | large
      · have single : ∀ digit < 10, 0 < digit → [digit.digitChar].head? ≠ some '0' := by decide
        rw [Nat.toDigits_of_lt_base small]
        exact single number small positive
      · rw [Nat.toDigits_of_base_le (by norm_num) large,
          List.head?_append_of_ne_nil _ Nat.toDigits_ne_nil]
        exact induction (number / 10) (by omega) (by omega)

theorem isLeading_toDigits (number : Nat) : IsLeading (Nat.toDigits 10 number) := by
  refine ⟨Nat.toDigits_ne_nil, fun _ => isDigit_of_mem_toDigits, ?_⟩
  rcases Nat.eq_zero_or_pos number with rfl | positive
  · exact .inl (by rw [Nat.toDigits_zero]; rfl)
  · exact .inr (head?_toDigits_ne_zero positive)

section

variable {whole fraction digits : List Char} {exponent : Int} (negative : Bool)

theorem isNumeralOf_point (leading : IsLeading whole) (fraction_ne_nil : fraction ≠ [])
    (fraction_digits : ∀ character ∈ fraction, isDigit character = true) {number : Decimal}
    (negative_eq : number.negative = negative)
    (size_eq : number.size = digitsValue (whole ++ fraction) * 10 ^ (-fraction.length : Int)) :
    IsNumeralOf (Literal.signChars negative ++ (whole ++ '.' :: fraction)) number := by
  refine ⟨⟨signOf negative, whole, some fraction, none⟩, ?_, ?_⟩
  · rw [Literal.chars, writtenSign_signOf, Literal.writtenFraction, Literal.writtenExponent,
      List.append_nil]
  · refine ⟨⟨leading.ne_nil, leading.all_digits, ?_, by simp, by simp⟩,
      leading.isNumeral negative (by simpa using fraction_ne_nil), rfl, ?_, ?_⟩
    · rintro _ ⟨⟩
      exact fraction_digits
    · exact (sign_beq_minus negative).trans negative_eq.symm
    · rw [size_eq, ← zero_sub]
      rfl

/-- A whole number is written with a zero after the point. -/
theorem isNumeralOf_of_whole (leading : IsLeading digits) (whole : 0 ≤ exponent)
    (no_zeros : exponent = 0 ∨ digits.head? ≠ some '0') :
    IsNumeralOf (Literal.signChars negative ++ interchange.positionalChars digits exponent)
      ⟨negative, digitsValue digits, exponent⟩ := by
  obtain ⟨count, rfl⟩ := Int.eq_ofNat_of_zero_le whole
  have long_leading : IsLeading (digits ++ NumberFormat.zeros count) := by
    rcases no_zeros with none_there | head_ne
    · obtain rfl : count = 0 := by omega
      rwa [NumberFormat.zeros, List.replicate_zero, List.append_nil]
    · exact leading.append_zeros head_ne count
  rw [NumberFormat.positionalChars, if_pos whole]
  refine isNumeralOf_point negative long_leading (List.cons_ne_nil '0' [])
    (List.forall_mem_singleton.mpr (by decide)) rfl ?_
  change _ =
    ((digitsValue ((digits ++ NumberFormat.zeros count) ++ NumberFormat.zeros 1) : Nat) : Rat) *
      10 ^ (-1 : Int)
  rw [digitsValue_append_zeros, digitsValue_append_zeros, size, zpow_natCast]
  push_cast
  ring

theorem isNumeralOf_of_split (leading : IsLeading digits) (fractional : exponent < 0)
    (some_whole : 0 < exponent + digits.length) :
    IsNumeralOf (Literal.signChars negative ++ interchange.positionalChars digits exponent)
      ⟨negative, digitsValue digits, exponent⟩ := by
  obtain ⟨count, count_eq⟩ := Int.eq_ofNat_of_zero_le some_whole.le
  have whole_leading : IsLeading (digits.take count) := by
    refine ⟨?_, fun character member => leading.all_digits character (List.mem_of_mem_take member),
      .inr ?_⟩
    · apply List.ne_nil_of_length_pos
      rw [List.length_take]
      omega
    · rw [List.head?_take, if_neg (by omega)]
      exact leading.head_ne_zero.resolve_left (by omega)
  rw [NumberFormat.positionalChars, if_neg fractional.not_ge, if_pos some_whole, count_eq,
    Int.toNat_natCast]
  refine isNumeralOf_point negative whole_leading ?_
    (fun character member => leading.all_digits character (List.mem_of_mem_drop member)) rfl ?_
  · apply List.ne_nil_of_length_pos
    rw [List.length_drop]
    omega
  · have exponent_eq : -((digits.length - count : Nat) : Int) = exponent := by omega
    rw [List.take_append_drop, List.length_drop, exponent_eq]
    rfl

theorem isNumeralOf_of_small (leading : IsLeading digits) (fractional : exponent < 0)
    (no_whole : exponent + digits.length ≤ 0) :
    IsNumeralOf (Literal.signChars negative ++ interchange.positionalChars digits exponent)
      ⟨negative, digitsValue digits, exponent⟩ := by
  have zero_leading : IsLeading ['0'] :=
    ⟨List.cons_ne_nil '0' [], List.forall_mem_singleton.mpr (by decide), .inl rfl⟩
  rw [NumberFormat.positionalChars, if_neg fractional.not_ge, if_neg no_whole.not_gt]
  refine isNumeralOf_point negative zero_leading (by simp [leading.ne_nil])
    (List.forall_mem_append.mpr ⟨fun _ => isDigit_of_mem_zeros, leading.all_digits⟩) rfl ?_
  have exponent_eq :
      -(((-(exponent + digits.length)).toNat + digits.length : Nat) : Int) = exponent := by
    omega
  change _ = ((digitsValue (NumberFormat.zeros 1 ++ (NumberFormat.zeros _ ++ digits)) : Nat) :
    Rat) * 10 ^ (-(NumberFormat.zeros _ ++ digits).length : Int)
  rw [digitsValue_zeros_append, digitsValue_zeros_append, List.length_append,
    NumberFormat.zeros, List.length_replicate, exponent_eq]
  rfl

/-- The sign that the exponent of a number is written with. -/
def exponentSign (place : Int) : Sign :=
  if place < 0 then .minus else .plus

theorem writtenSign_exponentSign (place : Int) :
    Literal.writtenSign (some (exponentSign place)) =
      if place < 0 then ['-'] else interchange.exponentPlus.toList := by
  rw [exponentSign]
  split <;> rfl

theorem exponentValue_exponentSign {literal : Literal} {place : Int}
    (exponent_eq : literal.exponent =
      some (some (exponentSign place), Nat.toDigits 10 place.natAbs)) :
    literal.exponentValue = place := by
  rw [Literal.exponentValue, exponent_eq, exponentSign]
  rcases lt_or_ge place 0 with below | above
  · rw [if_pos below]
    change -(digitsValue (Nat.toDigits 10 place.natAbs) : Int) = place
    rw [digitsValue_toDigits]
    omega
  · rw [if_neg above.not_gt]
    change (digitsValue (Nat.toDigits 10 place.natAbs) : Int) = place
    rw [digitsValue_toDigits]
    omega

/-- The digits after the first one, if there are any. -/
def laterDigits : List Char → Option (List Char)
  | [] => none
  | digit :: rest => some (digit :: rest)

theorem getD_laterDigits (rest : List Char) : (laterDigits rest).getD [] = rest := by
  cases rest <;> rfl

theorem eq_of_mem_laterDigits {rest later : List Char} (member : later ∈ laterDigits rest) :
    later = rest := by
  rw [← getD_laterDigits rest, Option.mem_def.mp member, Option.getD_some]

theorem isNumeralOf_of_exponent (leading : IsLeading digits) {place : Int}
    (place_eq : place = exponent + digits.length - 1) :
    IsNumeralOf (Literal.signChars negative ++ interchange.exponentChars digits place)
      ⟨negative, digitsValue digits, exponent⟩ := by
  obtain ⟨first, rest, rfl⟩ := List.exists_cons_of_ne_nil leading.ne_nil
  have first_leading : IsLeading [first] :=
    ⟨List.cons_ne_nil first [],
      List.forall_mem_singleton.mpr (leading.all_digits first List.mem_cons_self), .inl rfl⟩
  refine ⟨⟨signOf negative, [first], laterDigits rest,
    some (some (exponentSign place), Nat.toDigits 10 place.natAbs)⟩, ?_, ?_⟩
  · rw [Literal.chars, writtenSign_signOf, Literal.writtenExponent, writtenSign_exponentSign]
    cases rest with
    | nil => rfl
    | cons second rest =>
        simp [laterDigits, Literal.writtenFraction, NumberFormat.exponentChars]
  · refine ⟨⟨first_leading.ne_nil, first_leading.all_digits, ?_, ?_, ?_⟩,
      first_leading.isNumeral negative ?_, ?_, sign_beq_minus negative, ?_⟩
    · intro later written character member
      rw [eq_of_mem_laterDigits written] at member
      exact leading.all_digits character (List.mem_cons_of_mem first member)
    · rintro _ ⟨⟩
      exact Nat.toDigits_ne_nil
    · rintro _ ⟨⟩
      exact fun _ => isDigit_of_mem_toDigits
    · cases rest <;> simp [laterDigits]
    · simp [Literal.isInteger]
    · have exponent_eq : place - rest.length = exponent := by
        rw [place_eq, List.length_cons]
        omega
      rw [size, size, Literal.value, Literal.allDigits, getD_laterDigits,
        exponentValue_exponentSign rfl, exponent_eq]
      rfl

end

/-- A decimal that is not a zero with zeros after it is written as a number of JSON. -/
theorem isNumeralOf_decimalChars {number : Decimal}
    (no_zeros : number.digits = 0 → number.exponent = 0) :
    IsNumeralOf (interchange.decimalChars number) number := by
  obtain ⟨negative, value, exponent⟩ := number
  have leading := isLeading_toDigits value
  have no_leading_zeros : exponent = 0 ∨ (Nat.toDigits 10 value).head? ≠ some '0' := by
    rcases Nat.eq_zero_or_pos value with zero | positive
    · exact .inl (no_zeros zero)
    · exact .inr (head?_toDigits_ne_zero positive)
  have chars_eq (size : List Char) :
      (if negative then '-' :: size else size) = Literal.signChars negative ++ size := by
    cases negative <;> rfl
  rw [NumberFormat.decimalChars, chars_eq]
  suffices spelled : IsNumeralOf _ ⟨negative, digitsValue (Nat.toDigits 10 value), exponent⟩ by
    rwa [digitsValue_toDigits] at spelled
  split
  · rcases le_or_gt 0 exponent with whole | fractional
    · exact isNumeralOf_of_whole negative leading whole no_leading_zeros
    · rcases lt_or_ge 0 (exponent + (Nat.toDigits 10 value).length) with some_whole | no_whole
      · exact isNumeralOf_of_split negative leading fractional some_whole
      · exact isNumeralOf_of_small negative leading fractional no_whole
  · exact isNumeralOf_of_exponent negative leading rfl

/-! ## Doubles -/

section

variable {value : Float} {parts : Binary64.Parts} {number : Decimal}

theorem nearestFinite?_of_zero (read : Binary64.Parts.ofFloat? value = some parts)
    (zero : parts.significand = 0) (negative_eq : number.negative = parts.negative)
    (digits_zero : number.digits = 0) : number.nearestFinite? = some value := by
  have canonical := (Binary64.Parts.isCanonical_of_ofBits? read).1
  have parts_eq : parts = ⟨parts.negative, 0, -1074⟩ := by
    have exponent_eq : parts.exponent = -1074 := canonical.normal.resolve_right (by omega)
    rw [← zero, ← exponent_eq]
  have unsigned_eq : nearestUnsigned number.digits number.exponent = 0 := by
    rw [nearestUnsigned, digits_zero]
    rfl
  have positive_read : Binary64.Parts.ofFloat? 0 = some ⟨false, 0, -1074⟩ := by decide +kernel
  have negative_read : Binary64.Parts.ofFloat? (-0) = some ⟨true, 0, -1074⟩ := by decide +kernel
  have nearest_eq : number.nearest = value := by
    rw [nearest, unsigned_eq, negative_eq, ← Binary64.toFloat_of_ofFloat? read, parts_eq]
    cases parts.negative with
    | true => exact (Binary64.toFloat_of_ofFloat? negative_read).symm
    | false => exact (Binary64.toFloat_of_ofFloat? positive_read).symm
  rw [nearestFinite?, nearest_eq]
  exact if_pos (Binary64.isFinite_of_ofFloat? read)

/-- The shortest decimal of a double is read as the double, with the sign of a zero. -/
theorem nearestFinite?_of_shortest (tie : Tie) (read : Binary64.Parts.ofFloat? value = some parts)
    (negative_eq : number.negative = (shortest tie parts).negative)
    (size_eq : number.size = (shortest tie parts).size) : number.nearestFinite? = some value := by
  rw [negative_shortest] at negative_eq
  by_cases zero : parts.significand = 0
  · have shortest_eq : shortest tie parts = ⟨parts.negative, 0, 0⟩ := if_pos zero
    have size_zero : number.size = 0 := by
      rw [size_eq, shortest_eq, size_eq_zero_iff]
    exact nearestFinite?_of_zero read zero negative_eq (size_eq_zero_iff.mp size_zero)
  · have attracts := attracts_shortest tie (Binary64.Parts.isCanonical_of_ofBits? read).1 zero
    rw [← size_eq] at attracts
    exact nearestFinite?_eq read zero negative_eq attracts

theorem exponent_shortest_eq_zero (tie : Tie) (read : Binary64.Parts.ofFloat? value = some parts)
    (digits_zero : (shortest tie parts).digits = 0) : (shortest tie parts).exponent = 0 := by
  by_cases zero : parts.significand = 0
  · rw [shortest, if_pos zero]
  · have canonical := (Binary64.Parts.isCanonical_of_ofBits? read).1
    have least_lt :=
      lt_value_of_attracts (attracts_shortest tie canonical zero) canonical zero
    rw [size_eq_zero_iff.mpr digits_zero] at least_lt
    exact absurd least_lt (ten_zpow_pos (-324)).not_gt

end

end Decimal

namespace Json

/-! ## Texts of numbers -/

/-- The text of a number is the token of the number. -/
structure IsNumberText (text : List Char) (number : Number) : Prop where
  /-- There is a character. -/
  ne_nil : text ≠ []
  /-- The first character starts no literal of letters. -/
  head_not_letter : ∀ character ∈ text.head?, Mode.isLetter character = false
  /-- All characters may stand inside a number. -/
  all_number : ∀ character ∈ text, Mode.isNumberChar character = true
  /-- The characters are the token of the number. -/
  token_eq : Mode.numberToken? text = some (.number (some number))

theorem isDigit_of_isLetter {character : Char} (letter : Mode.isLetter character = true) :
    Decimal.isDigit character = false := by
  simp only [Mode.isLetter, Bool.and_eq_true, decide_eq_true_eq] at letter
  rw [Decimal.isDigit, Bool.and_eq_false_iff]
  refine .inr (decide_eq_false fun digit => ?_)
  exact absurd (Char.le_trans letter.1 digit) (by decide)

/-- A literal with digits before the point does not start with a letter. -/
theorem head_not_letter_of_ofChars? {text : List Char} {literal : Decimal.Literal}
    (read : Decimal.Literal.ofChars? text = some literal) (whole_ne_nil : literal.whole ≠ []) :
    ∀ character ∈ text.head?, Mode.isLetter character = false := by
  rw [Decimal.Literal.whole_of_ofChars? read] at whole_ne_nil
  cases text with
  | nil => simp
  | cons first rest =>
      rintro _ ⟨⟩
      rw [← Bool.not_eq_true]
      intro letter
      have split_eq : Decimal.Sign.split (first :: rest) = (none, first :: rest) := by
        unfold Decimal.Sign.split
        split
        · rename_i equal
          obtain rfl := (List.cons.inj equal).1
          exact absurd letter (by decide)
        · rename_i equal
          obtain rfl := (List.cons.inj equal).1
          exact absurd letter (by decide)
        · rfl
      rw [split_eq] at whole_ne_nil
      exact whole_ne_nil (List.takeWhile_cons_of_neg (by simp [isDigit_of_isLetter letter]))

theorem isNumberText_of_literal {text : List Char} {literal : Decimal.Literal} {number : Number}
    (read : Decimal.Literal.ofChars? text = some literal) (whole_ne_nil : literal.whole ≠ [])
    (numeral : Number.isNumeral literal = true)
    (number_eq : Number.ofLiteral? literal = some number) : IsNumberText text number := by
  refine ⟨?_, head_not_letter_of_ofChars? read whole_ne_nil, Decimal.Literal.mem_ofChars? read, ?_⟩
  · exact Decimal.Literal.ne_nil_of_hasDigit read
      (Decimal.Literal.hasDigit_of_whole whole_ne_nil)
  · rw [Mode.numberToken?, read]
    dsimp only
    rw [if_pos numeral, number_eq]

/-- A finite double is written as a number that is read as the double. -/
theorem isNumberText_double {value : Float} (finite : value.isFinite = true) :
    IsNumberText (Decimal.interchange.render value).toList (.double value) := by
  obtain ⟨parts, read⟩ := Binary64.exists_parts_of_isFinite finite
  obtain ⟨literal, chars_eq, spells⟩ := Decimal.isNumeralOf_decimalChars
    (Decimal.exponent_shortest_eq_zero .toEven read)
  have text_eq : (Decimal.interchange.render value).toList = literal.chars := by
    rw [Decimal.NumberFormat.render, read, chars_eq]
    exact String.toList_ofList
  have nearest_eq := Decimal.nearestFinite?_of_shortest .toEven read spells.negative_eq
    spells.size_eq
  rw [text_eq]
  refine isNumberText_of_literal (Decimal.Literal.ofChars?_chars spells.written)
    spells.written.whole_ne_nil spells.isNumeral ?_
  rw [Number.ofLiteral?, spells.not_integer, nearest_eq]
  rfl

theorem toList_toString_int (value : Int) : (toString value).toList =
    Decimal.Literal.signChars (decide (value < 0)) ++ Nat.toDigits 10 value.natAbs := by
  cases value with
  | ofNat size => exact Nat.toList_repr
  | negSucc size =>
      have below : decide (Int.negSucc size < 0) = true := decide_eq_true (Int.negSucc_lt_zero size)
      change ("-" ++ Nat.repr (size + 1)).toList = _
      rw [String.toList_append, Nat.toList_repr, below]
      rfl

/-- A literal without point and exponent denotes an integer that fits. -/
theorem ofLiteral?_toDigits {negative : Bool} {size : Nat} {number : Number}
    (fits : Number.integer? ⟨negative, size, 0⟩ = some number) :
    Number.ofLiteral? ⟨Decimal.signOf negative, Nat.toDigits 10 size, none, none⟩ =
      some number := by
  have value_eq : Decimal.Literal.value
      ⟨Decimal.signOf negative, Nat.toDigits 10 size, none, none⟩ = ⟨negative, size, 0⟩ := by
    rw [Decimal.Literal.value, Decimal.signOf, Decimal.sign_beq_minus, Decimal.Literal.allDigits,
      Option.getD_none, List.append_nil, Decimal.digitsValue_toDigits]
    rfl
  rw [Number.ofLiteral?, value_eq, fits]
  rfl

theorem isNumberText_integer {value : Int} (least_le : -2 ^ 63 ≤ value)
    (lt_bound : value < 2 ^ 64) : IsNumberText (toString value).toList (.integer value) := by
  have leading := Decimal.isLeading_toDigits value.natAbs
  have fits : Number.integer? ⟨decide (value < 0), value.natAbs, 0⟩ = some (.integer value) := by
    rcases lt_or_ge value 0 with below | above
    · have in_range : (decide (0 < value.natAbs) && decide (value.natAbs ≤ 2 ^ 63)) = true := by
        rw [Bool.and_eq_true, decide_eq_true_eq, decide_eq_true_eq]
        omega
      have negated : -(value.natAbs : Int) = value := by omega
      rw [decide_eq_true below]
      exact (if_pos in_range).trans (by rw [negated])
    · have in_range : value.natAbs < 2 ^ 64 := by omega
      have kept : (value.natAbs : Int) = value := by omega
      rw [decide_eq_false above.not_gt]
      exact (if_pos in_range).trans (by rw [kept])
  rw [toList_toString_int]
  exact isNumberText_of_literal
    (Decimal.Literal.ofChars?_whole _ leading.ne_nil leading.all_digits) leading.ne_nil
    (leading.isNumeral _ (by simp)) (ofLiteral?_toDigits fits)

theorem Number.IsPortable.isNumberText {number : Number} (portable : number.IsPortable) :
    IsNumberText number.render.toList number := by
  cases number with
  | integer value => exact isNumberText_integer portable.1 portable.2
  | double value => exact isNumberText_double portable

end Json
end UnitAlgebra
