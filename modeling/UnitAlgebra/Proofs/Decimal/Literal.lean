import Mathlib.Data.List.TakeWhile
import UnitAlgebra.Proofs.Expression.Word
import UnitAlgebra.Scalar

/-!
# Literals are words

A number literal consists of digits, signs, points and exponent marks.  None of these is blank or a
mark of expressions, so a literal is always a single word.
-/

namespace UnitAlgebra
namespace Decimal

/-- Whether a character can stand in a number literal. -/
def isLiteralCharacter (character : Char) : Bool :=
  isDigit character || ['+', '-', '.', 'e', 'E'].contains character

theorem isLiteralCharacter_of_isDigit {character : Char} (digit : isDigit character = true) :
    isLiteralCharacter character = true := by
  simp [isLiteralCharacter, digit]

theorem Sign.split_mem {text : List Char} {character : Char} (member : character ∈ text) :
    isLiteralCharacter character = true ∨ character ∈ (Sign.split text).2 := by
  unfold Sign.split
  split
  · exact (List.mem_cons.mp member).imp_left fun equal => by rw [equal]; decide
  · exact (List.mem_cons.mp member).imp_left fun equal => by rw [equal]; decide
  · exact .inr member

namespace Literal

theorem mem_exponentOfChars? {text : List Char} {exponent : Option Sign × List Char}
    (read : exponentOfChars? text = some exponent) :
    ∀ character ∈ text, isLiteralCharacter character = true := by
  cases text with
  | nil => simp
  | cons mark text =>
      simp only [exponentOfChars?] at read
      split at read
      · rename_i accepted
        simp only [Bool.and_eq_true, Bool.or_eq_true, beq_iff_eq, List.all_eq_true] at accepted
        obtain ⟨⟨mark_eq, -⟩, digits⟩ := accepted
        intro character member
        rcases List.mem_cons.mp member with rfl | member
        · rcases mark_eq with rfl | rfl <;> decide
        · rcases Sign.split_mem member with literal | digit
          · exact literal
          · exact isLiteralCharacter_of_isDigit (digits character digit)
      · cases read

theorem mem_splitFraction {text : List Char} {character : Char} (member : character ∈ text) :
    isLiteralCharacter character = true ∨ character ∈ (splitFraction text).2 := by
  unfold splitFraction
  split
  · rename_i rest
    rcases List.mem_cons.mp member with rfl | member
    · exact .inl (by decide)
    · rw [← List.takeWhile_append_dropWhile (p := isDigit) (l := rest)] at member
      rcases List.mem_append.mp member with digit | other
      · exact .inl (isLiteralCharacter_of_isDigit (List.mem_takeWhile_imp digit))
      · exact .inr other
  · exact .inr member

theorem mem_ofChars? {text : List Char} {literal : Literal} (read : ofChars? text = some literal) :
    ∀ character ∈ text, isLiteralCharacter character = true := by
  intro character member
  rcases Sign.split_mem member with is_literal | member
  · exact is_literal
  · rw [← List.takeWhile_append_dropWhile (p := isDigit) (l := (Sign.split text).2)] at member
    rcases List.mem_append.mp member with digit | member
    · exact isLiteralCharacter_of_isDigit (List.mem_takeWhile_imp digit)
    · rcases mem_splitFraction member with is_literal | member
      · exact is_literal
      · simp only [ofChars?] at read
        split at read
        · rename_i empty
          rw [List.isEmpty_iff.mp empty] at member
          cases member
        · obtain ⟨exponent, exponent_eq, -⟩ := Option.map_eq_some_iff.mp read
          exact mem_exponentOfChars? exponent_eq character member

theorem ne_nil_of_hasDigit {text : List Char} {literal : Literal}
    (read : ofChars? text = some literal) (digit : literal.hasDigit = true) : text ≠ [] := by
  rintro rfl
  obtain rfl := Option.some.inj read
  cases digit

end Literal
end Decimal

namespace Expression

theorem isBreak_of_isDigit {character : Char} (digit : Decimal.isDigit character = true) :
    isBreak character = false := by
  have no_mark : mark? character = none := by
    unfold mark?
    split
    case h_5 => rfl
    all_goals exact absurd digit (by decide)
  have bounds : 48 ≤ character.toNat ∧ character.toNat ≤ 57 := by
    simpa [Decimal.isDigit, Char.le_def, UInt32.le_iff_toNat_le] using digit
  simp [isBreak, no_mark, Text.isBlank, Text.blankRanges]
  omega

theorem isBreak_of_isLiteralCharacter {character : Char}
    (literal : Decimal.isLiteralCharacter character = true) : isBreak character = false := by
  simp only [Decimal.isLiteralCharacter, Bool.or_eq_true] at literal
  rcases literal with digit | other
  · exact isBreak_of_isDigit digit
  · simp only [List.contains_iff_mem, List.mem_cons, List.not_mem_nil, or_false] at other
    rcases other with rfl | rfl | rfl | rfl | rfl <;> decide

theorem isWord_of_ofWord? {K : Type} [Scalar K] {text : List Char} {number : K}
    (read : Scalar.ofWord? K text = some number) : IsWord text := by
  obtain ⟨literal, literal_eq, rest⟩ := Option.bind_eq_some_iff.mp read
  split at rest
  · rename_i digit
    exact
      { nonempty := Decimal.Literal.ne_nil_of_hasDigit literal_eq digit
        no_break := fun character member =>
          isBreak_of_isLiteralCharacter (Decimal.Literal.mem_ofChars? literal_eq character member) }
  · cases rest

end Expression
end UnitAlgebra
