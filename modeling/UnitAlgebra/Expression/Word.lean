import UnitAlgebra.Operation

/-!
# Words of an expression

An expression is split into words: every operator and parenthesis is a word of its own, and every
other word is a longest run of characters that are neither blank nor one of these marks.  Blank are
the characters with the Unicode property White_Space.
-/

namespace UnitAlgebra

namespace Text

/-- Inclusive ranges of the blank code points, in increasing order. -/
def blankRanges : List (Nat × Nat) :=
  [(0x09, 0x0d), (0x20, 0x20), (0x85, 0x85), (0xa0, 0xa0), (0x1680, 0x1680), (0x2000, 0x200a),
   (0x2028, 0x2029), (0x202f, 0x202f), (0x205f, 0x205f), (0x3000, 0x3000)]

/-- Whether a character is blank. -/
def isBlank (character : Char) : Bool :=
  blankRanges.any fun (first, last) => first ≤ character.toNat && character.toNat ≤ last

end Text

namespace Expression

/-- A character that is always a word of its own. -/
inductive Mark where
  /-- One of the operators. -/
  | operator (operator : Operator)
  /-- The opening parenthesis. -/
  | opening
  /-- The closing parenthesis. -/
  | closing
  deriving DecidableEq, Repr

/-- The mark that a character is, if it is one. -/
def mark? : Char → Option Mark
  | '*' => some (.operator .times)
  | '/' => some (.operator .over)
  | '(' => some .opening
  | ')' => some .closing
  | _ => none

/-- A word of an expression. -/
inductive Word where
  /-- A mark. -/
  | mark (mark : Mark)
  /-- A name or a number. -/
  | plain (text : List Char)
  deriving DecidableEq, Repr

/-- The word of the characters read since the last mark or blank, if there are any. -/
def closeRun : List Char → List Word
  | [] => []
  | first :: rest => [.plain (first :: rest).reverse]

/-- The words of a text that follows some characters of a word, which are given in reverse. -/
def wordsAfter (run : List Char) : List Char → List Word
  | [] => closeRun run
  | character :: rest =>
      match mark? character with
      | some mark => closeRun run ++ .mark mark :: wordsAfter [] rest
      | none =>
          if Text.isBlank character then
            closeRun run ++ wordsAfter [] rest
          else
            wordsAfter (character :: run) rest

/-- The words of a text. -/
def words (text : String) : List Word :=
  wordsAfter [] text.toList

end Expression
end UnitAlgebra
