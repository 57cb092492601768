import UnitAlgebra.Json.Tree

/-!
# JSON tokens

A source text is split into tokens by an automaton that reads one character at a time.  A string
with an unpaired surrogate escape and a number beyond the range of doubles are tokens too, but
denote no value.
-/

namespace UnitAlgebra
namespace Json

/-- A token of JSON text. -/
inductive Token where
  /-- The mark `[`. -/
  | openArray
  /-- The mark `]`. -/
  | closeArray
  /-- The mark that opens an object. -/
  | openObject
  /-- The mark that closes an object. -/
  | closeObject
  /-- The mark `,`. -/
  | comma
  /-- The mark `:`. -/
  | colon
  /-- The literal `null`. -/
  | null
  /-- One of the literals `true` and `false`. -/
  | bool (value : Bool)
  /-- A number and what it denotes. -/
  | number (value : Option Number)
  /-- A string and what it denotes. -/
  | string (value : Option String)

/-! ## Numbers -/

namespace Number

/-- Whether a literal is a JSON number: no plus sign, no needless zero, digits around the point. -/
def isNumeral (literal : Decimal.Literal) : Bool :=
  literal.sign != some .plus
    && !literal.whole.isEmpty
    && (literal.whole.length == 1 || literal.whole.head? != some '0')
    && literal.fraction != some []

/-- The number of an integer literal that fits into 64 bits; minus zero does not. -/
def integer? (value : Decimal) : Option Number :=
  if value.negative then
    if 0 < value.digits && value.digits ≤ Nat.pow 2 63 then
      some (.integer (-value.digits))
    else
      none
  else
    if value.digits < Nat.pow 2 64 then some (.integer value.digits) else none

/-- The number that a literal denotes, or nothing beyond the range of doubles. -/
def ofLiteral? (literal : Decimal.Literal) : Option Number :=
  let nearest := literal.value.nearestFinite?.map .double
  if literal.isInteger then (integer? literal.value).or nearest else nearest

end Number

/-! ## Strings -/

/-- A unit of a string: a character, or half of a character that was escaped in two parts. -/
inductive StringUnit where
  /-- A whole character. -/
  | whole (character : Char)
  /-- The first half of a character beyond the first plane. -/
  | high (code : Nat)
  /-- The second half of such a character. -/
  | low (code : Nat)
  deriving DecidableEq

namespace StringUnit

/-- The unit of a four-digit escape. -/
def ofCode (code : Nat) : StringUnit :=
  if 0xd800 ≤ code && code < 0xdc00 then .high code
  else if 0xdc00 ≤ code && code < 0xe000 then .low code
  else .whole (Char.ofNat code)

/-- The characters that units denote, if every half has its counterpart beside it. -/
def decode? : List StringUnit → Option (List Char)
  | [] => some []
  | .whole character :: rest => (decode? rest).map (character :: ·)
  | .high first :: .low second :: rest =>
      let code := 0x10000 + (first - 0xd800) * 0x400 + (second - 0xdc00)
      (decode? rest).map (Char.ofNat code :: ·)
  | _ => none

end StringUnit

/-- Value of a hexadecimal digit of either case. -/
def hexValue? (character : Char) : Option Nat :=
  if Decimal.isDigit character then some (character.toNat - '0'.toNat)
  else if 'a' ≤ character && character ≤ 'f' then some (character.toNat - 'a'.toNat + 10)
  else if 'A' ≤ character && character ≤ 'F' then some (character.toNat - 'A'.toNat + 10)
  else none

/-- The character of an escape of one letter. -/
def shortEscape? : Char → Option Char
  | '"' => some '"'
  | '\\' => some '\\'
  | '/' => some '/'
  | 'b' => some '\x08'
  | 'f' => some '\x0c'
  | 'n' => some '\n'
  | 'r' => some '\r'
  | 't' => some '\t'
  | _ => none

/-! ## The automaton -/

/-- How much of an escape inside a string has been read. -/
inductive Escape where
  /-- No escape is open. -/
  | none
  /-- A backslash has been read. -/
  | started
  /-- Some of the four digits of a code have been read. -/
  | code (remaining value : Nat)

/-- What the characters before the next one belong to; pieces are kept in reverse. -/
inductive Mode where
  /-- No token is open. -/
  | between
  /-- A literal of letters is open. -/
  | word (letters : List Char)
  /-- A number is open. -/
  | number (characters : List Char)
  /-- A string is open. -/
  | string (units : List StringUnit) (escape : Escape)

namespace Mode

/-- The token of a literal of letters. -/
def wordToken? (letters : List Char) : Option Token :=
  if letters = "null".toList then some .null
  else if letters = "true".toList then some (.bool true)
  else if letters = "false".toList then some (.bool false)
  else none

/-- The token of a number, if its characters are one. -/
def numberToken? (characters : List Char) : Option Token :=
  match Decimal.Literal.ofChars? characters with
  | some literal =>
      if Number.isNumeral literal then some (.number (Number.ofLiteral? literal)) else none
  | none => none

/-- Whether a character is blank between JSON tokens. -/
def isGap (character : Char) : Bool :=
  character == ' ' || character == '\t' || character == '\n' || character == '\r'

/-- Whether a character may stand inside a number. -/
def isNumberChar (character : Char) : Bool :=
  Decimal.isDigit character || "+-.eE".toList.contains character

/-- Whether a character may stand inside a literal of letters. -/
def isLetter (character : Char) : Bool :=
  'a' ≤ character && character ≤ 'z'

/-- Read a character while no token is open. -/
def start? (character : Char) : Option (List Token × Mode) :=
  match character with
  | '[' => some ([.openArray], .between)
  | ']' => some ([.closeArray], .between)
  | '{' => some ([.openObject], .between)
  | '}' => some ([.closeObject], .between)
  | ',' => some ([.comma], .between)
  | ':' => some ([.colon], .between)
  | '"' => some ([], .string [] .none)
  | character =>
      if isGap character then some ([], .between)
      else if isLetter character then some ([], .word [character])
      else if isNumberChar character then some ([], .number [character])
      else none

/-- Read a character of a string. -/
def stringStep? (units : List StringUnit) (escape : Escape) (character : Char) :
    Option (List Token × Mode) :=
  match escape with
  | .none =>
      if character = '"' then
        some ([.string ((StringUnit.decode? units.reverse).map String.ofList)], .between)
      else if character = '\\' then
        some ([], .string units .started)
      else if character.toNat < 0x20 then
        none
      else
        some ([], .string (.whole character :: units) .none)
  | .started =>
      if character = 'u' then
        some ([], .string units (.code 4 0))
      else
        (shortEscape? character).map fun meant => ([], .string (.whole meant :: units) .none)
  | .code remaining value =>
      (hexValue? character).map fun digit =>
        let code := 16 * value + digit
        if remaining ≤ 1 then
          ([], .string (StringUnit.ofCode code :: units) .none)
        else
          ([], .string units (.code (remaining - 1) code))

/-- Read the next character: the tokens that it completes and the mode after it. -/
def step? (mode : Mode) (character : Char) : Option (List Token × Mode) :=
  match mode with
  | .between => start? character
  | .word letters =>
      if isLetter character then
        some ([], .word (character :: letters))
      else do
        let token ← wordToken? letters.reverse
        let (tokens, next) ← start? character
        return (token :: tokens, next)
  | .number characters =>
      if isNumberChar character then
        some ([], .number (character :: characters))
      else do
        let token ← numberToken? characters.reverse
        let (tokens, next) ← start? character
        return (token :: tokens, next)
  | .string units escape => stringStep? units escape character

/-- The tokens that the end of the text completes. -/
def finish? : Mode → Option (List Token)
  | .between => some []
  | .word letters => (wordToken? letters.reverse).map fun token => [token]
  | .number characters => (numberToken? characters.reverse).map fun token => [token]
  | .string _ _ => none

/-- The tokens of the characters that follow in a mode. -/
def run? (mode : Mode) : List Char → Option (List Token)
  | [] => mode.finish?
  | character :: rest => do
      let (tokens, next) ← mode.step? character
      let later ← next.run? rest
      return tokens ++ later

end Mode

/-- The tokens of a JSON text, or nothing if some character belongs to no token. -/
def tokens? (text : String) : Option (List Token) :=
  Mode.between.run? text.toList

end Json
end UnitAlgebra
