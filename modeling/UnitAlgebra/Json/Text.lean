import UnitAlgebra.Decimal.Format
import UnitAlgebra.Json.Source

/-!
# JSON text

The text of a JSON value: no blanks, entries in their order, and only the escapes that a JSON
string needs.

A JSON library reads and writes texts.  What is read from and written to JSON is defined over any
library; the one of this module is the one that programs run with.
-/

namespace UnitAlgebra
namespace Json

/-- The four hexadecimal digits of a code point below `0x100`. -/
def hexQuad (code : Nat) : List Char :=
  ['0', '0', Nat.digitChar (code / 16), Nat.digitChar (code % 16)]

/-- One character as it stands in a JSON string. -/
def stringChar (character : Char) : List Char :=
  match character with
  | '"' => ['\\', '"']
  | '\\' => ['\\', '\\']
  | '\x08' => ['\\', 'b']
  | '\x0c' => ['\\', 'f']
  | '\n' => ['\\', 'n']
  | '\r' => ['\\', 'r']
  | '\t' => ['\\', 't']
  | character =>
      if character.toNat < 0x20 then '\\' :: 'u' :: hexQuad character.toNat else [character]

/-- A text as a JSON string. -/
def stringText (text : String) : String :=
  String.ofList ('"' :: text.toList.flatMap stringChar ++ ['"'])

/-- The text of a number; a double that is not finite is written as `null`. -/
def Number.render : Number → String
  | .integer value => toString value
  | .double value => Decimal.interchange.render value

mutual

/-- The text of a JSON value. -/
def Tree.render : Tree String Number → String
  | .null => "null"
  | .bool true => "true"
  | .bool false => "false"
  | .number value => value.render
  | .string value => stringText value
  | .array items => "[" ++ ",".intercalate (renderItems items) ++ "]"
  | .object entries => "\x7b" ++ ",".intercalate (renderEntries entries) ++ "\x7d"

/-- The texts of the items of an array. -/
def renderItems : List (Tree String Number) → List String
  | [] => []
  | tree :: rest => tree.render :: renderItems rest

/-- The texts of the entries of an object. -/
def renderEntries : List (String × Tree String Number) → List String
  | [] => []
  | (key, tree) :: rest => (stringText key ++ ":" ++ tree.render) :: renderEntries rest

end

/-- A library that reads and writes JSON texts. -/
structure Library where
  /-- The value of a text, with each key of an object once, or nothing if the text is no JSON. -/
  read? : String → Option Json
  /-- The text of a value. -/
  write : Json → String

/--
The library of this module: of a repeated key the last value holds, and a number is read as the
nearest double if it is no integer of 64 bits.
-/
def library : Library where
  read? text := (ofText? text).map Tree.lastWins
  write := Tree.render

end Json
end UnitAlgebra
