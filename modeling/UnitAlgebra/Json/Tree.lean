import UnitAlgebra.Decimal.Nearest

/-!
# JSON trees

A tree is JSON over any types of strings and numbers.  `Json` is the tree of values; a source text
is first read into a tree whose literals may fail to denote a value.  Objects keep their entries in
the order in which they are written, repeated keys included.
-/

namespace UnitAlgebra
namespace Json

/-- A JSON tree over given types of strings and numbers. -/
inductive Tree (text number : Type) where
  /-- The literal `null`. -/
  | null
  /-- One of the literals `true` and `false`. -/
  | bool (value : Bool)
  /-- A number. -/
  | number (value : number)
  /-- A string. -/
  | string (value : text)
  /-- A list of trees. -/
  | array (items : List (Tree text number))
  /-- A list of keys with their trees. -/
  | object (entries : List (text × Tree text number))

/-- A JSON number: an integer that fits into 64 bits, or a double. -/
inductive Number where
  /-- An integer from `-2 ^ 63` up to `2 ^ 64 - 1`. -/
  | integer (value : Int)
  /-- A double. -/
  | double (value : Float)

namespace Number

/-- The double nearest to a number. -/
def toFloat : Number → Float
  | .integer value => Binary64.ofInt value
  | .double value => value

end Number

namespace Tree

mutual

/-- Number of containers that are open at once at the deepest place. -/
def depth {text number : Type} : Tree text number → Nat
  | .array items => depthItems items + 1
  | .object entries => depthEntries entries + 1
  | _ => 0

/-- Greatest depth among the items of an array. -/
def depthItems {text number : Type} : List (Tree text number) → Nat
  | [] => 0
  | tree :: rest => max tree.depth (depthItems rest)

/-- Greatest depth among the entries of an object. -/
def depthEntries {text number : Type} : List (text × Tree text number) → Nat
  | [] => 0
  | (_, tree) :: rest => max tree.depth (depthEntries rest)

end

mutual

/-- The tree of the denoted values, if every string and every number denotes one. -/
def sequence? {text number : Type} :
    Tree (Option text) (Option number) → Option (Tree text number)
  | .null => some .null
  | .bool value => some (.bool value)
  | .number value => value.map .number
  | .string value => value.map .string
  | .array items => (sequenceItems? items).map .array
  | .object entries => (sequenceEntries? entries).map .object

/-- The items of an array, if each of them denotes a value. -/
def sequenceItems? {text number : Type} :
    List (Tree (Option text) (Option number)) → Option (List (Tree text number))
  | [] => some []
  | tree :: rest => do
      let value ← tree.sequence?
      let values ← sequenceItems? rest
      return value :: values

/-- The entries of an object, if each key and each tree denotes a value. -/
def sequenceEntries? {text number : Type} :
    List (Option text × Tree (Option text) (Option number)) →
      Option (List (text × Tree text number))
  | [] => some []
  | (key, tree) :: rest => do
      let name ← key
      let value ← tree.sequence?
      let values ← sequenceEntries? rest
      return (name, value) :: values

end

end Tree

/-- Put a value under a key: over the value that the key has, else as the last entry. -/
def putEntry {text value : Type} [BEq text] (key : text) (new : value) :
    List (text × value) → List (text × value)
  | [] => [(key, new)]
  | (name, old) :: rest =>
      if name == key then (name, new) :: rest else (name, old) :: putEntry key new rest

/-- Entries with each key once, at the place of its first entry and with the value of its last. -/
def lastValues {text value : Type} [BEq text] (entries : List (text × value)) :
    List (text × value) :=
  entries.foldl (fun merged (key, value) => putEntry key value merged) []

namespace Tree

mutual

/-- The tree in which a repeated key of an object has the value that was written last. -/
def lastWins {text number : Type} [BEq text] : Tree text number → Tree text number
  | .array items => .array (lastWinsItems items)
  | .object entries => .object (lastValues (lastWinsEntries entries))
  | tree => tree

/-- The items of an array with repeated keys settled inside of them. -/
def lastWinsItems {text number : Type} [BEq text] :
    List (Tree text number) → List (Tree text number)
  | [] => []
  | tree :: rest => tree.lastWins :: lastWinsItems rest

/-- The entries of an object with repeated keys settled inside of their trees. -/
def lastWinsEntries {text number : Type} [BEq text] :
    List (text × Tree text number) → List (text × Tree text number)
  | [] => []
  | (key, tree) :: rest => (key, tree.lastWins) :: lastWinsEntries rest

end

end Tree
end Json

/-- A JSON value. -/
abbrev Json :=
  Json.Tree String Json.Number

end UnitAlgebra
