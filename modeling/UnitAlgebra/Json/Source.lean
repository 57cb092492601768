import UnitAlgebra.Json.Token

/-!
# JSON sources

Tokens are put together by a stack of open containers.  The result is the tree that the text
spells out; it denotes a value if all of its literals do and if it is not nested too deeply.
-/

namespace UnitAlgebra
namespace Json

/-- A JSON tree as it is written: literals may denote no value. -/
abbrev Source :=
  Tree (Option String) (Option Number)

/-- A container that is still open, with the parts before the one that is being read, in reverse. -/
inductive Frame where
  /-- An array. -/
  | array (before : List Source)
  /-- An object and the key whose value is being read. -/
  | field (before : List (Option String × Source)) (key : Option String)

/-- What has been read and what may come next. -/
inductive State where
  /-- A value has to come. -/
  | expectValue (stack : List Frame)
  /-- An array has just been opened. -/
  | openArray (stack : List Frame)
  /-- An object has just been opened. -/
  | openObject (stack : List Frame)
  /-- A key has to come. -/
  | expectKey (stack : List Frame) (before : List (Option String × Source))
  /-- A colon has to come after a key. -/
  | expectColon (stack : List Frame) (before : List (Option String × Source)) (name : Option String)
  /-- A value is complete. -/
  | complete (stack : List Frame) (tree : Source)

namespace State

/-- Read a token that has to start a value. -/
def start? (stack : List Frame) : Token → Option State
  | .null => some (.complete stack .null)
  | .bool value => some (.complete stack (.bool value))
  | .number value => some (.complete stack (.number value))
  | .string value => some (.complete stack (.string value))
  | .openArray => some (.openArray stack)
  | .openObject => some (.openObject stack)
  | _ => none

/-- Read a token after a complete value. -/
def continue? (stack : List Frame) (tree : Source) (token : Token) : Option State :=
  match stack, token with
  | .array before :: outer, .comma => some (.expectValue (.array (tree :: before) :: outer))
  | .array before :: outer, .closeArray =>
      some (.complete outer (.array (tree :: before).reverse))
  | .field before key :: outer, .comma => some (.expectKey outer ((key, tree) :: before))
  | .field before key :: outer, .closeObject =>
      some (.complete outer (.object ((key, tree) :: before).reverse))
  | _, _ => none

/-- Read the next token. -/
def step? (state : State) (token : Token) : Option State :=
  match state, token with
  | .expectValue stack, token => start? stack token
  | .openArray stack, .closeArray => some (.complete stack (.array []))
  | .openArray stack, token => start? (.array [] :: stack) token
  | .openObject stack, .closeObject => some (.complete stack (.object []))
  | .openObject stack, .string name => some (.expectColon stack [] name)
  | .expectKey stack before, .string name => some (.expectColon stack before name)
  | .expectColon stack before name, .colon => some (.expectValue (.field before name :: stack))
  | .complete stack tree, token => continue? stack tree token
  | _, _ => none

/-- The tree that has been read, if no container is open. -/
def tree? : State → Option Source
  | .complete [] tree => some tree
  | _ => none

/-- Read all tokens of a text. -/
def run? (state : State) : List Token → Option Source
  | [] => state.tree?
  | token :: rest => do
      let next ← state.step? token
      next.run? rest

end State

namespace Source

/-- The tree that a text spells out, or nothing if the text is no JSON. -/
def ofText? (text : String) : Option Source := do
  let tokens ← tokens? text
  State.expectValue [] |>.run? tokens

/-- The greatest number of containers that may be open at once where a value is denoted. -/
def maximumDepth : Nat := 127

/-- The value that a source denotes. -/
def value? (source : Source) : Option Json :=
  if source.depth ≤ maximumDepth then source.sequence? else none

end Source

/-- The value that a text denotes, with repeated keys as they are written. -/
def ofText? (text : String) : Option Json := do
  let source ← Source.ofText? text
  source.value?

end Json
end UnitAlgebra
