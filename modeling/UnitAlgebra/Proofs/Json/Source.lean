import UnitAlgebra.Json.Source
import UnitAlgebra.Proofs.Json.Token

/-!
# JSON texts are read back

The tokens of a tree bring the stack of open containers from waiting for a value to the complete
tree.  A tree whose numbers can be carried by JSON and that is not nested too deeply is therefore
read back from its text, with all entries in their order, and the library of this reader and writer
is faithful.
-/

namespace UnitAlgebra
namespace Json

/-! ## Sources of trees -/

namespace Tree

mutual

/-- The source that spells out a tree. -/
def written : Tree String Number → Source
  | .null => .null
  | .bool value => .bool value
  | .number value => .number (some value)
  | .string value => .string (some value)
  | .array items => .array (writtenItems items)
  | .object entries => .object (writtenEntries entries)

/-- The sources of the items of an array. -/
def writtenItems : List (Tree String Number) → List Source
  | [] => []
  | tree :: rest => tree.written :: writtenItems rest

/-- The sources of the entries of an object. -/
def writtenEntries : List (String × Tree String Number) → List (Option String × Source)
  | [] => []
  | (key, tree) :: rest => (some key, tree.written) :: writtenEntries rest

end

mutual

theorem sequence?_written : ∀ tree : Tree String Number, tree.written.sequence? = some tree
  | .null => rfl
  | .bool _ => rfl
  | .number _ => rfl
  | .string _ => rfl
  | .array items => by
      rw [written, sequence?, sequenceItems?_written items]
      rfl
  | .object entries => by
      rw [written, sequence?, sequenceEntries?_written entries]
      rfl

theorem sequenceItems?_written : ∀ items : List (Tree String Number),
    sequenceItems? (writtenItems items) = some items
  | [] => rfl
  | tree :: rest => by
      rw [writtenItems, sequenceItems?, sequence?_written tree, sequenceItems?_written rest]
      rfl

theorem sequenceEntries?_written : ∀ entries : List (String × Tree String Number),
    sequenceEntries? (writtenEntries entries) = some entries
  | [] => rfl
  | (key, tree) :: rest => by
      rw [writtenEntries, sequenceEntries?, sequence?_written tree, sequenceEntries?_written rest]
      rfl

end

mutual

theorem depth_written : ∀ tree : Tree String Number, tree.written.depth = tree.depth
  | .null => rfl
  | .bool _ => rfl
  | .number _ => rfl
  | .string _ => rfl
  | .array items => by
      rw [written, depth, depth, depthItems_written items]
  | .object entries => by
      rw [written, depth, depth, depthEntries_written entries]

theorem depthItems_written : ∀ items : List (Tree String Number),
    depthItems (writtenItems items) = depthItems items
  | [] => rfl
  | tree :: rest => by
      rw [writtenItems, depthItems, depthItems, depth_written tree, depthItems_written rest]

theorem depthEntries_written : ∀ entries : List (String × Tree String Number),
    depthEntries (writtenEntries entries) = depthEntries entries
  | [] => rfl
  | (key, tree) :: rest => by
      rw [writtenEntries, depthEntries, depthEntries, depth_written tree,
        depthEntries_written rest]

end

end Tree

/-! ## Runs of the stack -/

namespace State

variable {state next : State} {token : Token} {rest : List Token}

theorem run?_cons (step : state.step? token = some next) :
    state.run? (token :: rest) = next.run? rest := by
  rw [run?, step]
  rfl

/-- A value may come first in an array. -/
theorem run?_openArray (stack : List Frame) (tree : Tree String Number) :
    (openArray stack).run? (tree.tokens ++ rest) =
      (expectValue (.array [] :: stack)).run? (tree.tokens ++ rest) := by
  cases tree with
  | array items => cases items <;> rfl
  | object entries => cases entries <;> rfl
  | _ => rfl

mutual

/-- The tokens of a tree complete the tree where a value has to come. -/
theorem run?_tokens : ∀ (tree : Tree String Number) (stack : List Frame) (rest : List Token),
    (expectValue stack).run? (tree.tokens ++ rest) = (complete stack tree.written).run? rest
  | .null, _, _ => rfl
  | .bool _, _, _ => rfl
  | .number _, _, _ => rfl
  | .string _, _, _ => rfl
  | .array [], _, _ => rfl
  | .array (first :: later), stack, rest => by
      calc (expectValue stack).run? ((Tree.array (first :: later)).tokens ++ rest)
          = (openArray stack).run? (first.tokens ++ (Tree.laterItems later ++ rest)) := by
            rw [← List.append_assoc]
            rfl
        _ = (expectValue (.array [] :: stack)).run?
            (first.tokens ++ (Tree.laterItems later ++ rest)) := run?_openArray stack first
        _ = (complete (.array [] :: stack) first.written).run? (Tree.laterItems later ++ rest) :=
            run?_tokens first _ _
        _ = (complete stack (.array (first.written :: Tree.writtenItems later))).run? rest :=
            run?_laterItems later [] first.written stack rest
  | .object [], _, _ => rfl
  | .object ((key, first) :: later), stack, rest => by
      calc (expectValue stack).run? ((Tree.object ((key, first) :: later)).tokens ++ rest)
          = (expectValue (.field [] (some key) :: stack)).run?
            (first.tokens ++ (Tree.laterEntries later ++ rest)) := by
            rw [← List.append_assoc]
            rfl
        _ = (complete (.field [] (some key) :: stack) first.written).run?
            (Tree.laterEntries later ++ rest) := run?_tokens first _ _
        _ = (complete stack
            (.object ((some key, first.written) :: Tree.writtenEntries later))).run? rest :=
            run?_laterEntries later [] (some key) first.written stack rest

/-- The tokens of later items complete the array after the items before them. -/
theorem run?_laterItems : ∀ (items : List (Tree String Number)) (before : List Source)
    (last : Source) (stack : List Frame) (rest : List Token),
    (complete (.array before :: stack) last).run? (Tree.laterItems items ++ rest) =
      (complete stack (.array (before.reverse ++ last :: Tree.writtenItems items))).run? rest
  | [], before, last, stack, rest => by
      rw [Tree.writtenItems, ← List.reverse_cons]
      rfl
  | tree :: later, before, last, stack, rest => by
      calc (complete (.array before :: stack) last).run? (Tree.laterItems (tree :: later) ++ rest)
          = (expectValue (.array (last :: before) :: stack)).run?
            (tree.tokens ++ (Tree.laterItems later ++ rest)) := by
            rw [← List.append_assoc]
            rfl
        _ = (complete (.array (last :: before) :: stack) tree.written).run?
            (Tree.laterItems later ++ rest) := run?_tokens tree _ _
        _ = (complete stack (.array ((last :: before).reverse ++
            tree.written :: Tree.writtenItems later))).run? rest :=
            run?_laterItems later (last :: before) tree.written stack rest
        _ = _ := by
            rw [List.reverse_cons, List.append_assoc]
            rfl

theorem run?_laterEntries : ∀ (entries : List (String × Tree String Number))
    (before : List (Option String × Source)) (key : Option String) (last : Source)
    (stack : List Frame) (rest : List Token),
    (complete (.field before key :: stack) last).run? (Tree.laterEntries entries ++ rest) =
      (complete stack
        (.object (before.reverse ++ (key, last) :: Tree.writtenEntries entries))).run? rest
  | [], before, key, last, stack, rest => by
      rw [Tree.writtenEntries, ← List.reverse_cons]
      rfl
  | (name, tree) :: later, before, key, last, stack, rest => by
      calc (complete (.field before key :: stack) last).run?
            (Tree.laterEntries ((name, tree) :: later) ++ rest)
          = (expectValue (.field ((key, last) :: before) (some name) :: stack)).run?
            (tree.tokens ++ (Tree.laterEntries later ++ rest)) := by
            rw [← List.append_assoc]
            rfl
        _ = (complete (.field ((key, last) :: before) (some name) :: stack) tree.written).run?
            (Tree.laterEntries later ++ rest) := run?_tokens tree _ _
        _ = (complete stack (.object (((key, last) :: before).reverse ++
            (some name, tree.written) :: Tree.writtenEntries later))).run? rest :=
            run?_laterEntries later ((key, last) :: before) (some name) tree.written stack rest
        _ = _ := by
            rw [List.reverse_cons, List.append_assoc]
            rfl

end

end State

/-- A tree is read back from its text, with all entries in their order. -/
theorem ofText?_render {tree : Json} (portable : tree.IsPortable)
    (shallow : tree.depth ≤ Source.maximumDepth) : ofText? tree.render = some tree := by
  have read : Source.ofText? tree.render = some tree.written := by
    have run_eq := State.run?_tokens tree [] []
    rw [List.append_nil] at run_eq
    rw [Source.ofText?, tokens?_render portable]
    exact run_eq
  rw [ofText?, read]
  change (if tree.written.depth ≤ Source.maximumDepth then tree.written.sequence? else none) = _
  rw [Tree.depth_written, if_pos shallow, Tree.sequence?_written]

/-! ## Distinct keys -/

section

variable {Value : Type}

theorem putEntry_of_not_mem {key : String} {entries : List (String × Value)}
    (fresh : key ∉ entries.map Prod.fst) (new : Value) :
    putEntry key new entries = entries ++ [(key, new)] := by
  induction entries with
  | nil => rfl
  | cons entry entries induction =>
      rw [List.map_cons, List.mem_cons, not_or] at fresh
      have other : ¬(entry.1 == key) = true := by simpa using Ne.symm fresh.1
      rw [putEntry, if_neg other, induction fresh.2]
      rfl

theorem lastValues_eq_self {entries : List (String × Value)}
    (distinct : (entries.map Prod.fst).Nodup) : lastValues entries = entries := by
  induction entries using List.reverseRecOn with
  | nil => rfl
  | append_singleton front entry induction =>
      rw [List.map_append, List.map_singleton, List.nodup_append] at distinct
      obtain ⟨front_distinct, -, disjoint⟩ := distinct
      have fresh : entry.1 ∉ front.map Prod.fst := fun member =>
        disjoint _ member _ (List.mem_singleton_self _) rfl
      rw [lastValues, List.foldl_append]
      change putEntry entry.1 entry.2 (lastValues front) = _
      rw [induction front_distinct, putEntry_of_not_mem fresh]

end

namespace Tree

mutual

theorem lastWins_eq_self : ∀ {tree : Tree String Number}, tree.HasDistinctKeys →
    tree.lastWins = tree
  | .null, _ => rfl
  | .bool _, _ => rfl
  | .number _, _ => rfl
  | .string _, _ => rfl
  | .array items, distinct => by
      rw [lastWins, lastWinsItems_eq_self distinct]
  | .object entries, ⟨distinct, inside⟩ => by
      rw [lastWins, lastWinsEntries_eq_self inside, lastValues_eq_self distinct]

theorem lastWinsItems_eq_self : ∀ {items : List (Tree String Number)}, HaveDistinctKeys items →
    lastWinsItems items = items
  | [], _ => rfl
  | _ :: _, ⟨first, later⟩ => by
      rw [lastWinsItems, lastWins_eq_self first, lastWinsItems_eq_self later]

theorem lastWinsEntries_eq_self : ∀ {entries : List (String × Tree String Number)},
    HaveDistinctKeysInside entries → lastWinsEntries entries = entries
  | [], _ => rfl
  | (_, _) :: _, ⟨first, later⟩ => by
      rw [lastWinsEntries, lastWins_eq_self first, lastWinsEntries_eq_self later]

end

end Tree

theorem library_isFaithful : library.IsFaithful := by
  intro json plain
  change (ofText? json.render).map Tree.lastWins = some json
  rw [ofText?_render plain.portable plain.depth_le]
  exact congrArg some (Tree.lastWins_eq_self plain.distinct)

end Json
end UnitAlgebra
