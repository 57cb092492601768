import Mathlib.Data.List.Nodup
import UnitAlgebra.Json.Text

/-!
# Faithful JSON libraries

A JSON library is faithful if it reads back what it writes: the entries of objects keep their order,
and strings and numbers are unchanged.  This is asked of plain values only: no object in them repeats
a key, their numbers are finite and fit into 64 bits, and they are not nested more deeply than a text
may be.
-/

namespace UnitAlgebra
namespace Json

/-- A number that JSON can carry: an integer of 64 bits or a finite double. -/
def Number.IsPortable : Number → Prop
  | .integer value => -(Nat.pow 2 63 : Nat) ≤ value ∧ value < (Nat.pow 2 64 : Nat)
  | .double value => value.isFinite = true

namespace Tree

mutual

/-- All numbers of a tree can be carried by JSON. -/
def IsPortable : Tree String Number → Prop
  | .number value => value.IsPortable
  | .array items => ArePortableItems items
  | .object entries => ArePortableEntries entries
  | _ => True

/-- All numbers of the items of an array can be carried by JSON. -/
def ArePortableItems : List (Tree String Number) → Prop
  | [] => True
  | tree :: rest => tree.IsPortable ∧ ArePortableItems rest

/-- All numbers of the entries of an object can be carried by JSON. -/
def ArePortableEntries : List (String × Tree String Number) → Prop
  | [] => True
  | (_, tree) :: rest => tree.IsPortable ∧ ArePortableEntries rest

end

mutual

/-- No object of a tree repeats a key. -/
def HasDistinctKeys : Tree String Number → Prop
  | .array items => HaveDistinctKeys items
  | .object entries => (entries.map Prod.fst).Nodup ∧ HaveDistinctKeysInside entries
  | _ => True

/-- No object in the items of an array repeats a key. -/
def HaveDistinctKeys : List (Tree String Number) → Prop
  | [] => True
  | tree :: rest => tree.HasDistinctKeys ∧ HaveDistinctKeys rest

/-- No object inside the entries of an object repeats a key. -/
def HaveDistinctKeysInside : List (String × Tree String Number) → Prop
  | [] => True
  | (_, tree) :: rest => tree.HasDistinctKeys ∧ HaveDistinctKeysInside rest

end

/-- A value without repeated keys that JSON can carry, nested at most to some depth. -/
structure IsPlain (bound : Nat) (tree : Json) : Prop where
  /-- No object repeats a key. -/
  distinct : tree.HasDistinctKeys
  /-- All numbers can be carried by JSON. -/
  portable : tree.IsPortable
  /-- No more containers are open at once. -/
  depth_le : tree.depth ≤ bound

variable {bound : Nat}

theorem IsPlain.mono {wider : Nat} {tree : Json} (plain : IsPlain bound tree)
    (le_wider : bound ≤ wider) : IsPlain wider tree :=
  ⟨plain.distinct, plain.portable, Nat.le_trans plain.depth_le le_wider⟩

theorem isPlain_null : IsPlain bound .null :=
  ⟨trivial, trivial, Nat.zero_le bound⟩

theorem isPlain_string (text : String) : IsPlain bound (.string text) :=
  ⟨trivial, trivial, Nat.zero_le bound⟩

theorem isPlain_double {value : Float} (finite : value.isFinite = true) :
    IsPlain bound (.number (.double value)) :=
  ⟨trivial, finite, Nat.zero_le bound⟩

theorem isPlain_array {items : List Json} (plain : ∀ item ∈ items, IsPlain bound item) :
    IsPlain (bound + 1) (.array items) := by
  suffices together : HaveDistinctKeys items ∧ ArePortableItems items ∧
      depthItems items ≤ bound from
    ⟨together.1, together.2.1, Nat.succ_le_succ together.2.2⟩
  induction items with
  | nil => exact ⟨trivial, trivial, Nat.zero_le bound⟩
  | cons item items induction =>
      obtain ⟨first, later⟩ := List.forall_mem_cons.mp plain
      obtain ⟨distinct, portable, depth_le⟩ := induction later
      exact ⟨⟨first.distinct, distinct⟩, ⟨first.portable, portable⟩,
        Nat.max_le.mpr ⟨first.depth_le, depth_le⟩⟩

theorem isPlain_object {entries : List (String × Json)}
    (distinct : (entries.map Prod.fst).Nodup) (plain : ∀ entry ∈ entries, IsPlain bound entry.2) :
    IsPlain (bound + 1) (.object entries) := by
  suffices together : HaveDistinctKeysInside entries ∧ ArePortableEntries entries ∧
      depthEntries entries ≤ bound from
    ⟨⟨distinct, together.1⟩, together.2.1, Nat.succ_le_succ together.2.2⟩
  clear distinct
  induction entries with
  | nil => exact ⟨trivial, trivial, Nat.zero_le bound⟩
  | cons entry entries induction =>
      obtain ⟨first, later⟩ := List.forall_mem_cons.mp plain
      obtain ⟨distinct, portable, depth_le⟩ := induction later
      exact ⟨⟨first.distinct, distinct⟩, ⟨first.portable, portable⟩,
        Nat.max_le.mpr ⟨first.depth_le, depth_le⟩⟩

end Tree

/-- A library reads back every plain value that it writes. -/
def Library.IsFaithful (library : Library) : Prop :=
  ∀ json : Json, json.IsPlain Source.maximumDepth → library.read? (library.write json) = some json

end Json
end UnitAlgebra
