import UnitAlgebra.Proofs.Expression.Rendering
import UnitAlgebra.Proofs.Reduction
import UnitAlgebra.Proofs.Value

/-!
# Spelled units

The name that spells out the entries of a unit is an expression: a quotient of products of names, of
which the right one stands between parentheses if it has several factors.  A number before the name
is one more factor of the first product.  If the names stand for their entries, the expression has
the spelled unit as its value, with the number beside it.
-/

namespace UnitAlgebra
namespace Expression

/-! ## Written products -/

/-- A tree multiplied by words one after the other. -/
def chain (first : Tree (List Char)) (rest : List (List Char)) : Tree (List Char) :=
  rest.foldl (fun tree word => .node .times tree (.leaf word)) first

/-- A tree multiplied from the left by a word, if there is one. -/
def graft : Option (List Char) → Tree (List Char) → Tree (List Char)
  | none, tree => tree
  | some word, tree => .node .times (.leaf word) tree

/-- A word and a blank after it, if there is a word. -/
def lead : Option (List Char) → List Char
  | none => []
  | some word => word ++ [' ']

theorem Renders.chain {first : Tree (List Char)} {front : List Char}
    (rendered : Renders .expression first front) (rest : List (List Char)) :
    Renders .expression (Expression.chain first rest)
      (front ++ rest.flatMap fun word => '*' :: word) := by
  induction rest generalizing first front with
  | nil =>
      rw [List.flatMap_nil, List.append_nil]
      exact rendered
  | cons word rest induction =>
      have longer := induction (.marked .times rendered (.leaf word))
      have text_eq : front ++ (word :: rest).flatMap (fun word => '*' :: word) =
          front ++ Operator.times.mark.toList ++ word ++ rest.flatMap fun word => '*' :: word := by
        simp [Operator.mark]
      rw [text_eq]
      exact longer

theorem Renders.graft {tree : Tree (List Char)} {text : List Char}
    (rendered : Renders .term tree text) (word? : Option (List Char)) :
    Renders .expression (Expression.graft word? tree) (lead word? ++ text) := by
  cases word? with
  | none => exact .term rendered
  | some word =>
      have blank : Text.isBlank ' ' = true := by decide
      rw [lead, List.append_assoc]
      exact .adjacent (.term (.leaf word)) (.blankBefore blank rendered)
        (.inr ⟨' ', rfl, by decide⟩)

/-- The words of the names of a side. -/
def nameWords {K : Type} [Scalar K] (side : Side K) : List (List Char) :=
  side.map fun entry => entry.name.toList

variable {K : Type} [Scalar K]

theorem toList_product (first : BaseUnit K) (rest : Side K) :
    (Side.product (Side.names (first :: rest))).toList =
      first.name.toList ++ (nameWords rest).flatMap fun word => '*' :: word := by
  induction rest generalizing first with
  | nil => simp [Side.product, Side.names, nameWords]
  | cons second rest induction =>
      have later := induction second
      rw [Side.product, String.toList_intercalate] at later ⊢
      simp only [Side.names, nameWords, List.map_cons, List.intercalate_cons_cons,
        List.flatMap_cons] at later ⊢
      rw [later]
      simp

theorem renders_sideName (first : BaseUnit K) (rest : Side K) :
    Renders .term (chain (.leaf first.name.toList) (nameWords rest))
      (CompoundUnit.sideName (first :: rest)).toList := by
  have product : Renders .expression (chain (.leaf first.name.toList) (nameWords rest))
      (Side.product (Side.names (first :: rest))).toList := by
    rw [toList_product]
    exact (Renders.term (.leaf first.name.toList)).chain _
  cases rest with
  | nil =>
      rw [CompoundUnit.sideName, if_neg (by simp), toList_product]
      simpa [nameWords, chain] using Renders.leaf first.name.toList
  | cons second rest =>
      rw [CompoundUnit.sideName, if_pos (by simp), String.toList_append, String.toList_append]
      exact .parentheses product

/-! ## Spelled values -/

variable {registry : Registry K}

/-- A tree of names and numbers whose value is a number, if any is given, in a unit of entries. -/
structure Spells (registry : Registry K) (tree : Tree (List Char)) (number? : Option K)
    (above below : Side K) : Prop where
  /-- All leaves are names or numbers. -/
  operands : tree.All (IsOperand registry)
  /-- The value of the tree. -/
  value : ∃ unit, tree.evaluate (leafValue registry) = .ok (Value.ofParts number? unit) ∧
    unit.HasEntries above below

namespace Spells

variable {left right tree : Tree (List Char)} {number? : Option K}
variable {left_above left_below right_above right_below above below : Side K}

theorem name {name : String} {unit : CompoundUnit K} (word : IsWord name.toList)
    (found : registry.lookup? name = some unit) (entries : unit.HasEntries above below) :
    Spells registry (.leaf name.toList) none above below where
  operands := .inl ⟨word, by
    rw [String.ofList_toList]
    exact contains_iff_lookup?.mpr ⟨unit, found⟩⟩
  value := by
    refine ⟨unit, ?_, entries⟩
    rw [Tree.evaluate, leafValue, String.ofList_toList, found]
    rfl

theorem number {word : List Char} {number : K}
    (unregistered : registry.lookup? (String.ofList word) = none)
    (literal : Scalar.ofWord? K word = some number) :
    Spells registry (.leaf word) (some number) [] [] where
  operands := .inr (Option.isSome_iff_exists.mpr ⟨number, literal⟩)
  value := by
    refine ⟨registry.dimensionless, ?_, .dimensionless⟩
    rw [Tree.evaluate, leafValue, unregistered, literal]
    rfl

section

variable [LawfulScalar K]

theorem product (left_spells : Spells registry left number? left_above left_below)
    (right_spells : Spells registry right none right_above right_below)
    (above_canonical : Side.IsCanonical (left_above ++ right_above))
    (below_canonical : Side.IsCanonical (left_below ++ right_below))
    (apart : Side.Apart (left_above ++ right_above) (left_below ++ right_below)) :
    Spells registry (.node .times left right) number? (left_above ++ right_above)
      (left_below ++ right_below) := by
  obtain ⟨left_unit, left_value, left_entries⟩ := left_spells.value
  obtain ⟨right_unit, right_value, right_entries⟩ := right_spells.value
  obtain ⟨unit, (product_eq : left_unit.combine .times right_unit = (unit, 1)), entries⟩ :=
    left_entries.productWithFactor_of_apart right_entries above_canonical below_canonical apart
  refine ⟨⟨left_spells.operands, right_spells.operands⟩, unit, ?_, entries⟩
  rw [Tree.evaluate, left_value, right_value]
  exact Value.combine_bare product_eq number?

theorem quotient (left_spells : Spells registry left number? left_above left_below)
    (right_spells : Spells registry right none right_above right_below)
    (above_canonical : Side.IsCanonical (left_above ++ right_below))
    (below_canonical : Side.IsCanonical (left_below ++ right_above))
    (apart : Side.Apart (left_above ++ right_below) (left_below ++ right_above)) :
    Spells registry (.node .over left right) number? (left_above ++ right_below)
      (left_below ++ right_above) := by
  obtain ⟨left_unit, left_value, left_entries⟩ := left_spells.value
  obtain ⟨right_unit, right_value, right_entries⟩ := right_spells.value
  obtain ⟨unit, (quotient_eq : left_unit.combine .over right_unit = (unit, 1)), entries⟩ :=
    left_entries.quotientWithFactor_of_apart right_entries above_canonical below_canonical apart
  refine ⟨⟨left_spells.operands, right_spells.operands⟩, unit, ?_, entries⟩
  rw [Tree.evaluate, left_value, right_value]
  exact Value.combine_bare quotient_eq number?

/-! ## Spelled units -/

/-- What may stand before a name: nothing, or a number that is no name. -/
inductive Leads (registry : Registry K) : Option (List Char) → Option K → Prop where
  /-- Nothing. -/
  | nothing : Leads registry none none
  /-- A number. -/
  | number {word : List Char} {number : K}
      (unregistered : registry.lookup? (String.ofList word) = none)
      (literal : Scalar.ofWord? K word = some number) : Leads registry (some word) (some number)

variable {word? : Option (List Char)}

theorem graft (spells : Spells registry tree none above below)
    (leads : Leads registry word? number?) :
    Spells registry (Expression.graft word? tree) number? above below := by
  obtain ⟨unit, -, entries⟩ := spells.value
  cases leads with
  | nothing => exact spells
  | number unregistered literal =>
      exact (Spells.number unregistered literal).product spells entries.above_canonical
        entries.below_canonical entries.apart

theorem chain {rest : Side K} (spells : Spells registry tree number? above [])
    (each : ∀ entry ∈ rest, Spells registry (.leaf entry.name.toList) none [entry] [])
    (canonical : Side.IsCanonical (above ++ rest)) :
    Spells registry (Expression.chain tree (nameWords rest)) number? (above ++ rest) [] := by
  induction rest generalizing tree above with
  | nil =>
      rw [List.append_nil]
      exact spells
  | cons entry rest induction =>
      rw [List.append_cons] at canonical ⊢
      have entry_spells := each entry List.mem_cons_self
      have longer :=
        spells.product entry_spells canonical.of_append_left .nil (by simp [Side.Apart])
      exact induction longer (fun other member => each other (List.mem_cons_of_mem entry member))
        canonical

/-- The names of a side, or the name of the placeholder, spell the entries of the side. -/
theorem side {first : BaseUnit K} {rest : Side K} (filled : Side.fill above = first :: rest)
    (canonical : Side.IsCanonical above)
    (placeholder : Spells registry (.leaf dimensionlessName.toList) none [] [])
    (each : ∀ entry ∈ above, Spells registry (.leaf entry.name.toList) none [entry] [])
    (leads : Leads registry word? number?) :
    Spells registry
      (Expression.chain (Expression.graft word? (.leaf first.name.toList)) (nameWords rest))
      number? above [] := by
  cases above with
  | nil =>
      obtain ⟨rfl, rfl⟩ : BaseUnit.dimensionless = first ∧ [] = rest := by
        simpa [Side.fill] using filled
      exact placeholder.graft leads
  | cons head tail =>
      obtain ⟨rfl, rfl⟩ : head = first ∧ tail = rest := by simpa [Side.fill] using filled
      have head_spells := (each head List.mem_cons_self).graft leads
      exact head_spells.chain
        (fun entry member => each entry (List.mem_cons_of_mem head member)) canonical

end

end Spells

/-- The spelled name of a unit is an expression of the unit, also with a number before it. -/
theorem exists_spelling [LawfulScalar K] {unit : CompoundUnit K} {above below : Side K}
    {word? : Option (List Char)} {number? : Option K} (entries : unit.HasEntries above below)
    (placeholder : Spells registry (.leaf dimensionlessName.toList) none [] [])
    (each_above : ∀ entry ∈ above, Spells registry (.leaf entry.name.toList) none [entry] [])
    (each_below : ∀ entry ∈ below, Spells registry (.leaf entry.name.toList) none [entry] [])
    (leads : Spells.Leads registry word? number?) :
    ∃ tree, Renders .expression tree (lead word? ++ unit.spelledName.toList) ∧
      Spells registry tree number? above below := by
  obtain ⟨first, rest, filled⟩ := Side.exists_fill_eq_cons above
  cases below with
  | nil =>
      refine ⟨_, ?_, .side filled entries.above_canonical placeholder each_above leads⟩
      rw [CompoundUnit.spelledName, if_pos (entries.isPlaceholder_denominator_iff.mpr rfl),
        entries.numerator_eq, filled, toList_product, ← List.append_assoc]
      exact ((Renders.leaf first.name.toList).graft word?).chain _
  | cons divisor divisors =>
      have several : ¬Side.isPlaceholder unit.denominator = true := by
        simp [entries.isPlaceholder_denominator_iff]
      have above_spells := Spells.side filled entries.above_canonical placeholder each_above
        .nothing
      have below_filled : Side.fill (divisor :: divisors) = divisor :: divisors := rfl
      have below_spells := Spells.side below_filled entries.below_canonical placeholder each_below
        .nothing
      have quotient := (above_spells.graft leads).quotient below_spells
      rw [List.append_nil, List.nil_append] at quotient
      refine ⟨_, ?_, quotient entries.above_canonical entries.below_canonical entries.apart⟩
      have above_renders := (renders_sideName first rest).graft word?
      have below_renders := renders_sideName divisor divisors
      rw [CompoundUnit.spelledName, if_neg several, entries.numerator_eq, entries.denominator_eq,
        filled, below_filled, String.toList_append, String.toList_append, ← List.append_assoc,
        ← List.append_assoc]
      exact above_renders.marked .over below_renders

end Expression
end UnitAlgebra
