import Mathlib.Logic.Relation
import UnitAlgebra.CompoundUnit
import UnitAlgebra.Proofs.Event

/-!
# Denotation of names

The names of a table denote units: a base unit denotes itself, and a composed name the product of
what its parts denote, from left to right.  A name that refers to itself, at once or through other
names, denotes nothing.  A table is resolvable if all names that are referred to are defined,
none refers to itself, and no product incurs a factor.
-/

namespace UnitAlgebra

variable {K : Type} [Scalar K]

namespace Composition

/-- Join a part to a product and to the factor that the product has incurred. -/
def joinPart (unitOf : String → CompoundUnit K) (known : CompoundUnit K × K)
    (part : Operator × String) : CompoundUnit K × K :=
  let joined := known.1.combine part.1 (unitOf part.2)
  (joined.1, known.2 * joined.2)

/-- The product of some parts from left to right and the factor that it incurs. -/
def productOf (unitOf : String → CompoundUnit K) (parts : List (Operator × String)) :
    CompoundUnit K × K :=
  parts.foldl (joinPart unitOf) (.ofSides [] [] .dimensionless, 1)

/-- The product of a composition and the factor that it incurs. -/
def product (composition : Composition) (unitOf : String → CompoundUnit K) : CompoundUnit K × K :=
  productOf unitOf composition.parts

variable {unitOf other : String → CompoundUnit K} {parts : List (Operator × String)}

theorem productOf_append_singleton (unitOf : String → CompoundUnit K)
    (parts : List (Operator × String)) (part : Operator × String) :
    productOf unitOf (parts ++ [part]) = joinPart unitOf (productOf unitOf parts) part := by
  rw [productOf, List.foldl_append]
  rfl

theorem productOf_congr (same : ∀ part ∈ parts, unitOf part.2 = other part.2) :
    productOf unitOf parts = productOf other parts := by
  refine List.foldl_ext _ _ _ fun known part member => ?_
  rw [joinPart, joinPart, same part member]

end Composition

namespace DefinitionTable

/-! ## References -/

/-- A name is composed, and another one is among its parts. -/
def Refers (table : DefinitionTable K) (name part : String) : Prop :=
  ∃ composition, table.composition? name = some composition ∧
    ∃ operator, (operator, part) ∈ composition.parts

/-- The unit that a name denotes. -/
inductive Denotes (table : DefinitionTable K) : String → CompoundUnit K → Prop where
  /-- The name of a base unit denotes it. -/
  | direct {name : String} {unit : BaseUnit K} (found : table.baseUnit? name = some unit) :
      Denotes table name (.ofSides [unit] [] .dimensionless)
  /-- A composed name denotes the product of what its parts denote. -/
  | composed {name : String} {composition : Composition} {unitOf : String → CompoundUnit K}
      (found : table.composition? name = some composition)
      (parts : ∀ part ∈ composition.parts, Denotes table part.2 (unitOf part.2)) :
      Denotes table name ((composition.product unitOf).1.withLabel name)

variable {table : DefinitionTable K} {name : String}

theorem Denotes.unique {unit other : CompoundUnit K} (denotes : table.Denotes name unit)
    (other_denotes : table.Denotes name other) : unit = other := by
  induction denotes generalizing other with
  | direct found =>
      cases other_denotes with
      | direct other_found =>
          rw [found] at other_found
          obtain rfl := Option.some.inj other_found
          rfl
      | composed other_found _ =>
          rw [composition?_of_baseUnit? found] at other_found
          cases other_found
  | composed found _ induction =>
      cases other_denotes with
      | direct other_found =>
          rw [composition?_of_baseUnit? other_found] at found
          cases found
      | composed other_found other_parts =>
          rw [found] at other_found
          obtain rfl := Option.some.inj other_found
          have same_units := Composition.productOf_congr fun part member =>
            induction part member (other_parts part member)
          rw [Composition.product, Composition.product, same_units]

theorem Denotes.defines {unit : CompoundUnit K} (denotes : table.Denotes name unit) :
    table.Defines name := by
  cases denotes with
  | direct found => exact defines_of_baseUnit? found
  | composed found _ => exact defines_of_composition? found

theorem Denotes.exists_part {unit : CompoundUnit K} {part : String}
    (denotes : table.Denotes name unit) (refers : table.Refers name part) :
    ∃ part_unit, table.Denotes part part_unit := by
  obtain ⟨composition, composed, operator, member⟩ := refers
  cases denotes with
  | direct found =>
      rw [composition?_of_baseUnit? found] at composed
      cases composed
  | composed found parts =>
      rw [found] at composed
      obtain rfl := Option.some.inj composed
      exact ⟨_, parts _ member⟩

/-- A name that denotes a unit does not refer to itself, however many names lie between. -/
theorem Denotes.acyclic {unit : CompoundUnit K} (denotes : table.Denotes name unit) :
    ¬Relation.TransGen table.Refers name name := by
  induction denotes with
  | direct found =>
      intro cycle
      obtain ⟨part, ⟨composition, composed, -⟩, -⟩ := Relation.TransGen.head'_iff.mp cycle
      rw [composition?_of_baseUnit? found] at composed
      cases composed
  | composed found _ induction =>
      -- A cycle through a name is also one through the part that it takes first.
      intro cycle
      obtain ⟨part, refers, back⟩ := Relation.TransGen.head'_iff.mp cycle
      have part_cycle := Relation.TransGen.tail' back refers
      obtain ⟨composition, composed, operator, member⟩ := refers
      rw [found] at composed
      obtain rfl := Option.some.inj composed
      exact induction _ member part_cycle

/-! ## Resolvable tables -/

/-- A table whose compositions can all be put together. -/
structure IsResolvable (table : DefinitionTable K) : Prop where
  /-- Every name that is referred to is defined. -/
  defined : ∀ {name part : String}, table.Refers name part → table.Defines part
  /-- No name refers to itself, however many names lie between. -/
  acyclic : ∀ name, ¬Relation.TransGen table.Refers name name
  /-- The product of every composition incurs no factor. -/
  lossless : ∀ {name : String} {composition : Composition} {unitOf : String → CompoundUnit K},
    table.composition? name = some composition →
      (∀ part ∈ composition.parts, table.Denotes part.2 (unitOf part.2)) →
        ((composition.product unitOf).2 == 1) = true

/-- Why the compositions of a table cannot be put together. -/
inductive ResolutionFault (table : DefinitionTable K) : UnitError → Prop where
  /-- A name that is referred to is not defined. -/
  | unknown {name part : String} (refers : table.Refers name part)
      (undefined : ¬table.Defines part) : ResolutionFault table (.unknownUnit part)
  /-- A name refers to itself. -/
  | circular {name : String} {path : List String}
      (cycle : Relation.TransGen table.Refers name name) :
      ResolutionFault table (.invalidDefinition (.circular name path))
  /-- A product incurs a factor. -/
  | lossy {name : String} {composition : Composition} {unitOf : String → CompoundUnit K}
      (composed : table.composition? name = some composition)
      (parts : ∀ part ∈ composition.parts, table.Denotes part.2 (unitOf part.2))
      (incurred : ((composition.product unitOf).2 == 1) = false) :
      ResolutionFault table
        (.invalidDefinition (.lossyCancellation name (Scalar.text (composition.product unitOf).2)))

theorem ResolutionFault.not_isResolvable {failure : UnitError}
    (fault : table.ResolutionFault failure) : ¬table.IsResolvable := by
  intro resolvable
  cases fault with
  | unknown refers undefined => exact undefined (resolvable.defined refers)
  | circular cycle => exact resolvable.acyclic _ cycle
  | lossy composed parts incurred =>
      rw [resolvable.lossless composed parts] at incurred
      cases incurred

end DefinitionTable
end UnitAlgebra
