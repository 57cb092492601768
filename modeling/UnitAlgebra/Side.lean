import UnitAlgebra.BaseUnit

/-!
# Sides of compound units

A side is a list of base units.  Its canonical form leaves out the units without dimension and is
sorted by the canonical order; equal entries keep the order in which they came.
-/

namespace UnitAlgebra

/-- One side of a compound unit. -/
abbrev Side (K : Type) [Scalar K] :=
  List (BaseUnit K)

namespace Side

variable {K : Type} [Scalar K]

/-- Insert a unit before the first entry that does not precede it. -/
def insert (unit : BaseUnit K) : Side K → Side K
  | [] => [unit]
  | head :: tail =>
      if (unit.order head).isLE then unit :: head :: tail else head :: insert unit tail

/-- Sort a side by the canonical order. -/
def sort (side : Side K) : Side K :=
  side.foldr insert []

/-- The entries that have a dimension. -/
def dimensional (side : Side K) : Side K :=
  side.filter fun unit => !unit.isDimensionless

/-- The canonical form of a side. -/
def canonical (side : Side K) : Side K :=
  sort (dimensional side)

/-- Whether no entry of a side has a dimension. -/
def isPlaceholder (side : Side K) : Bool :=
  side.all BaseUnit.isDimensionless

/-- The canonical form of a side, with a placeholder on an empty one. -/
def normalize (placeholder : BaseUnit K) (side : Side K) : Side K :=
  match canonical side with
  | [] => [placeholder]
  | head :: tail => head :: tail

/-- Dimension tags of the entries in order. -/
def tags (side : Side K) : List String :=
  side.map BaseUnit.dimension

/-- Names of the entries in order. -/
def names (side : Side K) : List String :=
  side.map BaseUnit.name

/-- Texts joined by the multiplication mark. -/
def product (parts : List String) : String :=
  "*".intercalate parts

/-- Remove the first entry of a dimension, and give it together with the other entries. -/
def takeDimension? (dimension : String) : Side K → Option (BaseUnit K × Side K)
  | [] => none
  | head :: tail =>
      if head.dimension = dimension then
        some (head, tail)
      else
        (takeDimension? dimension tail).map fun (found, rest) => (found, head :: rest)

end Side
end UnitAlgebra
