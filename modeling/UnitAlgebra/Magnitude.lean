import UnitAlgebra.Error
import UnitAlgebra.Scalar

/-!
# Magnitudes

A magnitude is the numeric part of a quantity: one number or a list of numbers.  A single number is
paired with every element of a list.  Two lists are paired element by element in sums and
differences, and not at all in products and quotients.
-/

namespace UnitAlgebra

/-- One number, or a list of numbers in one unit. -/
inductive Magnitude (K : Type) where
  /-- A single number. -/
  | scalar (value : K)
  /-- A list of numbers. -/
  | list (values : List K)
  deriving DecidableEq, Repr

namespace Operation

/-- The operation on numbers. -/
def apply {K : Type} [Scalar K] : Operation → K → K → K
  | .add => (· + ·)
  | .subtract => (· - ·)
  | .multiply => (· * ·)
  | .divide => (· / ·)

/-- Whether two lists may be paired element by element. -/
def pairsLists : Operation → Bool
  | .add => true
  | .subtract => true
  | .multiply => false
  | .divide => false

end Operation

namespace Magnitude

variable {K : Type}

/-! ## Elements -/

/-- The elements in order; a single number is its own only element. -/
def elements : Magnitude K → List K
  | .scalar value => [value]
  | .list values => values

/-- Number of elements. -/
def length (magnitude : Magnitude K) : Nat :=
  magnitude.elements.length

/-- Whether a magnitude is a list. -/
def isList : Magnitude K → Bool
  | .scalar _ => false
  | .list _ => true

/-- The number of a magnitude that is a single number. -/
def scalar? : Magnitude K → Option K
  | .scalar value => some value
  | .list _ => none

/-- The numbers of a magnitude that is a list. -/
def list? : Magnitude K → Option (List K)
  | .scalar _ => none
  | .list values => some values

/-- Whether a magnitude is the empty list. -/
def isEmpty (magnitude : Magnitude K) : Bool :=
  magnitude.elements.isEmpty

/-- The element at an index; a single number has index zero only. -/
def get? (magnitude : Magnitude K) (index : Nat) : Option K :=
  magnitude.elements[index]?

/-- Apply a function to every element. -/
def map {L : Type} (function : K → L) : Magnitude K → Magnitude L
  | .scalar value => .scalar (function value)
  | .list values => .list (values.map function)

@[simp]
theorem elements_map {L : Type} (function : K → L) (magnitude : Magnitude K) :
    (magnitude.map function).elements = magnitude.elements.map function := by
  cases magnitude <;> rfl

@[simp]
theorem get?_map {L : Type} (function : K → L) (magnitude : Magnitude K) (index : Nat) :
    (magnitude.map function).get? index = (magnitude.get? index).map function := by
  simp [get?]

/-! ## Comparison -/

variable [Scalar K]

/-- Whether all elements are zero. -/
def isZero (magnitude : Magnitude K) : Bool :=
  magnitude.elements.all (· == 0)

/-- Equality of shape and of all elements. -/
def equals : Magnitude K → Magnitude K → Bool
  | .scalar left, .scalar right => left == right
  | .list left, .list right => left == right
  | _, _ => false

/-- Equality with a bare number: no list equals one. -/
def equalsNumber : Magnitude K → K → Bool
  | .scalar value, number => value == number
  | .list _, _ => false

/-! ## Arithmetic -/

/-- Multiply every element by a factor. -/
def scale (magnitude : Magnitude K) (factor : K) : Magnitude K :=
  magnitude.map (· * factor)

/-- Combine two magnitudes by an operation. -/
def combine (operation : Operation) :
    Magnitude K → Magnitude K → Except UnitError (Magnitude K)
  | .scalar left, .scalar right => .ok (.scalar (operation.apply left right))
  | .list left, .scalar right => .ok (.list (left.map fun value => operation.apply value right))
  | .scalar left, .list right => .ok (.list (right.map fun value => operation.apply left value))
  | .list left, .list right =>
      if !operation.pairsLists then
        .error (.ambiguousBroadcast (.twoLists operation))
      else if left.length ≠ right.length then
        .error (.ambiguousBroadcast (.lengths operation left.length right.length))
      else
        .ok (.list (List.zipWith operation.apply left right))

/-- The sum of two magnitudes. -/
def add (left right : Magnitude K) : Except UnitError (Magnitude K) :=
  combine .add left right

/-- The difference of two magnitudes. -/
def subtract (left right : Magnitude K) : Except UnitError (Magnitude K) :=
  combine .subtract left right

/-- The product of two magnitudes. -/
def multiply (left right : Magnitude K) : Except UnitError (Magnitude K) :=
  combine .multiply left right

/-- The quotient of two magnitudes. -/
def divide (left right : Magnitude K) : Except UnitError (Magnitude K) :=
  combine .divide left right

/-! ## Text -/

/-- A single number, or the numbers of a list between brackets. -/
def display : Magnitude K → String
  | .scalar value => Scalar.text value
  | .list values => "[" ++ ", ".intercalate (values.map Scalar.text) ++ "]"

end Magnitude
end UnitAlgebra
