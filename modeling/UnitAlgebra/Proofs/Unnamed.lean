import UnitAlgebra.Proofs.CanonicalOrder

/-!
# Sides without their names

Names play no part in sorting, in cancelling and in equality.  Sides that are permutations of each
other once the names are left out are therefore sorted to equal sides, and cancel to equal sides
with the same factor: the same operations on the same multipliers in the same order.
-/

namespace UnitAlgebra

variable {K : Type} [Scalar K]

namespace Side

/-- A side without the names of its entries. -/
def unnamed (side : Side K) : Side K :=
  side.map BaseUnit.unnamed

theorem unnamed_append (left right : Side K) :
    unnamed (left ++ right) = unnamed left ++ unnamed right :=
  List.map_append

/-! ## Sorting -/

theorem unnamed_insert (unit : BaseUnit K) (side : Side K) :
    unnamed (insert unit side) = insert unit.unnamed (unnamed side) := by
  induction side with
  | nil => rfl
  | cons head tail induction =>
      change unnamed (insert unit (head :: tail)) =
        insert unit.unnamed (head.unnamed :: unnamed tail)
      rw [insert, insert, BaseUnit.order_unnamed, ← induction]
      split <;> rfl

theorem unnamed_sort (side : Side K) : unnamed (sort side) = sort (unnamed side) := by
  induction side with
  | nil => rfl
  | cons head tail induction =>
      change unnamed (insert head (sort tail)) = insert head.unnamed (sort (unnamed tail))
      rw [unnamed_insert, induction]

theorem unnamed_dimensional (side : Side K) :
    unnamed (dimensional side) = dimensional (unnamed side) := by
  rw [unnamed, dimensional, dimensional, unnamed, List.filter_map]
  rfl

/-- Sides of the same entries, names left out, are sorted to equal sides. -/
theorem unnamed_sort_eq_of_perm [OrderedScalar K] {left right : Side K}
    (permuted : (unnamed left).Perm (unnamed right)) :
    unnamed (sort left) = unnamed (sort right) := by
  rw [unnamed_sort, unnamed_sort]
  refine List.Perm.eq_of_pairwise ?_ (pairwise_of_isChain (sort_isChain _))
    (pairwise_of_isChain (sort_isChain _))
    ((sort_perm _).trans (permuted.trans (sort_perm _).symm))
  intro entry other entry_member other_member entry_first other_first
  obtain ⟨named, -, rfl⟩ := List.mem_map.mp ((sort_perm _).mem_iff.mp entry_member)
  obtain ⟨other_named, -, rfl⟩ := List.mem_map.mp ((sort_perm _).mem_iff.mp other_member)
  exact BaseUnit.unnamed_eq_of_isLE entry_first other_first

theorem unnamed_canonical_eq_of_perm [OrderedScalar K] {left right : Side K}
    (permuted : (unnamed left).Perm (unnamed right)) :
    unnamed (canonical left) = unnamed (canonical right) := by
  apply unnamed_sort_eq_of_perm
  rw [unnamed_dimensional, unnamed_dimensional]
  exact permuted.filter _

/-! ## Equality -/

theorem beq_iff [OrderedScalar K] {left right : Side K} :
    (left == right) = true ↔ unnamed left = unnamed right := by
  induction left generalizing right with
  | nil => cases right <;> simp [unnamed]
  | cons head tail induction =>
      cases right with
      | nil => simp [unnamed]
      | cons head' tail' =>
          rw [List.cons_beq_cons, Bool.and_eq_true, induction, BaseUnit.beq_iff]
          simp [unnamed]

/-! ## Taking out an entry -/

theorem takeDimension?_unnamed (dimension : String) (side : Side K) :
    takeDimension? dimension (unnamed side) =
      (takeDimension? dimension side).map fun (found, rest) => (found.unnamed, unnamed rest) := by
  induction side with
  | nil => rfl
  | cons head tail induction =>
      change takeDimension? dimension (head.unnamed :: unnamed tail) = _
      rw [takeDimension?, takeDimension?, BaseUnit.dimension_unnamed, induction]
      split
      · rfl
      · simp [unnamed, Function.comp_def]

end Side

/-! ## Cancellation -/

namespace Cancellation

/-- A cancellation without the names of the entries that are left. -/
def unnamed (cancellation : Cancellation K) : Cancellation K :=
  ⟨Side.unnamed cancellation.numerator, Side.unnamed cancellation.denominator, cancellation.factor⟩

theorem run_unnamed (numerator : Side K) (factor : K) (denominator : Side K) :
    run (Side.unnamed numerator) factor (Side.unnamed denominator) =
      (run numerator factor denominator).unnamed := by
  induction denominator generalizing numerator factor with
  | nil => rfl
  | cons entry rest induction =>
      change run (Side.unnamed numerator) factor (entry.unnamed :: Side.unnamed rest) = _
      rw [run, run, BaseUnit.dimension_unnamed, Side.takeDimension?_unnamed]
      cases Side.takeDimension? entry.dimension numerator with
      | none =>
          simp only [Option.map_none]
          rw [induction]
          rfl
      | some taken => exact induction taken.2 _

end Cancellation

/--
Cancellation does not depend on the order and the names of the entries that it is given: what is
left is equal, and so is the factor.
-/
theorem simplify_unnamed_eq_of_perm [OrderedScalar K]
    {numerator numerator' denominator denominator' : Side K}
    (numerators : (Side.unnamed numerator).Perm (Side.unnamed numerator'))
    (denominators : (Side.unnamed denominator).Perm (Side.unnamed denominator')) :
    (simplify numerator denominator).unnamed = (simplify numerator' denominator').unnamed := by
  rw [simplify_eq_run, simplify_eq_run, ← Cancellation.run_unnamed, ← Cancellation.run_unnamed,
    Side.unnamed_canonical_eq_of_perm numerators, Side.unnamed_canonical_eq_of_perm denominators]

end UnitAlgebra
