import UnitAlgebra.Registry.Catalogue

/-!
# Assembly of composed units

A composed unit is the product of the units above its line divided by those below, taken from left
to right.  Its parts may be composed themselves, so they are assembled first.  A composition that
would cancel units of different size is refused: a bare unit has no place for the factor.
-/

namespace UnitAlgebra

/-- A composed unit that is partly put together. -/
structure Assembly (K : Type) [Scalar K] where
  /-- The product of the parts so far. -/
  unit : CompoundUnit K
  /-- The factor that cancelling has incurred so far. -/
  factor : K
  /-- All units that are known so far. -/
  units : Std.TreeMap String (CompoundUnit K)

namespace Assembly

variable {K : Type} [Scalar K]

/-- Nothing has been put together yet. -/
def start (units : Std.TreeMap String (CompoundUnit K)) : Assembly K :=
  ⟨.ofSides [] [] .dimensionless, 1, units⟩

/-- Join a part whose unit has been looked up or assembled. -/
def join (assembly : Assembly K) (operator : Operator)
    (part : CompoundUnit K × Std.TreeMap String (CompoundUnit K)) : Assembly K :=
  let (unit, factor) := assembly.unit.combine operator part.1
  ⟨unit, assembly.factor * factor, part.2⟩

/-- The finished unit under its name, together with all known units. -/
def finish (assembly : Assembly K) (name : String) :
    Except UnitError (CompoundUnit K × Std.TreeMap String (CompoundUnit K)) :=
  if assembly.factor == 1 then
    let unit := assembly.unit.withLabel name
    .ok (unit, assembly.units.insert name unit)
  else
    .error (.invalidDefinition (.lossyCancellation name (Scalar.text assembly.factor)))

end Assembly

/-- Erasing a name that has a composition leaves fewer compositions. -/
theorem size_erase_lt {pending : Std.TreeMap String Composition} {name : String}
    {composition : Composition} (found : pending[name]? = some composition) :
    (pending.erase name).size < pending.size := by
  have member : name ∈ pending := by
    rw [Std.TreeMap.mem_iff_isSome_getElem?]
    simp [found]
  have positive : 0 < pending.size := by
    have nonempty := Std.TreeMap.isEmpty_eq_false_iff_exists_mem.2 ⟨name, member⟩
    rw [Std.TreeMap.isEmpty_eq_size_eq_zero] at nonempty
    have := of_decide_eq_false nonempty
    omega
  rw [Std.TreeMap.size_erase, if_pos (Std.TreeMap.contains_iff_mem.2 member)]
  omega

/--
The unit of a name, assembled from the compositions that are still pending.  The names on the path
are being assembled already; meeting one of them again means that it is composed of itself.
-/
def assemble {K : Type} [Scalar K] (pending : Std.TreeMap String Composition)
    (path : List String) (name : String) (units : Std.TreeMap String (CompoundUnit K)) :
    Except UnitError (CompoundUnit K × Std.TreeMap String (CompoundUnit K)) :=
  match units[name]? with
  | some unit => .ok (unit, units)
  | none =>
      match _found : pending[name]? with
      | none =>
          if path.contains name then
            .error (.invalidDefinition (.circular name path))
          else
            .error (.unknownUnit name)
      | some composition => do
          let assembly ← composition.parts.foldlM
            (fun (assembly : Assembly K) (operator, part) => do
              let known ← assemble (pending.erase name) (path ++ [name]) part assembly.units
              return assembly.join operator known)
            (Assembly.start units)
          assembly.finish name
termination_by pending.size
decreasing_by exact size_erase_lt _found

namespace Catalogue

variable {K : Type} [Scalar K]

/-- The units of the base units of a catalogue. -/
def directUnits (catalogue : Catalogue K) : Std.TreeMap String (CompoundUnit K) :=
  catalogue.baseUnits.map fun _ unit => .ofSides [unit] [] .dimensionless

/-- All units of a catalogue by name. -/
def units (catalogue : Catalogue K) :
    Except UnitError (Std.TreeMap String (CompoundUnit K)) :=
  catalogue.compositions.keys.foldlM
    (fun units name => do return (← assemble catalogue.compositions [] name units).2)
    catalogue.directUnits

end Catalogue
end UnitAlgebra
