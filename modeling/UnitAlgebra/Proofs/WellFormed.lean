import Mathlib.Data.Fintype.Card
import Mathlib.Data.Set.Finite.List
import UnitAlgebra.Proofs.Explanation
import UnitAlgebra.Proofs.Loading

/-!
# Well-formed tables

A table gives a registry exactly if it can be loaded and its compositions can be put together, and
every error names a fault that the table has.  In a table whose references are defined and acyclic
every defined name denotes one unit, so the demand that products incur no factor is about all
its compositions.
-/

namespace UnitAlgebra

variable {K : Type} [Scalar K]

open Outcome (Meets)

/-- A registry that holds what the events of a table say. -/
structure Registry.Realizes (registry : Registry K) (table : DefinitionTable K) : Prop where
  /-- Its base units and compositions are those that the table leaves. -/
  follows : registry.toCatalogue.Follows table
  /-- Its units are those that their names denote. -/
  explains : table.Explains registry.units
  /-- It has a unit for every defined name. -/
  complete : ∀ {name : String}, table.Defines name → ∃ unit, registry.units[name]? = some unit

namespace DefinitionTable

variable {table : DefinitionTable K}

theorem IsLoadable.exists_follows (loadable : table.IsLoadable) :
    ∃ catalogue : Catalogue K, catalogue.Follows table := by
  cases loaded : table.registrations with
  | error failure =>
      exact absurd loadable (table.registrations_meets.of_error loaded).not_isLoadable
  | ok registrations =>
      exact ⟨_, Catalogue.ofRegistrations_follows (table.registrations_meets.of_ok loaded).2⟩

instance (table : DefinitionTable K) : Finite {name // table.Defines name} := by
  refine ((table.events.map Event.name).finite_toSet.subset fun name defined => ?_).to_subtype
  obtain ⟨event, member, name_eq⟩ := defined
  exact List.mem_map.mpr ⟨event, member, name_eq⟩

/-- Acyclic references to defined names can be followed to an end. -/
theorem wellFounded_refers
    (defined : ∀ {name part : String}, table.Refers name part → table.Defines part)
    (acyclic : ∀ name, ¬Relation.TransGen table.Refers name name) :
    WellFounded fun part name => table.Refers name part := by
  -- The references among the finitely many defined names can be followed to an end.
  let Reaches (part name : {name // table.Defines name}) : Prop :=
    Relation.TransGen table.Refers name.1 part.1
  have reaches_trans : IsTrans _ Reaches := ⟨fun _ _ _ first second => second.trans first⟩
  have reaches_irrefl : Std.Irrefl Reaches := ⟨fun name => acyclic name.1⟩
  have reaches_wellFounded := Finite.wellFounded_of_trans_of_irrefl Reaches
  have defined_acc (name : {name // table.Defines name}) :
      Acc (fun part name => table.Refers name part) name.1 := by
    induction name using reaches_wellFounded.induction with
    | _ name induction =>
        exact ⟨_, fun part refers => induction ⟨part, defined refers⟩ (.single refers)⟩
  exact ⟨fun name => ⟨_, fun part refers => defined_acc ⟨part, defined refers⟩⟩⟩

theorem exists_denotes (loadable : table.IsLoadable)
    (defined : ∀ {name part : String}, table.Refers name part → table.Defines part)
    (acyclic : ∀ name, ¬Relation.TransGen table.Refers name name) {name : String}
    (name_defined : table.Defines name) :
    ∃ unit, table.Denotes name unit := by
  obtain ⟨catalogue, follows⟩ := loadable.exists_follows
  induction name using (wellFounded_refers defined acyclic).induction with
  | _ name induction =>
    rcases follows.baseUnit_or_composition name_defined with
      ⟨unit, direct⟩ | ⟨composition, composed⟩
    · exact ⟨_, .direct direct⟩
    · have part_denotes (part : String) : ∃ unit : CompoundUnit K,
          table.Refers name part → table.Denotes part unit := by
        by_cases refers : table.Refers name part
        · obtain ⟨unit, denotes⟩ := induction part refers (defined refers)
          exact ⟨unit, fun _ => denotes⟩
        · exact ⟨.ofSides [] [] .dimensionless, fun does_refer => absurd does_refer refers⟩
      choose unitOf denotes using part_denotes
      exact ⟨_, .composed composed fun part member =>
        denotes part.2 ⟨composition, composed, part.1, member⟩⟩

end DefinitionTable

namespace Registry

/-- A table gives a registry that holds what it says, or an error for a fault that it has. -/
theorem ofTable_meets (table : DefinitionTable K) :
    Meets (fun failure => table.LoadingFault failure ∨ table.ResolutionFault failure)
      (fun registry => (table.IsLoadable ∧ table.IsResolvable) ∧ registry.Realizes table)
      (ofTable table) := by
  refine (table.registrations_meets.imp .inl id).bind fun registrations loaded => ?_
  have follows := Catalogue.ofRegistrations_follows loaded.2
  refine ((DefinitionTable.units_meets follows).imp .inr id).bind fun units explained => ?_
  exact .ok ⟨⟨loaded.1, explained.1.isResolvable explained.2⟩, follows, explained.1, explained.2⟩

/--
Exactly the tables that can be loaded and whose compositions can be put together give a registry.
A name that is reported as unknown is not defined, and some composition that is left refers to it.
-/
theorem ofTable_accepts_wellFormed {K : Type} [Scalar K] (table : DefinitionTable K) :
    ((∃ registry, ofTable table = .ok registry) ↔ table.IsLoadable ∧ table.IsResolvable) ∧
      ∀ name, ofTable table = .error (.unknownUnit name) →
        (∃ other, table.Refers other name) ∧ ¬table.Defines name := by
  have meets := ofTable_meets table
  refine ⟨⟨?_, ?_⟩, ?_⟩
  · rintro ⟨registry, built⟩
    exact (meets.of_ok built).1
  · rintro ⟨loadable, resolvable⟩
    cases built : ofTable table with
    | ok registry => exact ⟨registry, rfl⟩
    | error failure =>
        rcases meets.of_error built with loading_fault | resolution_fault
        · exact absurd loadable loading_fault.not_isLoadable
        · exact absurd resolvable resolution_fault.not_isResolvable
  · intro name failed
    rcases meets.of_error failed with loading_fault | resolution_fault
    · exact absurd rfl (loading_fault.ne_unknownUnit name)
    · cases resolution_fault with
      | unknown refers undefined => exact ⟨⟨_, refers⟩, undefined⟩

/--
A table in which two compositions share a part and an early definition of `league` by itself is
replaced, together with some further definitions.
-/
private def voyages (further : List (String × Definition Float)) : DefinitionTable Float where
  prefixes := [("kilo-", 1000)]
  dimensions :=
    [⟨dimensionlessName, [(dimensionlessName, .multiplier 1)]⟩,
      ⟨"time", [("hour", .multiplier 1), ("league", .composed ⟨some ["league"], none⟩)]⟩,
      ⟨"length", [("mile", .multiplier 1), ("league", .multiplier 3),
        ("knot", .composed ⟨some ["mile"], some ["hour"]⟩),
        ("gain", .composed ⟨some ["knot"], some ["hour"]⟩)] ++ further⟩]

/-- The voyages are well-formed as they are, and refused with a composition of unknown fathoms. -/
theorem voyages_wellFormed_without_fathom :
    ((voyages []).IsLoadable ∧ (voyages []).IsResolvable) ∧
      ofTable (voyages [("depth", .composed ⟨some ["fathom"], none⟩)]) =
        .error (.unknownUnit "fathom") ∧
      (∃ other, (voyages [("depth", .composed ⟨some ["fathom"], none⟩)]).Refers other "fathom") ∧
        ¬(voyages [("depth", .composed ⟨some ["fathom"], none⟩)]).Defines "fathom" := by
  have accepted : ∃ registry, ofTable (voyages []) = .ok registry := by
    have computed : (ofTable (voyages [])).isOk = true := by decide +kernel
    cases built : ofTable (voyages []) with
    | error failure =>
        rw [built] at computed
        cases computed
    | ok registry => exact ⟨registry, rfl⟩
  have refused : ofTable (voyages [("depth", .composed ⟨some ["fathom"], none⟩)]) =
      .error (.unknownUnit "fathom") := by
    have computed : (match ofTable (voyages [("depth", .composed ⟨some ["fathom"], none⟩)]) with
        | .ok _ => false
        | .error failure => decide (failure = .unknownUnit "fathom")) = true := by
      decide +kernel
    split at computed
    · cases computed
    · rename_i failure failed
      rw [failed, of_decide_eq_true computed]
  exact ⟨(ofTable_accepts_wellFormed _).1.mp accepted, refused,
    (ofTable_accepts_wellFormed _).2 "fathom" refused⟩

end Registry
end UnitAlgebra
