import Mathlib.Data.List.Induction
import UnitAlgebra.Registry.Catalogue

/-!
# Meanings of names

A catalogue holds under a name what the last registration of that name gives it, and nothing under
a name that is never registered.  So a base unit stands under its own name, and no name has two
meanings.
-/

namespace UnitAlgebra

variable {K : Type} [Scalar K]

/-! ## Registrations -/

namespace Registration

/-- The name that a registration gives a meaning to. -/
def name : Registration K → String
  | .direct _ unit => unit.name
  | .composed name _ => name

/-- The base unit that a registration gives a name to, if any. -/
def baseUnit? : Registration K → Option (BaseUnit K)
  | .direct _ unit => some unit
  | .composed _ _ => none

/-- The composition that a registration gives a name to, if any. -/
def composition? : Registration K → Option Composition
  | .direct _ _ => none
  | .composed _ composition => some composition

theorem name_of_baseUnit? {registration : Registration K} {unit : BaseUnit K}
    (direct : registration.baseUnit? = some unit) : unit.name = registration.name := by
  cases registration with
  | direct dimension other =>
      obtain rfl := Option.some.inj direct
      rfl
  | composed name composition => cases direct

theorem composition?_of_baseUnit? {registration : Registration K} {unit : BaseUnit K}
    (direct : registration.baseUnit? = some unit) : registration.composition? = none := by
  cases registration with
  | direct dimension other => rfl
  | composed name composition => cases direct

/-- The last registration of a name. -/
def last? (registrations : List (Registration K)) (name : String) : Option (Registration K) :=
  registrations.reverse.find? fun registration => registration.name == name

theorem last?_append_singleton (registrations : List (Registration K))
    (registration : Registration K) (name : String) :
    last? (registrations ++ [registration]) name =
      if registration.name = name then some registration else last? registrations name := by
  rw [last?, List.reverse_append, List.reverse_singleton, List.singleton_append, List.find?_cons]
  split
  · rename_i same
    rw [if_pos (beq_iff_eq.mp same)]
  · rename_i other
    rw [if_neg (by simpa using other)]
    rfl

theorem mem_of_last? {registrations : List (Registration K)} {name : String}
    {registration : Registration K} (found : last? registrations name = some registration) :
    registration ∈ registrations ∧ registration.name = name := by
  rw [last?] at found
  have same_name := List.find?_some found
  exact ⟨List.mem_reverse.mp (List.mem_of_find?_eq_some found), by simpa using same_name⟩

end Registration

/-! ## Entering registrations -/

namespace Catalogue

theorem baseUnits_release (catalogue : Catalogue K) (released name : String) :
    (catalogue.release released).baseUnits[name]? =
      if released = name then none else catalogue.baseUnits[name]? := by
  rw [release]
  split
  · rw [forget, Std.TreeMap.getElem?_erase]
    simp
  · rename_i undefined
    split
    · rename_i same
      subst same
      rw [defines, Bool.or_eq_true, not_or] at undefined
      simpa using undefined.1
    · rfl

theorem compositions_release (catalogue : Catalogue K) (released name : String) :
    (catalogue.release released).compositions[name]? =
      if released = name then none else catalogue.compositions[name]? := by
  rw [release]
  split
  · rw [forget, Std.TreeMap.getElem?_erase]
    simp
  · rename_i undefined
    split
    · rename_i same
      subst same
      rw [defines, Bool.or_eq_true, not_or] at undefined
      simpa using undefined.2
    · rfl

theorem baseUnits_enter (catalogue : Catalogue K) (registration : Registration K) (name : String) :
    (catalogue.enter registration).baseUnits[name]? =
      if registration.name = name then registration.baseUnit? else catalogue.baseUnits[name]? := by
  cases registration with
  | direct dimension unit =>
      change ((catalogue.release unit.name).baseUnits.insert unit.name unit)[name]? = _
      rw [Std.TreeMap.getElem?_insert, baseUnits_release]
      by_cases same : unit.name = name
      · simp [Registration.name, Registration.baseUnit?, same]
      · simp [Registration.name, same]
  | composed composed_name composition =>
      change (catalogue.release composed_name).baseUnits[name]? = _
      rw [baseUnits_release]
      rfl

theorem compositions_enter (catalogue : Catalogue K) (registration : Registration K)
    (name : String) :
    (catalogue.enter registration).compositions[name]? =
      if registration.name = name then registration.composition?
      else catalogue.compositions[name]? := by
  cases registration with
  | direct dimension unit =>
      change (catalogue.release unit.name).compositions[name]? = _
      rw [compositions_release]
      rfl
  | composed composed_name composition =>
      change ((catalogue.release composed_name).compositions.insert composed_name
        composition)[name]? = _
      rw [Std.TreeMap.getElem?_insert, compositions_release]
      by_cases same : composed_name = name
      · simp [Registration.name, Registration.composition?, same]
      · simp [Registration.name, same]

theorem ofRegistrations_append_singleton (registrations : List (Registration K))
    (registration : Registration K) :
    ofRegistrations (registrations ++ [registration]) =
      (ofRegistrations registrations).enter registration := by
  rw [ofRegistrations, List.foldl_append]
  rfl

/-- The last registration of a name decides which base unit stands under it. -/
theorem baseUnits_ofRegistrations (registrations : List (Registration K)) (name : String) :
    (ofRegistrations registrations).baseUnits[name]? =
      (Registration.last? registrations name).bind Registration.baseUnit? := by
  induction registrations using List.reverseRecOn with
  | nil => simp [ofRegistrations, empty, Registration.last?]
  | append_singleton front registration induction =>
      rw [ofRegistrations_append_singleton, baseUnits_enter,
        Registration.last?_append_singleton, induction]
      split <;> rfl

theorem compositions_ofRegistrations (registrations : List (Registration K)) (name : String) :
    (ofRegistrations registrations).compositions[name]? =
      (Registration.last? registrations name).bind Registration.composition? := by
  induction registrations using List.reverseRecOn with
  | nil => simp [ofRegistrations, empty, Registration.last?]
  | append_singleton front registration induction =>
      rw [ofRegistrations_append_singleton, compositions_enter,
        Registration.last?_append_singleton, induction]
      split <;> rfl

/-! ## Proper catalogues -/

/-- Base units stand under their own names, and no composition stands beside one. -/
structure IsProper (catalogue : Catalogue K) : Prop where
  /-- A base unit stands under its own name. -/
  name_eq : ∀ {name : String} {unit : BaseUnit K},
    catalogue.baseUnits[name]? = some unit → unit.name = name
  /-- The name of a base unit is not the name of a composition. -/
  not_composed : ∀ {name : String} {unit : BaseUnit K},
    catalogue.baseUnits[name]? = some unit → catalogue.compositions[name]? = none

theorem ofRegistrations_isProper (registrations : List (Registration K)) :
    (ofRegistrations registrations).IsProper := by
  constructor
  · intro name unit found
    rw [baseUnits_ofRegistrations] at found
    obtain ⟨registration, last, direct⟩ := Option.bind_eq_some_iff.mp found
    rw [Registration.name_of_baseUnit? direct]
    exact (Registration.mem_of_last? last).2
  · intro name unit found
    rw [baseUnits_ofRegistrations] at found
    obtain ⟨registration, last, direct⟩ := Option.bind_eq_some_iff.mp found
    rw [compositions_ofRegistrations, last]
    exact Registration.composition?_of_baseUnit? direct

theorem defines_ofRegistrations {registrations : List (Registration K)} {name : String} :
    (ofRegistrations registrations).defines name = true ↔
      ∃ registration, Registration.last? registrations name = some registration := by
  rw [defines, ← Std.TreeMap.isSome_getElem?_eq_contains,
    ← Std.TreeMap.isSome_getElem?_eq_contains, baseUnits_ofRegistrations,
    compositions_ofRegistrations]
  cases Registration.last? registrations name with
  | none => simp
  | some registration =>
      cases registration with
      | direct dimension unit => simp [Registration.baseUnit?]
      | composed composed_name composition => simp [Registration.composition?]

end Catalogue
end UnitAlgebra
