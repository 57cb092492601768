import Mathlib.Data.List.Induction

/-!
# Outcomes

A computation in several steps that may fail gives a result exactly if every step does.
-/

namespace UnitAlgebra
namespace Outcome

/-- A step that gave a result gave it from a result of what came before. -/
theorem exists_of_bind_eq_ok {Failure First Second : Type} {first : Except Failure First}
    {next : First → Except Failure Second} {result : Second} (given : first >>= next = .ok result) :
    ∃ value, first = .ok value ∧ next value = .ok result := by
  cases first with
  | error failure => cases given
  | ok value => exact ⟨value, rfl, given⟩

theorem exists_of_map_eq_ok {Failure First Second : Type} {first : Except Failure First}
    {function : First → Second} {result : Second} (given : function <$> first = .ok result) :
    ∃ value, first = .ok value ∧ function value = result := by
  cases first with
  | error failure => cases given
  | ok value => exact ⟨value, rfl, Except.ok.inj given⟩

theorem error_of_map_eq_error {Failure First Second : Type} {first : Except Failure First}
    {function : First → Second} {failure : Failure} (failed : function <$> first = .error failure) :
    first = .error failure := by
  cases first with
  | error other => exact congrArg Except.error (Except.error.inj failed)
  | ok value => cases failed

/-- Whether an outcome is a result that passes a test. -/
def passes {Failure Result : Type} (outcome : Except Failure Result) (test : Result → Bool) :
    Bool :=
  match outcome with
  | .ok result => test result
  | .error _ => false

theorem exists_of_passes {Failure Result : Type} {outcome : Except Failure Result}
    {test : Result → Bool} (passed : passes outcome test = true) :
    ∃ result, outcome = .ok result ∧ test result = true := by
  cases outcome with
  | error failure => cases passed
  | ok result => exact ⟨result, rfl, passed⟩

theorem mapM_cons_eq_ok {Failure First Second : Type} {step : First → Except Failure Second}
    {first : First} {rest : List First} {result : Second} {results : List Second}
    (first_given : step first = .ok result) (rest_given : rest.mapM step = .ok results) :
    (first :: rest).mapM step = .ok (result :: results) := by
  rw [List.mapM_cons, first_given, rest_given]
  rfl

theorem mapM_append_eq_ok {Failure First Second : Type} {step : First → Except Failure Second}
    {front back : List First} {front_results back_results : List Second}
    (front_given : front.mapM step = .ok front_results)
    (back_given : back.mapM step = .ok back_results) :
    (front ++ back).mapM step = .ok (front_results ++ back_results) := by
  rw [List.mapM_append, front_given, back_given]
  rfl

theorem exists_of_mem_mapM {Failure First Second : Type} {step : First → Except Failure Second}
    {items : List First} {results : List Second} (given : items.mapM step = .ok results)
    {result : Second} (member : result ∈ results) : ∃ item ∈ items, step item = .ok result := by
  induction items generalizing results with
  | nil =>
      obtain rfl := Except.ok.inj given
      cases member
  | cons item items induction =>
      rw [List.mapM_cons] at given
      obtain ⟨first, first_given, others_given⟩ := exists_of_bind_eq_ok given
      obtain ⟨rest, rest_given, results_eq⟩ := exists_of_bind_eq_ok others_given
      obtain rfl : first :: rest = results := Except.ok.inj results_eq
      rcases List.mem_cons.mp member with rfl | later
      · exact ⟨item, List.mem_cons_self, first_given⟩
      · obtain ⟨other, other_member, other_given⟩ := induction rest_given later
        exact ⟨other, List.mem_cons_of_mem item other_member, other_given⟩

/-- What every step preserves holds after all of them. -/
theorem foldlM_preserves {Failure State Item : Type} {step : State → Item → Except Failure State}
    (property : State → Prop) {items : List Item} {before after : State}
    (preserved : ∀ item ∈ items, ∀ before after, property before → step before item = .ok after →
      property after)
    (holds : property before) (ran : items.foldlM step before = .ok after) : property after := by
  induction items generalizing before with
  | nil =>
      obtain rfl := Except.ok.inj ran
      exact holds
  | cons item items induction =>
      rw [List.foldlM_cons] at ran
      obtain ⟨next, first_ran, rest_ran⟩ := exists_of_bind_eq_ok ran
      have next_holds := preserved item List.mem_cons_self before next holds first_ran
      exact induction (fun other member => preserved other (List.mem_cons_of_mem item member))
        next_holds rest_ran

/-- Two computations that fail with the same error or give related results. -/
inductive Agree {Failure First Second : Type} (related : First → Second → Prop) :
    Except Failure First → Except Failure Second → Prop where
  /-- Both give a result. -/
  | ok {left : First} {right : Second} (results : related left right) :
      Agree related (.ok left) (.ok right)
  /-- Both fail. -/
  | error (failure : Failure) : Agree related (.error failure) (.error failure)

theorem Agree.map {Failure First Second First' Second' : Type} {related : First → Second → Prop}
    {related' : First' → Second' → Prop} {first : Except Failure First}
    {second : Except Failure Second} {f : First → First'} {g : Second → Second'}
    (agree : Agree related first second)
    (carries : ∀ {left right}, related left right → related' (f left) (g right)) :
    Agree related' (do return f (← first)) (do return g (← second)) := by
  cases agree with
  | ok results => exact .ok (carries results)
  | error failure => exact .error failure

/-- Two computations that both fail, whatever their errors say, or give related results. -/
inductive Alike {Failure First Second : Type} (related : First → Second → Prop) :
    Except Failure First → Except Failure Second → Prop where
  /-- Both give a result. -/
  | ok {left : First} {right : Second} (results : related left right) :
      Alike related (.ok left) (.ok right)
  /-- Both fail. -/
  | error (failure failure' : Failure) : Alike related (.error failure) (.error failure')

/-- Steps that go on alike from related results end alike. -/
theorem Alike.bind {Failure First Second First' Second' : Type} {related : First → Second → Prop}
    {related' : First' → Second' → Prop} {first : Except Failure First}
    {second : Except Failure Second} {next : First → Except Failure First'}
    {next' : Second → Except Failure Second'} (alike : Alike related first second)
    (goes_on : ∀ {left right}, related left right → Alike related' (next left) (next' right)) :
    Alike related' (first >>= next) (second >>= next') := by
  cases alike with
  | ok results => exact goes_on results
  | error failure failure' => exact .error failure failure'

/-- A computation whose failures have one property and whose results have another. -/
inductive Meets {Failure Result : Type} (fails : Failure → Prop) (gives : Result → Prop) :
    Except Failure Result → Prop where
  /-- The result has its property. -/
  | ok {result : Result} (given : gives result) : Meets fails gives (.ok result)
  /-- The failure has its property. -/
  | error {failure : Failure} (failed : fails failure) : Meets fails gives (.error failure)

namespace Meets

variable {Failure First Second State Item : Type} {fails : Failure → Prop}

theorem of_ok {gives : First → Prop} {outcome : Except Failure First} {result : First}
    (meets : Meets fails gives outcome) (given : outcome = .ok result) : gives result := by
  subst given
  cases meets with
  | ok result_given => exact result_given

theorem of_error {gives : First → Prop} {outcome : Except Failure First} {failure : Failure}
    (meets : Meets fails gives outcome) (failed : outcome = .error failure) : fails failure := by
  subst failed
  cases meets with
  | error failure_failed => exact failure_failed

theorem imp {fails' : Failure → Prop} {gives gives' : First → Prop}
    {outcome : Except Failure First} (meets : Meets fails gives outcome)
    (of_failure : ∀ {failure}, fails failure → fails' failure)
    (of_result : ∀ {result}, gives result → gives' result) : Meets fails' gives' outcome := by
  cases meets with
  | ok given => exact .ok (of_result given)
  | error failed => exact .error (of_failure failed)

theorem bind {middle : First → Prop} {gives : Second → Prop} {first : Except Failure First}
    {next : First → Except Failure Second} (first_meets : Meets fails middle first)
    (next_meets : ∀ value, middle value → Meets fails gives (next value)) :
    Meets fails gives (first >>= next) := by
  cases first_meets with
  | ok given => exact next_meets _ given
  | error failed => exact .error failed

theorem mapM {passes : Item → Prop} {gives : Item → First → Prop}
    {step : Item → Except Failure First} {items : List Item}
    (each : ∀ item ∈ items,
      Meets fails (fun result => passes item ∧ gives item result) (step item)) :
    Meets fails (fun results => (∀ item ∈ items, passes item) ∧ List.Forall₂ gives items results)
      (items.mapM step) := by
  induction items with
  | nil => exact .ok ⟨by simp, .nil⟩
  | cons item items induction =>
      rw [List.mapM_cons]
      refine (each item List.mem_cons_self).bind fun result ⟨passed, given⟩ => ?_
      refine (induction fun other member => each other (List.mem_cons_of_mem item member)).bind
        fun results ⟨rest_passed, rest_given⟩ => ?_
      exact .ok ⟨List.forall_mem_cons.mpr ⟨passed, rest_passed⟩, .cons given rest_given⟩

theorem forM {passes : Item → Prop} {check : Item → Except Failure Unit} {items : List Item}
    (each : ∀ item ∈ items, Meets fails (fun _ => passes item) (check item)) :
    Meets fails (fun _ => ∀ item ∈ items, passes item) (items.forM check) := by
  induction items with
  | nil => exact .ok (by simp)
  | cons item items induction =>
      rw [List.forM]
      refine (each item List.mem_cons_self).bind fun _ passed => ?_
      refine (induction fun other member => each other (List.mem_cons_of_mem item member)).imp
        id fun rest_passed => ?_
      exact List.forall_mem_cons.mpr ⟨passed, rest_passed⟩

/-- What every step carries from the items before it to those up to it holds after all of them. -/
theorem foldlM (gives : List Item → State → Prop) {step : State → Item → Except Failure State}
    {items : List Item} {before : State} (start : gives [] before)
    (each : ∀ done item state, item ∈ items → gives done state →
      Meets fails (gives (done ++ [item])) (step state item)) :
    Meets fails (gives items) (items.foldlM step before) := by
  induction items using List.reverseRecOn with
  | nil => exact .ok start
  | append_singleton front item induction =>
      rw [List.foldlM_append]
      refine (induction fun done other state member =>
        each done other state (List.mem_append_left _ member)).bind fun state reached => ?_
      simpa using each front item state (by simp) reached

end Meets

end Outcome
end UnitAlgebra
