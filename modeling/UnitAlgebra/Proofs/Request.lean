import UnitAlgebra.Proofs.Memo
import UnitAlgebra.Proofs.Outcome

/-!
# Requests to a registry

A registry with a memo is asked for values, units, quantities and conversions, one after the other.
Nothing but the memo passes from a request to the next.  Whatever was asked before, with whatever
outcome, a request is answered as a registry with an empty memo answers it: with the registered
unit, with a refusal, or with the value of the expression.  No registered name is ever remembered.
-/

namespace UnitAlgebra
namespace Registry

/-- What a registry can be asked. -/
inductive Request (K : Type) [Scalar K] where
  /-- The value of a name or an expression. -/
  | value (text : String)
  /-- The value of a name, or of an expression if those are allowed. -/
  | valueWith (text : String) (allowExpression : Bool)
  /-- The bare unit that a name or an expression denotes. -/
  | unit (text : String)
  /-- The quantity that a name or an expression denotes. -/
  | quantity (text : String)
  /-- A quantity in the bare unit that a name or an expression denotes. -/
  | conversion (source : Quantity K) (target : String)

/-- What a registry answers. -/
inductive Response (K : Type) [Scalar K] where
  /-- A value, or why there is none. -/
  | value (outcome : Except UnitError (Value K))
  /-- A bare unit, or why there is none. -/
  | unit (outcome : Except UnitError (CompoundUnit K))
  /-- A quantity, or why there is none. -/
  | quantity (outcome : Except UnitError (Quantity K))

variable {K : Type} [Scalar K]

namespace Request

/-- The text that a request has to resolve. -/
def text : Request K → String
  | .value text => text
  | .valueWith text _ => text
  | .unit text => text
  | .quantity text => text
  | .conversion _ target => target

/-- Whether the text of a request may be an expression. -/
def allowsExpression : Request K → Bool
  | .valueWith _ allowExpression => allowExpression
  | _ => true

/-- The response to a request whose text has been resolved. -/
def respond (request : Request K) (outcome : Except UnitError (Value K)) : Response K :=
  match request with
  | .value _ => .value outcome
  | .valueWith _ _ => .value outcome
  | .unit _ => .unit (outcome.bind Value.toUnit)
  | .quantity _ => .quantity (outcome.map Value.toQuantity)
  | .conversion source _ => .quantity ((outcome.bind Value.toUnit).bind source.convert)

end Request

/-- Answer a request with a memo, and give the memo that is left. -/
def serve (registry : Registry K) (memo : Memo K) : Request K → Response K × Memo K
  | .value text => (registry.answer text memo).map .value id
  | .valueWith text allowExpression =>
      (registry.answerWith text allowExpression memo).map .value id
  | .unit text => (registry.answerUnit text memo).map .unit id
  | .quantity text => (registry.answerQuantity text memo).map .quantity id
  | .conversion source target => (registry.answerConversion source target memo).map .quantity id

/-- Answer requests one after the other, each with the memo that the one before it has left. -/
def serveAll (registry : Registry K) (memo : Memo K) :
    List (Request K) → List (Response K) × Memo K
  | [] => ([], memo)
  | request :: requests =>
      let (response, next) := registry.serve memo request
      let (responses, last) := registry.serveAll next requests
      (response :: responses, last)

/--
What a text resolves to, given whether it may be an expression: the unit that is registered under
it, a refusal, or its value as an expression, if it has one.
-/
inductive Resolves (registry : Registry K) : String → Bool → Except UnitError (Value K) → Prop where
  /-- A registered name stands for its unit. -/
  | name {text : String} {unit : CompoundUnit K} (found : registry.lookup? text = some unit)
      (allowExpression : Bool) : Resolves registry text allowExpression (.ok (.bare unit))
  /-- Any other text is unknown if it may not be an expression. -/
  | unknown {text : String} (unregistered : registry.lookup? text = none) :
      Resolves registry text false (.error (.unknownUnit text))
  /-- Any other text is evaluated if it may be an expression. -/
  | expression {text : String} (unregistered : registry.lookup? text = none) :
      Resolves registry text true (Expression.evaluate registry text)

/-- A response follows from what the text of the request resolves to. -/
def Answers (registry : Registry K) (request : Request K) (response : Response K) : Prop :=
  ∃ outcome, registry.Resolves request.text request.allowsExpression outcome ∧
    response = request.respond outcome

variable {registry : Registry K} {memo : Memo K}

/-! ## One request -/

/-- Every request resolves one text and turns the outcome into its response. -/
theorem serve_eq (registry : Registry K) (memo : Memo K) (request : Request K) :
    registry.serve memo request =
      (registry.answerWith request.text request.allowsExpression memo).map request.respond id := by
  cases request with
  | value text => rfl
  | valueWith text allowExpression => rfl
  | unit text => rfl
  | quantity text => rfl
  | conversion source target => rfl

theorem resolves_resolveWith (registry : Registry K) (text : String) (allowExpression : Bool) :
    registry.Resolves text allowExpression (registry.resolveWith text allowExpression) := by
  rw [resolveWith]
  split
  · rename_i unit found
    exact .name found allowExpression
  · rename_i unregistered
    cases allowExpression with
    | false => exact .unknown unregistered
    | true => exact .expression unregistered

/-- A memo that remembers the values of expressions that are no names, and nothing else. -/
def Memo.IsInvisible (registry : Registry K) (memo : Memo K) : Prop :=
  ∀ {text : String} {value : Value K}, memo[text]? = some value →
    registry.lookup? text = none ∧ Expression.evaluate registry text = .ok value

theorem Memo.isInvisible_empty (registry : Registry K) : Memo.IsInvisible registry ∅ := by
  intro text value remembered
  simp at remembered

theorem Memo.IsInvisible.isFaithful (invisible : memo.IsInvisible registry) :
    memo.IsFaithful registry := fun remembered => (invisible remembered).2

/-- With an invisible memo a request is answered by what its text resolves to without a memo. -/
theorem serve_fst (invisible : memo.IsInvisible registry) (request : Request K) :
    (registry.serve memo request).1 =
      request.respond (registry.resolveWith request.text request.allowsExpression) := by
  rw [serve_eq, Prod.map_fst, answerWith_fst invisible.isFaithful]

theorem isInvisible_serve (invisible : memo.IsInvisible registry) (request : Request K) :
    (registry.serve memo request).2.IsInvisible registry := by
  rw [serve_eq, Prod.map_snd]
  exact forall_answerWith invisible (fun unregistered evaluated => ⟨unregistered, evaluated⟩)
    request.text request.allowsExpression

/-! ## Histories of requests -/

theorem serveAll_fst (invisible : memo.IsInvisible registry) (requests : List (Request K)) :
    (registry.serveAll memo requests).1 = requests.map fun request =>
      request.respond (registry.resolveWith request.text request.allowsExpression) := by
  induction requests generalizing memo with
  | nil => rfl
  | cons request requests induction =>
      rw [serveAll, List.map_cons, ← serve_fst invisible request,
        ← induction (isInvisible_serve invisible request)]

theorem isInvisible_serveAll (invisible : memo.IsInvisible registry)
    (requests : List (Request K)) :
    (registry.serveAll memo requests).2.IsInvisible registry := by
  induction requests generalizing memo with
  | nil => exact invisible
  | cons request requests induction => exact induction (isInvisible_serve invisible request)

/--
Whatever has been asked before, a request is answered as with an empty memo, by what its text
resolves to.  What is remembered after any requests are values of expressions that are no names.
-/
theorem serveAll_forgets_history (registry : Registry K) (requests : List (Request K)) :
    (registry.serveAll ∅ requests).1 =
        requests.map (fun request => (registry.serve ∅ request).1) ∧
      (∀ request, registry.Answers request (registry.serve ∅ request).1) ∧
      ∀ {text : String} {value : Value K},
        (registry.serveAll ∅ requests).2[text]? = some value →
          registry.lookup? text = none ∧ Expression.evaluate registry text = .ok value := by
  have invisible : Memo.IsInvisible registry ∅ := Memo.isInvisible_empty registry
  refine ⟨?_, fun request => ?_, isInvisible_serveAll invisible requests⟩
  · rw [serveAll_fst invisible]
    exact List.map_congr_left fun request _ => (serve_fst invisible request).symm
  · exact ⟨_, resolves_resolveWith registry _ _, serve_fst invisible request⟩

/-- A table of lengths and times. -/
private def walks : DefinitionTable Float where
  prefixes := [("kilo-", 1000)]
  dimensions :=
    [⟨dimensionlessName, [(dimensionlessName, .multiplier 1)]⟩,
      ⟨"length", [("meter", .multiplier 1)]⟩, ⟨"time", [("second", .multiplier 1)]⟩]

/-- A value, a name, a refusal of what is remembered by then, a failed conversion, a repetition. -/
private def walkRequests : List (Request Float) :=
  [.value "meter/second", .unit "kilometer", .valueWith "meter/second" false,
    .conversion ⟨.scalar 2, .ofSides [] [] .dimensionless⟩ "kilometer/second", .value "meter/",
    .quantity "meter/second"]

/-- The two quotients are remembered; one of them was refused all the same. -/
theorem walkRequests_forget_history :
    ∃ registry speed, ofTable walks = .ok registry ∧
      (registry.serveAll ∅ walkRequests).2.keys = ["kilometer/second", "meter/second"] ∧
      (registry.serveAll ∅ walkRequests).2["meter/second"]? = some speed ∧
      Expression.evaluate registry "meter/second" = .ok speed ∧
      (registry.serveAll ∅ walkRequests).1 =
        walkRequests.map (fun request => (registry.serve ∅ request).1) ∧
      (registry.serve ∅ (.valueWith "meter/second" false)).1 =
        .value (.error (.unknownUnit "meter/second")) := by
  have computed : Outcome.passes (ofTable walks) (fun registry =>
      decide ((registry.serveAll ∅ walkRequests).2.keys = ["kilometer/second", "meter/second"]) &&
        (registry.serveAll ∅ walkRequests).2["meter/second"]?.isSome) = true := by decide +kernel
  obtain ⟨registry, built, tests⟩ := Outcome.exists_of_passes computed
  obtain ⟨keys_eq, remembered⟩ := Bool.and_eq_true_iff.mp tests
  obtain ⟨speed, found⟩ := Option.isSome_iff_exists.mp remembered
  obtain ⟨responses_eq, -, invisible⟩ := serveAll_forgets_history registry walkRequests
  obtain ⟨unregistered, evaluated⟩ := invisible found
  refine ⟨registry, speed, built, of_decide_eq_true keys_eq, found, evaluated, responses_eq, ?_⟩
  rw [serve, answerWith, unregistered]
  rfl

end Registry
end UnitAlgebra
