import Mathlib.Data.List.Forall2
import Mathlib.Logic.Basic

/-!
# Requests that may be refused

A handler that raises `HTTPException` is an `Except` computation.  The lemmas
read a successful run backwards, statement by statement.
-/

namespace AssessmentPlatform

/-- FastAPI's `HTTPException`: the request is refused. -/
structure HTTPException where
  statusCode : Nat
  detail : String
  deriving DecidableEq, Repr

namespace Refusals

variable {Error Value Result : Type}

theorem bind_eq_ok {first : Except Error Value}
    {next : Value → Except Error Result} {result : Result} :
    (first >>= next) = .ok result ↔
      ∃ value, first = .ok value ∧ next value = .ok result := by
  cases first with
  | error refused => simp [bind, Except.bind]
  | ok value => simp [bind, Except.bind]

/-- What follows a step that went through runs on its value. -/
@[simp] theorem ok_bind (value : Value) (next : Value → Except Error Result) :
    (Except.ok value >>= next) = next value :=
  rfl

@[simp] theorem error_bind (raised : Error)
    (next : Value → Except Error Result) :
    ((Except.error raised : Except Error Value) >>= next) =
      Except.error raised :=
  rfl

@[simp] theorem pure_eq_ok {value result : Value} :
    (pure value : Except Error Value) = .ok result ↔ value = result := by
  simp [pure, Except.pure]

@[simp] theorem throw_ne_ok {refused : Error} {result : Value} :
    (throw refused : Except Error Value) ≠ .ok result := by
  simp [throw, throwThe, MonadExceptOf.throw]

/-- What follows a raised exception does not run. -/
theorem throw_bind {refused : Error} {next : Value → Except Error Result} :
    (throw refused >>= next) = throw refused :=
  rfl

/-- A check that raises unless its condition holds. -/
theorem ite_throw_eq_ok {condition : Prop} [Decidable condition]
    {refused : Error} {next : Except Error Value} {result : Value} :
    (if condition then throw refused else next) = .ok result ↔
      ¬condition ∧ next = .ok result := by
  by_cases holds : condition <;> simp [holds]

/-- A loop that collects results: none of its rounds raised. -/
theorem mapM_eq_ok {body : Value → Except Error Result} {inputs : List Value}
    {results : List Result} (ran : inputs.mapM body = .ok results) :
    List.Forall₂ (fun input result => body input = .ok result) inputs
      results := by
  induction inputs generalizing results with
  | nil =>
      rw [List.mapM_nil, pure_eq_ok] at ran
      rw [← ran]
      exact .nil
  | cons input rest inductionHypothesis =>
      simp only [List.mapM_cons, bind_eq_ok, pure_eq_ok] at ran
      obtain ⟨result, first, others, collected, rfl⟩ := ran
      exact .cons first (inductionHypothesis collected)

end Refusals

end AssessmentPlatform
