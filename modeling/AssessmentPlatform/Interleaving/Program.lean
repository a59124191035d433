import Mathlib.Init

/-!
# Sequential programs as trees of statements

A program issues one statement at a time and continues with the response.
Statements are plain data of a type `Op`; `Resp op` is the type of what the
statement `op` answers.  What a statement does to a store is left to the
system that runs the program.
-/

namespace Interleaving

/-- A program that issues statements of `Op` and returns an `α`. -/
inductive Program (Op : Type) (Resp : Op → Type) (α : Type) where
  | ret (value : α)
  | perform (op : Op) (next : Resp op → Program Op Resp α)

namespace Program

variable {Op : Type} {Resp : Op → Type} {α β γ : Type}

/-- Run `program`, then continue with what it returned. -/
def bind :
    Program Op Resp α → (α → Program Op Resp β) → Program Op Resp β
  | .ret value, next => next value
  | .perform op rest, next =>
      .perform op fun resp => (rest resp).bind next

/-- The program that issues one statement and returns its response. -/
def statement (op : Op) : Program Op Resp (Resp op) :=
  .perform op .ret

instance : Monad (Program Op Resp) where
  pure := .ret
  bind := bind

theorem pure_eq (value : α) :
    (pure value : Program Op Resp α) = .ret value :=
  rfl

@[simp]
theorem ret_bind (value : α) (next : α → Program Op Resp β) :
    (ret value : Program Op Resp α).bind next = next value :=
  rfl

@[simp]
theorem perform_bind
    (op : Op) (rest : Resp op → Program Op Resp α)
    (next : α → Program Op Resp β) :
    (perform op rest).bind next =
      perform op fun resp => (rest resp).bind next :=
  rfl

@[simp]
theorem statement_bind
    (op : Op) (next : Resp op → Program Op Resp β) :
    (statement op : Program Op Resp (Resp op)).bind next =
      perform op next :=
  rfl

/-- Every statement the program can reach, whatever the responses, satisfies
`allowed`. -/
def All (allowed : Op → Prop) : Program Op Resp α → Prop
  | .ret _ => True
  | .perform op next => allowed op ∧ ∀ resp, (next resp).All allowed

@[simp]
theorem all_ret (allowed : Op → Prop) (value : α) :
    (ret value : Program Op Resp α).All allowed ↔ True :=
  Iff.rfl

@[simp]
theorem all_perform
    (allowed : Op → Prop) (op : Op) (next : Resp op → Program Op Resp α) :
    (perform op next).All allowed ↔
      allowed op ∧ ∀ resp, (next resp).All allowed :=
  Iff.rfl

@[simp]
theorem all_statement (allowed : Op → Prop) (op : Op) :
    (statement op : Program Op Resp (Resp op)).All allowed ↔ allowed op := by
  simp [statement]

theorem All.pure (allowed : Op → Prop) (value : α) :
    (pure value : Program Op Resp α).All allowed :=
  trivial

theorem All.statement
    {allowed : Op → Prop} {op : Op} {next : Resp op → Program Op Resp α}
    (here : allowed op) (rest : ∀ resp, (next resp).All allowed) :
    (Program.statement op >>= next).All allowed :=
  ⟨here, rest⟩

theorem All.bind
    {allowed : Op → Prop} {program : Program Op Resp α}
    {next : α → Program Op Resp β}
    (first : program.All allowed)
    (rest : ∀ value, (next value).All allowed) :
    (program >>= next).All allowed := by
  induction program with
  | ret value =>
      exact rest value
  | perform op continuation inductionHypothesis =>
      exact ⟨first.1, fun resp => inductionHypothesis resp (first.2 resp)⟩

theorem All.mono
    {allowed wider : Op → Prop} {program : Program Op Resp α}
    (all : program.All allowed)
    (widen : ∀ op, allowed op → wider op) :
    program.All wider := by
  induction program with
  | ret value =>
      trivial
  | perform op continuation inductionHypothesis =>
      exact
        ⟨widen op all.1, fun resp => inductionHypothesis resp (all.2 resp)⟩

end Program

end Interleaving
