import AssessmentPlatform.Interleaving.Program

/-!
# Programs run alone

A program that nothing interleaves with is run to its end from one state.
`Triple` is the usual Hoare triple over such runs, with one rule per way of
building a program.
-/

namespace Interleaving.Program

variable {Op : Type} {Resp : Op → Type} {State α β : Type}

/-- Run a program to its end, with `perform` for what a statement does. -/
def run (perform : (op : Op) → State → Resp op × State) :
    Program Op Resp α → State → α × State
  | .ret value, state => (value, state)
  | .perform op next, state =>
      (next (perform op state).1).run perform (perform op state).2

variable {perform : (op : Op) → State → Resp op × State}

theorem run_bind
    (program : Program Op Resp α) (next : α → Program Op Resp β)
    (state : State) :
    (program >>= next).run perform state =
      (next (program.run perform state).1).run perform
        (program.run perform state).2 := by
  induction program generalizing state with
  | ret value => rfl
  | perform op rest inductionHypothesis =>
      exact inductionHypothesis (perform op state).1 (perform op state).2

@[simp] theorem run_pure (value : α) (state : State) :
    (pure value : Program Op Resp α).run perform state = (value, state) :=
  rfl

@[simp] theorem run_ret (value : α) (state : State) :
    (ret value : Program Op Resp α).run perform state = (value, state) :=
  rfl

@[simp] theorem run_statement (op : Op) (state : State) :
    (statement op : Program Op Resp (Resp op)).run perform state =
      perform op state :=
  rfl

theorem All.of_forall {allowed : Op → Prop} (program : Program Op Resp α)
    (always : ∀ op, allowed op) : program.All allowed := by
  induction program with
  | ret value => trivial
  | perform op rest inductionHypothesis => exact ⟨always op, inductionHypothesis⟩

/-- Where every allowed statement does to a wider state what it does to the
part of it that is in view, so does a program of allowed statements. -/
theorem All.run_view {Wide : Type} {allowed : Op → Prop}
    {program : Program Op Resp α}
    {wider : (op : Op) → Wide → Resp op × Wide} (view : Wide → State)
    (all : program.All allowed)
    (agrees : ∀ op, allowed op → ∀ wide,
      Prod.map id view (wider op wide) = perform op (view wide))
    (wide : Wide) :
    Prod.map id view (program.run wider wide) =
      program.run perform (view wide) := by
  induction program generalizing wide with
  | ret value => rfl
  | perform op rest inductionHypothesis =>
      have first := agrees op all.1 wide
      have value : (wider op wide).1 = (perform op (view wide)).1 :=
        congrArg Prod.fst first
      have state : view (wider op wide).2 = (perform op (view wide)).2 :=
        congrArg Prod.snd first
      unfold run
      rw [inductionHypothesis _ (all.2 _), state, value]

/-- From a state with `before`, the run ends with `after`. -/
def Triple (perform : (op : Op) → State → Resp op × State)
    (before : State → Prop) (program : Program Op Resp α)
    (after : α → State → Prop) : Prop :=
  ∀ state, before state →
    after (program.run perform state).1 (program.run perform state).2

variable {before : State → Prop} {after : α → State → Prop}

theorem Triple.bind
    {program : Program Op Resp α} {next : α → Program Op Resp β}
    {middle : α → State → Prop} {last : β → State → Prop}
    (first : Triple perform before program middle)
    (rest : ∀ value, Triple perform (middle value) (next value) last) :
    Triple perform before (program >>= next) last := by
  intro state holds
  rw [run_bind]
  exact rest _ _ (first state holds)

theorem Triple.statement
    {op : Op} {holdsAfter : Resp op → State → Prop}
    (step : ∀ state, before state →
      holdsAfter (perform op state).1 (perform op state).2) :
    Triple perform before (Program.statement op) holdsAfter :=
  step

/-- A program whose statements all keep an invariant keeps it. -/
theorem All.triple {allowed : Op → Prop} {program : Program Op Resp α}
    {holds : State → Prop} (all : program.All allowed)
    (keeps : ∀ op, allowed op → ∀ state, holds state →
      holds (perform op state).2) :
    Triple perform holds program fun _ => holds := by
  induction program with
  | ret value => exact fun _ kept => kept
  | perform op rest inductionHypothesis =>
      intro state kept
      exact inductionHypothesis _ (all.2 _) _ (keeps op all.1 state kept)

end Interleaving.Program
