import AssessmentPlatform.Interleaving.Program
import Mathlib.Logic.Function.Basic
import Mathlib.Logic.Relation

/-!
# Interleaved runs

A system runs one program per thread over one shared store.  A step picks any
thread and executes its next statement atomically; a statement that cannot go
ahead (it waits for a lock) simply has no step.  Every thread is present from
the start, so a run that never schedules a thread is a run without it.

A history extends the store by a component that statements write and never
read: it records what happened without changing what can happen.
-/

namespace Interleaving

/-- What the statements do, and which program each thread runs.  `Input` is
what the surroundings supply to a statement: the answer of a remote party. -/
structure System
    (Tid Op : Type) (Resp : Op → Type) (Input Out Store : Type) where
  exec : (op : Op) → Tid → Input → Store → Option (Resp op × Store)
  program : Tid → Program Op Resp Out

/-- The shared store and what every thread still has to do. -/
structure Config (Tid Op : Type) (Resp : Op → Type) (Out Store : Type) where
  store : Store
  code : Tid → Program Op Resp Out

variable {Tid Op Input Out Store : Type} {Resp : Op → Type}

/-- The thread has finished and returned `value`. -/
def Config.Returned
    (config : Config Tid Op Resp Out Store) (tid : Tid) (value : Out) : Prop :=
  config.code tid = .ret value

/-- The thread has nothing left to do. -/
def Config.Finished
    (config : Config Tid Op Resp Out Store) (tid : Tid) : Prop :=
  ∃ value, config.Returned tid value

/-- What the thread has returned, if it has. -/
def Config.result
    (config : Config Tid Op Resp Out Store) (tid : Tid) : Option Out :=
  match config.code tid with
  | .ret value => some value
  | .perform .. => none

theorem Config.result_eq_some_iff
    {config : Config Tid Op Resp Out Store} {tid : Tid} {value : Out} :
    config.result tid = some value ↔ config.Returned tid value := by
  unfold Config.result Config.Returned
  cases config.code tid <;> simp

/-- Whether the thread has nothing left to do. -/
def Config.returned
    (config : Config Tid Op Resp Out Store) (tid : Tid) : Bool :=
  match config.code tid with
  | .ret _ => true
  | .perform .. => false

theorem Config.finished_of_returned
    {config : Config Tid Op Resp Out Store} {tid : Tid}
    (returned : config.returned tid) :
    config.Finished tid := by
  unfold Config.returned at returned
  cases code : config.code tid with
  | ret value => exact ⟨value, code⟩
  | perform op next =>
      rw [code] at returned
      cases returned

/-- Every thread has finished. -/
def Config.Quiescent (config : Config Tid Op Resp Out Store) : Prop :=
  ∀ tid, config.Finished tid

namespace System

section Runs

variable [DecidableEq Tid]

/-- Thread `tid` executes its next statement.  `admissible` restricts the runs
that are considered: it sees the thread, the statement and the store before. -/
inductive Step
    (system : System Tid Op Resp Input Out Store)
    (admissible : Tid → Op → Store → Prop) (tid : Tid)
    (config : Config Tid Op Resp Out Store) :
    Config Tid Op Resp Out Store → Prop
  | statement
      {op : Op} {next : Resp op → Program Op Resp Out}
      {input : Input} {resp : Resp op} {store : Store}
      (code : config.code tid = .perform op next)
      (allowed : admissible tid op config.store)
      (executes :
        system.exec op tid input config.store = some (resp, store)) :
      Step system admissible tid config
        ⟨store, Function.update config.code tid (next resp)⟩

/-- The configuration in which no thread has taken a step. -/
def start
    (system : System Tid Op Resp Input Out Store) (store : Store) :
    Config Tid Op Resp Out Store :=
  ⟨store, system.program⟩

/-- `target` is reached from `source` by some interleaving. -/
def Reaches
    (system : System Tid Op Resp Input Out Store)
    (admissible : Tid → Op → Store → Prop)
    (source target : Config Tid Op Resp Out Store) : Prop :=
  Relation.ReflTransGen
    (fun before after =>
      ∃ tid, system.Step admissible tid before after)
    source target

/-- Every run is admitted. -/
def anyRun : Tid → Op → Store → Prop :=
  fun _ _ _ => True

/-- Execute the next statement of one thread with the given input, where
`permits` lets it. -/
def advance
    (system : System Tid Op Resp Input Out Store)
    (permits : Tid → Op → Store → Bool)
    (config : Config Tid Op Resp Out Store) (tid : Tid) (input : Input) :
    Option (Config Tid Op Resp Out Store) :=
  match config.code tid with
  | .ret _ => none
  | .perform op next =>
      if permits tid op config.store then
        match system.exec op tid input config.store with
        | none => none
        | some (resp, store) =>
            some ⟨store, Function.update config.code tid (next resp)⟩
      else
        none

/-- Execute a schedule: which thread moves, and with which input. -/
def runSchedule
    (system : System Tid Op Resp Input Out Store)
    (permits : Tid → Op → Store → Bool) :
    Config Tid Op Resp Out Store → List (Tid × Input) →
      Option (Config Tid Op Resp Out Store)
  | config, [] => some config
  | config, (tid, input) :: rest =>
      (system.advance permits config tid input).bind fun next =>
        system.runSchedule permits next rest

variable {system : System Tid Op Resp Input Out Store}
variable {permits : Tid → Op → Store → Bool}
variable {admissible : Tid → Op → Store → Prop}
variable {config target : Config Tid Op Resp Out Store}

theorem Step.mono
    {wider : Tid → Op → Store → Prop} {tid : Tid}
    (step : system.Step admissible tid config target)
    (widen : ∀ tid op store, admissible tid op store → wider tid op store) :
    system.Step wider tid config target := by
  cases step with
  | statement code allowed executes =>
      exact Step.statement code (widen _ _ _ allowed) executes

theorem Reaches.mono
    {wider : Tid → Op → Store → Prop}
    (reaches : system.Reaches admissible config target)
    (widen : ∀ tid op store, admissible tid op store → wider tid op store) :
    system.Reaches wider config target := by
  induction reaches with
  | refl =>
      exact Relation.ReflTransGen.refl
  | tail _ step inductionHypothesis =>
      obtain ⟨tid, step⟩ := step
      exact inductionHypothesis.tail ⟨tid, step.mono widen⟩

/-- A thread that has returned takes no further step. -/
theorem Reaches.returned
    {tid : Tid} {value : Out}
    (reaches : system.Reaches admissible config target)
    (returned : config.Returned tid value) :
    target.Returned tid value := by
  induction reaches with
  | refl =>
      exact returned
  | tail _ step inductionHypothesis =>
      obtain ⟨other, step⟩ := step
      cases step with
      | statement code allowed executes =>
          by_cases same : tid = other
          · subst same
            have isRet := inductionHypothesis
            rw [Config.Returned, code] at isRet
            cases isRet
          · exact
              (Function.update_of_ne same _ _).trans inductionHypothesis

theorem step_of_advance
    {tid : Tid} {input : Input}
    (sound :
      ∀ tid op store, permits tid op store → admissible tid op store)
    (advanced : system.advance permits config tid input = some target) :
    system.Step admissible tid config target := by
  unfold advance at advanced
  split at advanced
  · cases advanced
  · next op next code =>
      split at advanced
      · next permitted =>
          split at advanced
          · cases advanced
          · next resp store executes =>
              cases advanced
              exact
                Step.statement code (sound tid op config.store permitted)
                  executes
      · cases advanced

theorem reaches_of_runSchedule
    {schedule : List (Tid × Input)}
    (sound :
      ∀ tid op store, permits tid op store → admissible tid op store)
    (ran : system.runSchedule permits config schedule = some target) :
    system.Reaches admissible config target := by
  induction schedule generalizing config with
  | nil =>
      cases ran
      exact Relation.ReflTransGen.refl
  | cons choice rest inductionHypothesis =>
      obtain ⟨tid, input⟩ := choice
      simp only [runSchedule, Option.bind_eq_some_iff] at ran
      obtain ⟨middle, advanced, restRan⟩ := ran
      exact
        Relation.ReflTransGen.head ⟨tid, step_of_advance sound advanced⟩
          (inductionHypothesis restRan)

/-- A schedule that runs shows a reachable configuration. -/
theorem exists_of_runSchedule
    {schedule : List (Tid × Input)}
    {check : Config Tid Op Resp Out Store → Bool}
    (sound :
      ∀ tid op store, permits tid op store → admissible tid op store)
    (ran : (system.runSchedule permits config schedule).any check) :
    ∃ target, system.Reaches admissible config target ∧ check target := by
  obtain ⟨target, ran, checked⟩ := (Option.any_eq_true _ _).mp ran
  exact ⟨target, reaches_of_runSchedule sound ran, checked⟩

/-- A schedule that runs, and one step more. -/
theorem exists_step_of_runSchedule
    {schedule : List (Tid × Input)} {tid : Tid} {input : Input}
    {check :
      Config Tid Op Resp Out Store → Config Tid Op Resp Out Store → Bool}
    (sound :
      ∀ tid op store, permits tid op store → admissible tid op store)
    (ran :
      (system.runSchedule permits config schedule).any fun before =>
        (system.advance permits before tid input).any (check before)) :
    ∃ before after, system.Reaches admissible config before ∧
      system.Step admissible tid before after ∧ check before after := by
  obtain ⟨before, ran, stepped⟩ := (Option.any_eq_true _ _).mp ran
  obtain ⟨after, advanced, checked⟩ := (Option.any_eq_true _ _).mp stepped
  exact
    ⟨before, after, reaches_of_runSchedule sound ran,
      step_of_advance sound advanced, checked⟩

/-- A configuration is quiescent if the first threads have returned and the
other ones have nothing to do. -/
theorem Reaches.quiescent
    {system : System Nat Op Resp Input Out Store}
    {admissible : Nat → Op → Store → Prop} {store : Store} {count : Nat}
    {target : Config Nat Op Resp Out Store}
    (reaches : system.Reaches admissible (system.start store) target)
    (returned : (List.range count).all target.returned)
    (idle : ∀ tid, count ≤ tid → (system.start store).Finished tid) :
    target.Quiescent := by
  intro tid
  by_cases small : tid < count
  · have here := List.all_eq_true.mp returned tid (List.mem_range.mpr small)
    exact Config.finished_of_returned here
  · obtain ⟨value, isIdle⟩ := idle tid (Nat.le_of_not_lt small)
    exact ⟨value, Reaches.returned reaches isIdle⟩

end Runs

section Histories

variable {History : Type}

/-- The system whose store also keeps a history, brought up to date by `record`
after each statement from the response and the stores before and after. -/
def withHistory
    (system : System Tid Op Resp Input Out Store)
    (record :
      (op : Op) → Tid → Resp op → Store → Store → History → History) :
    System Tid Op Resp Input Out (Store × History) where
  exec := fun op tid input recorded =>
    (system.exec op tid input recorded.1).map fun (resp, store) =>
      (resp, store, record op tid resp recorded.1 store recorded.2)
  program := system.program

variable [DecidableEq Tid]
variable {system : System Tid Op Resp Input Out Store}
variable {admissible : Tid → Op → Store → Prop}

/-- Runs of the extended system restricted by a condition that does not see
the history. -/
def ignoringHistory
    (admissible : Tid → Op → Store → Prop) :
    Tid → Op → Store × History → Prop :=
  fun tid op recorded => admissible tid op recorded.1

/-- The configuration with a history added to its store. -/
def recorded
    (config : Config Tid Op Resp Out Store) (history : History) :
    Config Tid Op Resp Out (Store × History) :=
  ⟨(config.store, history), config.code⟩

theorem Step.withHistory
    {config after : Config Tid Op Resp Out Store} {tid : Tid}
    (record :
      (op : Op) → Tid → Resp op → Store → Store → History → History)
    (step : system.Step admissible tid config after) (history : History) :
    ∃ later,
      (system.withHistory record).Step (ignoringHistory admissible) tid
        (recorded config history) (recorded after later) := by
  cases step with
  | @statement op next input resp store code allowed executes =>
      have executesRecorded :
          (system.withHistory record).exec op tid input
              (config.store, history) =
            some
              (resp, store, record op tid resp config.store store history) := by
        simp [System.withHistory, executes]
      exact ⟨_, Step.statement code allowed executesRecorded⟩

/-- Every run is the run of the extended system with some history. -/
theorem Reaches.withHistory
    {source target : Config Tid Op Resp Out Store}
    (record :
      (op : Op) → Tid → Resp op → Store → Store → History → History)
    (reaches : system.Reaches admissible source target) (history : History) :
    ∃ later,
      (system.withHistory record).Reaches (ignoringHistory admissible)
        (recorded source history) (recorded target later) := by
  induction reaches with
  | refl =>
      exact ⟨history, Relation.ReflTransGen.refl⟩
  | tail _ step inductionHypothesis =>
      obtain ⟨tid, step⟩ := step
      obtain ⟨middle, reached⟩ := inductionHypothesis
      obtain ⟨later, recordedStep⟩ := Step.withHistory record step middle
      exact ⟨later, reached.tail ⟨tid, recordedStep⟩⟩

end Histories

end System

end Interleaving
