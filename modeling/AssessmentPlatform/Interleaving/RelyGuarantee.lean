import AssessmentPlatform.Interleaving.System

/-!
# Rely-guarantee reasoning for interleaved programs

A contract names an invariant of the store and what each step of a thread
guarantees; a thread relies on the steps that others guarantee.  `Safe` says
that a program, started in a store and interfered with before every statement,
keeps its guarantee to the end; triples package it as pre- and postconditions.
The soundness theorem turns one triple for each thread's program into facts
about every configuration of every run.
-/

namespace Interleaving

variable {Tid Op Input Out Store : Type} {Resp : Op → Type}

/-- The invariant and the guarantee of one argument, and what holds of a thread
as long as it has a statement left to execute. -/
structure Contract (Tid Store : Type) where
  inv : Store → Prop
  guar : Tid → Store → Store → Prop
  running : Tid → Store → Prop := fun _ _ => True
  guar_inv :
    ∀ {tid before after}, inv before → guar tid before after → inv after

namespace Contract

variable {contract : Contract Tid Store} {tid : Tid}

/-- One step of another thread. -/
def Interference
    (contract : Contract Tid Store) (tid : Tid) (before after : Store) :
    Prop :=
  contract.inv before ∧
    ∃ other, other ≠ tid ∧ contract.guar other before after

/-- What `tid` relies on: any number of steps of other threads. -/
def Rely
    (contract : Contract Tid Store) (tid : Tid) : Store → Store → Prop :=
  Relation.ReflTransGen (contract.Interference tid)

/-- A step of another thread keeps `assertion` true. -/
def Stable
    (contract : Contract Tid Store) (tid : Tid)
    (assertion : Store → Prop) : Prop :=
  ∀ before after other,
    other ≠ tid → contract.inv before → contract.guar other before after →
      assertion before → assertion after

theorem Stable.rely
    {assertion : Store → Prop} {before after : Store}
    (stable : contract.Stable tid assertion)
    (relied : contract.Rely tid before after)
    (holds : assertion before) :
    assertion after := by
  induction relied with
  | refl =>
      exact holds
  | tail _ interference inductionHypothesis =>
      obtain ⟨invBefore, other, different, guaranteed⟩ := interference
      exact
        stable _ _ other different invBefore guaranteed inductionHypothesis

theorem stable_const (fact : Prop) : contract.Stable tid (fun _ => fact) :=
  fun _ _ _ _ _ _ holds => holds

theorem Stable.and
    {first second : Store → Prop}
    (firstStable : contract.Stable tid first)
    (secondStable : contract.Stable tid second) :
    contract.Stable tid (fun store => first store ∧ second store) :=
  fun before after other different invBefore guaranteed holds =>
    ⟨firstStable before after other different invBefore guaranteed holds.1,
      secondStable before after other different invBefore guaranteed
        holds.2⟩

theorem Stable.or
    {first second : Store → Prop}
    (firstStable : contract.Stable tid first)
    (secondStable : contract.Stable tid second) :
    contract.Stable tid (fun store => first store ∨ second store) :=
  fun before after other different invBefore guaranteed holds =>
    holds.imp
      (firstStable before after other different invBefore guaranteed)
      (secondStable before after other different invBefore guaranteed)

theorem Stable.imp
    {fact : Prop} {assertion : Store → Prop}
    (stable : contract.Stable tid assertion) :
    contract.Stable tid (fun store => fact → assertion store) :=
  fun before after other different invBefore guaranteed holds given =>
    stable before after other different invBefore guaranteed (holds given)

theorem Stable.forall
    {ι : Type} {family : ι → Store → Prop}
    (stable : ∀ index, contract.Stable tid (family index)) :
    contract.Stable tid (fun store => ∀ index, family index store) :=
  fun before after other different invBefore guaranteed holds index =>
    stable index before after other different invBefore guaranteed
      (holds index)

end Contract

section Safety

variable (system : System Tid Op Resp Input Out Store)
variable (admissible : Tid → Op → Store → Prop)
variable (contract : Contract Tid Store)

/-- From `store` on, `program` run by `tid` keeps the guarantee at each of its
statements and ends in `post`, with interference before every statement. -/
def Safe (tid : Tid) {α : Type} :
    Program Op Resp α → (α → Store → Prop) → Store → Prop
  | .ret value, post, store =>
      ∀ later, contract.Rely tid store later → contract.inv later →
        post value later
  | .perform op next, post, store =>
      ∀ later, contract.Rely tid store later → contract.inv later →
        contract.running tid later ∧
          (admissible tid op later →
            ∀ input resp after,
              system.exec op tid input later = some (resp, after) →
                contract.guar tid later after ∧
                  Safe tid (next resp) post after)

/-- `program`, started by `tid` where `pre` holds, is safe and ends in
`post`. -/
def Triple {α : Type} (tid : Tid)
    (pre : Store → Prop) (program : Program Op Resp α)
    (post : α → Store → Prop) : Prop :=
  ∀ store, contract.inv store → pre store →
    Safe system admissible contract tid program post store

end Safety

section Rules

variable {system : System Tid Op Resp Input Out Store}
variable {admissible : Tid → Op → Store → Prop}
variable {contract : Contract Tid Store}
variable {tid : Tid} {α β : Type}

theorem Safe.of_rely
    {program : Program Op Resp α} {post : α → Store → Prop}
    {before after : Store}
    (safe : Safe system admissible contract tid program post before)
    (relied : contract.Rely tid before after) :
    Safe system admissible contract tid program post after := by
  cases program with
  | ret value =>
      intro later furtherRelied invLater
      exact safe later (relied.trans furtherRelied) invLater
  | perform op next =>
      intro later furtherRelied invLater
      exact safe later (relied.trans furtherRelied) invLater

theorem Safe.bind
    {program : Program Op Resp α} {next : α → Program Op Resp β}
    {middle : α → Store → Prop} {post : β → Store → Prop}
    (rest :
      ∀ value, Triple system admissible contract tid
        (middle value) (next value) post)
    {store : Store} (invStore : contract.inv store)
    (safe : Safe system admissible contract tid program middle store) :
    Safe system admissible contract tid (program.bind next) post store := by
  induction program generalizing store with
  | ret value =>
      exact
        rest value store invStore
          (safe store Relation.ReflTransGen.refl invStore)
  | perform op continuation inductionHypothesis =>
      intro later relied invLater
      obtain ⟨running, steps⟩ := safe later relied invLater
      refine ⟨running, fun allowed input resp after executes => ?_⟩
      obtain ⟨guaranteed, safeRest⟩ :=
        steps allowed input resp after executes
      exact
        ⟨guaranteed,
          inductionHypothesis resp
            (contract.guar_inv invLater guaranteed) safeRest⟩

theorem Triple.ret
    {pre : Store → Prop} {value : α} {post : α → Store → Prop}
    (stable : contract.Stable tid pre)
    (holds : ∀ store, contract.inv store → pre store → post value store) :
    Triple system admissible contract tid pre (pure value) post :=
  fun _ _ before later relied invLater =>
    holds later invLater (stable.rely relied before)

/-- One statement: what it does in a store where the precondition holds, then
the rest of the program. -/
theorem Triple.statement
    {pre : Store → Prop} {op : Op}
    {next : Resp op → Program Op Resp α} {post : α → Store → Prop}
    (middle : Resp op → Store → Prop)
    (stable : contract.Stable tid pre)
    (running :
      ∀ store, contract.inv store → pre store → contract.running tid store)
    (step :
      ∀ store input resp after,
        contract.inv store → pre store → admissible tid op store →
          system.exec op tid input store = some (resp, after) →
            contract.guar tid store after ∧ middle resp after)
    (rest :
      ∀ resp, Triple system admissible contract tid
        (middle resp) (next resp) post) :
    Triple system admissible contract tid pre
      (Program.statement op >>= next) post := by
  intro store invStore before later relied invLater
  have atLater : pre later := stable.rely relied before
  refine
    ⟨running later invLater atLater,
      fun allowed input resp after executes => ?_⟩
  obtain ⟨guaranteed, afterwards⟩ :=
    step later input resp after invLater atLater allowed executes
  exact
    ⟨guaranteed,
      rest resp after (contract.guar_inv invLater guaranteed) afterwards⟩

/-- A program that ends with a statement. -/
theorem Triple.last
    {pre : Store → Prop} {op : Op} {post : Resp op → Store → Prop}
    (stable : contract.Stable tid pre)
    (running :
      ∀ store, contract.inv store → pre store → contract.running tid store)
    (stablePost : ∀ resp, contract.Stable tid (post resp))
    (step :
      ∀ store input resp after,
        contract.inv store → pre store → admissible tid op store →
          system.exec op tid input store = some (resp, after) →
            contract.guar tid store after ∧ post resp after) :
    Triple system admissible contract tid pre
      (Program.statement op) post :=
  Triple.statement post stable running step fun resp =>
    Triple.ret (stablePost resp) fun _ _ holds => holds

theorem Triple.bind
    {pre : Store → Prop} {program : Program Op Resp α}
    {next : α → Program Op Resp β}
    {middle : α → Store → Prop} {post : β → Store → Prop}
    (first : Triple system admissible contract tid pre program middle)
    (rest :
      ∀ value, Triple system admissible contract tid
        (middle value) (next value) post) :
    Triple system admissible contract tid pre (program >>= next) post :=
  fun store invStore before =>
    Safe.bind rest invStore (first store invStore before)

theorem Triple.strengthen
    {pre stronger : Store → Prop} {program : Program Op Resp α}
    {post : α → Store → Prop}
    (triple : Triple system admissible contract tid pre program post)
    (implies :
      ∀ store, contract.inv store → stronger store → pre store) :
    Triple system admissible contract tid stronger program post :=
  fun store invStore before =>
    triple store invStore (implies store invStore before)

theorem Safe.weaken
    {program : Program Op Resp α} {post weaker : α → Store → Prop}
    {store : Store}
    (safe : Safe system admissible contract tid program post store)
    (implies :
      ∀ value later, contract.inv later → post value later →
        weaker value later) :
    Safe system admissible contract tid program weaker store := by
  induction program generalizing store with
  | ret value =>
      intro later relied invLater
      exact implies value later invLater (safe later relied invLater)
  | perform op next inductionHypothesis =>
      intro later relied invLater
      obtain ⟨running, steps⟩ := safe later relied invLater
      refine ⟨running, fun allowed input resp after executes => ?_⟩
      obtain ⟨guaranteed, safeRest⟩ :=
        steps allowed input resp after executes
      exact ⟨guaranteed, inductionHypothesis resp safeRest⟩

theorem Triple.weaken
    {pre : Store → Prop} {program : Program Op Resp α}
    {post weaker : α → Store → Prop}
    (triple : Triple system admissible contract tid pre program post)
    (implies :
      ∀ value later, contract.inv later → post value later →
        weaker value later) :
    Triple system admissible contract tid pre program weaker :=
  fun store invStore before =>
    (triple store invStore before).weaken implies

/-- A fact that does not mention the store may be taken out of the
precondition. -/
theorem Triple.of_fact
    {fact : Prop} {pre : Store → Prop} {program : Program Op Resp α}
    {post : α → Store → Prop}
    (implies : ∀ store, contract.inv store → pre store → fact)
    (triple :
      fact → Triple system admissible contract tid pre program post) :
    Triple system admissible contract tid pre program post :=
  fun store invStore before =>
    triple (implies store invStore before) store invStore before

/-- A program all of whose statements keep a stable assertion keeps it as a
whole. -/
theorem Triple.of_all
    {allowed : Op → Prop} {assertion : Store → Prop}
    {program : Program Op Resp α}
    (stable : contract.Stable tid assertion)
    (running :
      ∀ store, contract.inv store → assertion store →
        contract.running tid store)
    (all : program.All allowed)
    (step :
      ∀ op, allowed op → ∀ store input resp after,
        contract.inv store → assertion store → admissible tid op store →
          system.exec op tid input store = some (resp, after) →
            contract.guar tid store after ∧ assertion after) :
    Triple system admissible contract tid assertion program
      (fun _ => assertion) := by
  induction program with
  | ret value =>
      exact Triple.ret stable fun _ _ holds => holds
  | perform op next inductionHypothesis =>
      exact
        Triple.statement (fun _ => assertion) stable running
          (fun store input resp after =>
            step op all.1 store input resp after)
          (fun resp => inductionHypothesis resp (all.2 resp))

end Rules

section Soundness

variable [DecidableEq Tid]
variable {system : System Tid Op Resp Input Out Store}
variable {admissible : Tid → Op → Store → Prop}
variable {contract : Contract Tid Store}
variable {post : Tid → Out → Store → Prop}

/-- The invariant holds and every thread is safe from here on. -/
def Contract.Holds
    (contract : Contract Tid Store)
    (system : System Tid Op Resp Input Out Store)
    (admissible : Tid → Op → Store → Prop)
    (post : Tid → Out → Store → Prop)
    (config : Config Tid Op Resp Out Store) : Prop :=
  contract.inv config.store ∧
    ∀ tid,
      Safe system admissible contract tid (config.code tid) (post tid)
        config.store

/-- One step keeps the guarantee of the thread that takes it, and leaves every
thread safe. -/
theorem Contract.Holds.step
    {config after : Config Tid Op Resp Out Store} {tid : Tid}
    (holds : contract.Holds system admissible post config)
    (step : system.Step admissible tid config after) :
    contract.guar tid config.store after.store ∧
      contract.Holds system admissible post after := by
  obtain ⟨invBefore, safe⟩ := holds
  cases step with
  | statement code allowed executes =>
      have safeThread := safe tid
      rw [code] at safeThread
      obtain ⟨-, steps⟩ :=
        safeThread config.store Relation.ReflTransGen.refl invBefore
      obtain ⟨guaranteed, safeRest⟩ := steps allowed _ _ _ executes
      refine ⟨guaranteed, contract.guar_inv invBefore guaranteed, ?_⟩
      intro other
      by_cases same : other = tid
      · subst same
        simpa using safeRest
      · have interference :
            contract.Interference other config.store _ :=
          ⟨invBefore, tid, Ne.symm same, guaranteed⟩
        simpa [Function.update_of_ne same] using
          (safe other).of_rely (Relation.ReflTransGen.single interference)

theorem Contract.Holds.reaches
    {source target : Config Tid Op Resp Out Store}
    (holds : contract.Holds system admissible post source)
    (reaches : system.Reaches admissible source target) :
    contract.Holds system admissible post target := by
  induction reaches with
  | refl =>
      exact holds
  | tail _ step inductionHypothesis =>
      obtain ⟨tid, step⟩ := step
      exact (inductionHypothesis.step step).2

omit [DecidableEq Tid] in
/-- Soundness: a triple for every thread's program and preconditions that hold
at the start give the invariant and safety everywhere. -/
theorem Contract.holds_start
    {pre : Tid → Store → Prop} {store : Store}
    (invStore : contract.inv store)
    (preStore : ∀ tid, pre tid store)
    (triples :
      ∀ tid, Triple system admissible contract tid (pre tid)
        (system.program tid) (post tid)) :
    contract.Holds system admissible post (system.start store) :=
  ⟨invStore, fun tid => triples tid store invStore (preStore tid)⟩

omit [DecidableEq Tid] in
/-- A finished thread has established its postcondition. -/
theorem Contract.Holds.post_of_returned
    {config : Config Tid Op Resp Out Store} {tid : Tid} {value : Out}
    (holds : contract.Holds system admissible post config)
    (returned : config.Returned tid value) :
    post tid value config.store := by
  have safe := holds.2 tid
  rw [returned] at safe
  exact safe config.store Relation.ReflTransGen.refl holds.1

omit [DecidableEq Tid] in
/-- A thread that has not finished is running. -/
theorem Contract.Holds.running_of_unfinished
    {config : Config Tid Op Resp Out Store} {tid : Tid}
    (holds : contract.Holds system admissible post config)
    (unfinished : ¬config.Finished tid) :
    contract.running tid config.store := by
  have safe := holds.2 tid
  cases code : config.code tid with
  | ret value =>
      exact absurd ⟨value, code⟩ unfinished
  | perform op next =>
      rw [code] at safe
      exact
        (safe config.store Relation.ReflTransGen.refl holds.1).1

end Soundness

end Interleaving
