import AssessmentPlatform.Grading.AgentClient
import AssessmentPlatform.Grading.Sample
import AssessmentPlatform.Interleaving.Sequential
import AssessmentPlatform.Rows

/-!
# What an answer of the agent can do to a trigger

`_trigger_agent` and `_reap_tick` with the exceptions that an answer of the
agent causes.  Other requests commit between any two statements, and every call
is answered by any exchange.
-/

namespace AssessmentPlatform.AgentAnswers

open Interleaving Interleaving.Program Rows

/-! ## Statements -/

/-- The columns that an UPDATE of `submission` sets. -/
structure Update where
  status : Status
  agentJobId : Option (Option String) := none
  attempts : Option Nat := none
  errorReason : Option (Option String) := none
  deriving DecidableEq, Repr

/-- A row after an UPDATE. -/
def Update.apply (update : Update) (now : Time) (row : Submission) :
    Submission :=
  { row with
    status := update.status
    agentJobId := update.agentJobId.getD row.agentJobId
    attempts := update.attempts.getD row.attempts
    errorReason := update.errorReason.getD row.errorReason
    updatedAt := now }

/-- An UPDATE of the grading programs, which store a job id or leave it. -/
def Update.of (change : SubmissionChange) : Update where
  status := change.status
  agentJobId := change.agentJobId.map some
  attempts := change.attempts
  errorReason := change.errorReason

/-- What the two functions do with the world outside. -/
inductive Statement where
  | now
  | selectStranded
  /-- The attributes of a submission are read. -/
  | load (id : String)
  /-- `_cas`, which commits and reads the row again. -/
  | cas (id : String) (expectStatus : Status) (expectAttempts : Nat)
      (update : Update)
  /-- The call of the agent for a submission. -/
  | call (id : String)
  /-- `_end_sitting_if_complete`, which changes no submission. -/
  | endSitting (id : String)

/-- What a statement answers: nothing about a row that is gone. -/
abbrev Statement.Answer : Statement → Type
  | .now => Time
  | .selectStranded => List String
  | .load _ => Option Submission
  | .cas .. => Option Bool
  | .call _ => Nat → Exchange
  | .endSitting _ => Unit

/-- A program of these statements. -/
abbrev Prog := Program Statement Statement.Answer

/-- Issue one statement. -/
def issue (statement : Statement) : Prog statement.Answer :=
  .statement statement

/-! ## The functions -/

section Functions

-- `bindText` is how the driver of the database stores a JSON value in a column
-- of text, `none` where it raises; `transportAttempts` is
-- `AGENT_TRIGGER_TRANSPORT_ATTEMPTS`.
variable (platform : Platform) (bindText : Json → Option (Option String))
variable (transportAttempts : Int)

/-- The reason of a refusal, which is cut after some code points. -/
def reasonOf : PyStr → PyStr
  | .text detail => .text (refusalReason detail)
  | .broken detail =>
      let intro : PyStr := "the grader refused this submission: "
      .ofCodes ((intro.codes ++ detail.codes).take maxErrorReasonChars)

/-- What the column keeps of the reason of a refusal. -/
def bindReason (detail : PyStr) : Option (Option String) := do
  let reason ← (reasonOf detail).toText
  bindText (.str reason)

/-- The UPDATE after a refusal of the job. -/
def recordRefusal (id : String) (attempt : Nat) (detail : PyStr) :
    Prog (Except Raised Unit) := do
  match bindReason bindText detail with
  | none => return .error .binding
  | some reason =>
      match ← issue (.cas id .pending attempt
        { status := .error, errorReason := some reason }) with
      | none => return .error .rowGone
      | some refused =>
          if refused then issue (.endSitting id)
          return .ok ()

/-- The UPDATE after the acceptance of the job. -/
def recordAcceptance (id : String) (attempt : Nat) (jobId : Json) :
    Prog (Except Raised Unit) := do
  match bindText jobId with
  | none => return .error .binding
  | some stored =>
      match ← issue (.cas id .pending attempt
        { status := .running, agentJobId := some stored }) with
      | none => return .error .rowGone
      | some _ => return .ok ()

/-- `_trigger_agent`, once the call has been answered. -/
def recordAnswer (id : String) (attempt : Nat) (exchanges : Nat → Exchange) :
    Prog (Except Raised Unit) :=
  match triggerAssessment transportAttempts exchanges with
  | .ok jobId => recordAcceptance bindText id attempt jobId
  | .error raised =>
      match triggerRefusal raised with
      | none => return .ok ()
      | some response =>
          match agentDetail platform response with
          | .error escaped => return .error escaped
          | .ok detail => recordRefusal bindText id attempt detail

/-- `_trigger_agent`, from the session's copy of the submission. -/
def triggerAgent (sub : Submission) : Prog (Except Raised Unit) := do
  let attempt := sub.attempts + 1
  match ← issue (.cas sub.id sub.status sub.attempts
    (.of (claimChange sub.id attempt))) with
  | none => return .error .rowGone
  | some claimed =>
      if !claimed then return .ok ()
      let exchanges ← issue (.call sub.id)
      recordAnswer platform bindText transportAttempts sub.id attempt exchanges

/-- The body of the loop of `_reap_tick`, which answers whether it acted. -/
def reapOne (now : Time) (id : String) : Prog (Except Raised Bool) := do
  let some sub ← issue (.load id) | return .error .rowGone
  if !reapDue platform now sub then return .ok false
  if sub.attempts < platform.maxTriggerAttempts ∧
      (platform.question sub.questionId).isSome then
    match ← triggerAgent platform bindText transportAttempts sub with
    | .error raised => return .error raised
    | .ok () => return .ok true
  else
    match ← issue (.cas sub.id sub.status sub.attempts (.of
      { status := .error
        errorReason := some (some (giveUpReason sub.attempts)) })) with
    | none => return .error .rowGone
    | some gaveUp =>
        if gaveUp then issue (.endSitting sub.id)
        return .ok gaveUp

/-- The loop of `_reap_tick`, which answers the submissions it acted on. -/
def reapEach (now : Time) : List String → Prog (Except Raised (List String))
  | [] => return .ok []
  | id :: rest => do
      match ← reapOne platform bindText transportAttempts now id with
      | .error raised => return .error raised
      | .ok acted =>
          match ← reapEach now rest with
          | .error raised => return .error raised
          | .ok others => return .ok (if acted then id :: others else others)

/-- `_reap_tick` -/
def reapTick : Prog (Except Raised (List String)) := do
  let now ← issue .now
  let stranded ← issue .selectStranded
  reapEach platform bindText transportAttempts now stranded

end Functions

/-! ## The world -/

/-- The world around a run: what other requests commit before each statement,
the time at each, and the answers to the calls. -/
structure World where
  others : Nat → List Submission → List Submission
  clock : Nat → Time
  exchanges : Nat → Nat → Exchange

/-- The committed submissions, the number of statements so far, and what has
been observed: the answers to the calls that were made, the submissions that
were visited, and those that were read when another request had deleted them. -/
structure State where
  table : List Submission
  statements : Nat
  answers : List (Nat → Exchange)
  visited : List String
  gone : List String

/-- Whether a `_cas` finds the row as its caller loaded it. -/
def isLoaded (id : String) (status : Status) (attempts : Nat)
    (row : Submission) : Bool :=
  row.id == id && row.status == status && row.attempts == attempts

/-- A submission that is read, if it is gone. -/
def goneFrom (table : List Submission) (id : String) : List String :=
  if table.any (·.id == id) then [] else [id]

/-- Execute one statement in a world. -/
def World.perform (world : World) :
    (statement : Statement) → State → statement.Answer × State
  | statement, state =>
      let table := world.others state.statements state.table
      let now := world.clock state.statements
      let next : State :=
        { state with table := table, statements := state.statements + 1 }
      match statement with
      | .now => (now, next)
      | .selectStranded =>
          ((table.filter fun row => !row.status.terminal).map Submission.id,
            next)
      | .load id =>
          (fetch Submission.id id table,
            { next with
              visited := state.visited ++ [id]
              gone := state.gone ++ goneFrom table id })
      | .cas id status attempts update =>
          (if table.any (·.id == id) then
            some (table.any (isLoaded id status attempts))
          else none,
            { next with
              table := updateWhere (isLoaded id status attempts)
                (update.apply now) table
              gone := state.gone ++ goneFrom table id })
      | .call _ =>
          let answer := world.exchanges state.statements
          (answer, { next with answers := state.answers ++ [answer] })
      | .endSitting _ => ((), next)

/-- The state that a run begins in. -/
def State.begin (table : List Submission) : State :=
  ⟨table, 0, [], [], []⟩

/-! ## What a run has seen -/

section Runs

variable (platform : Platform) (bindText : Json → Option (Option String))
variable (transportAttempts : Int)

/-- An answer that `_trigger_agent` contains: an acceptance with a job id that
the driver binds, a refusal whose detail can be read and stored, or any other
failure. -/
def Contained (exchanges : Nat → Exchange) : Prop :=
  match triggerAssessment transportAttempts exchanges with
  | .ok jobId => (bindText jobId).isSome
  | .error raised =>
      ∀ response, triggerRefusal raised = some response →
        response.json ≠ .error .recursionError ∧ ¬response.strayWarnings ∧
          ∀ detail, agentDetail platform response = .ok detail →
            (bindReason bindText detail).isSome

end Runs

/-- A part of a run in which nothing is observed. -/
structure Unobserved (state after : State) : Prop where
  visited : after.visited = state.visited
  answers : after.answers = state.answers
  gone : after.gone = state.gone

/-- A part of a run that has visited some submissions, of which one was gone. -/
structure Missing (state : State) (seen : List String) (after : State) :
    Prop where
  visited : after.visited = state.visited ++ seen
  answers : after.answers = state.answers
  gone : ∃ id, after.gone = state.gone ++ [id]

theorem Unobserved.refl {state : State} : Unobserved state state :=
  ⟨rfl, rfl, rfl⟩

/-- A part of a run from a state: the submissions it has visited, the answers it
has heard, and that it has raised exactly where a submission was gone or
something else went astray. -/
structure Part {Value : Type} (state : State) (seen : List String)
    (heard : List (Nat → Exchange)) (stray : Prop)
    (result : Except Raised Value × State) : Prop where
  visited : result.2.visited = state.visited ++ seen
  answers : result.2.answers = state.answers ++ heard
  raises : ∃ lost, result.2.gone = state.gone ++ lost ∧
    ((∃ raised, result.1 = .error raised) ↔ lost ≠ [] ∨ stray)

section Lemmas

variable (platform : Platform) (bindText : Json → Option (Option String))
variable (transportAttempts : Int) (world : World) {state : State}
variable {Value : Type}

namespace Part

variable {seen : List String} {heard : List (Nat → Exchange)} {stray : Prop}
variable {first after : State} {result : Except Raised Value × State}

theorem returns {value : Value} (unobserved : Unobserved state after)
    (fine : ¬stray) : Part state [] [] stray (.ok value, after) where
  visited := by simp [unobserved.visited]
  answers := by simp [unobserved.answers]
  raises := ⟨[], by simp [unobserved.gone], by simp [fine]⟩

theorem throws {raised : Raised} (unobserved : Unobserved state after)
    (isStray : stray) :
    Part state [] [] stray ((.error raised : Except Raised Value), after) where
  visited := by simp [unobserved.visited]
  answers := by simp [unobserved.answers]
  raises := ⟨[], by simp [unobserved.gone], by simp [isStray]⟩

theorem misses {raised : Raised} (missing : Missing state seen after) :
    Part state seen [] stray
      ((.error raised : Except Raised Value), after) where
  visited := missing.visited
  answers := by simp [missing.answers]
  raises := by
    obtain ⟨id, isGone⟩ := missing.gone
    exact ⟨[id], isGone, by simp⟩

theorem iff {other : Prop} (part : Part state seen heard stray result)
    (same : stray ↔ other) : Part state seen heard other result :=
  ⟨part.visited, part.answers, by
    obtain ⟨lost, isLost, raises⟩ := part.raises
    exact ⟨lost, isLost, by rw [raises, same]⟩⟩

/-- A part that goes on from where nothing but a visit and some answers have
been observed. -/
theorem later {before : List String} {earlier : List (Nat → Exchange)}
    (visited : first.visited = state.visited ++ before)
    (answers : first.answers = state.answers ++ earlier)
    (gone : first.gone = state.gone)
    (part : Part first seen heard stray result) :
    Part state (before ++ seen) (earlier ++ heard) stray result where
  visited := by rw [part.visited, visited, List.append_assoc]
  answers := by rw [part.answers, answers, List.append_assoc]
  raises := gone ▸ part.raises

theorem after_unobserved (unobserved : Unobserved state first)
    (part : Part first seen heard stray result) :
    Part state seen heard stray result where
  visited := unobserved.visited ▸ part.visited
  answers := unobserved.answers ▸ part.answers
  raises := unobserved.gone ▸ part.raises

/-- A part that only changes what is answered. -/
theorem mapOk {Next : Type} (part : Part state seen heard stray result)
    {mapped : Except Raised Next × State} (same : mapped.2 = result.2)
    (raises : ∀ raised, result.1 = .error raised →
      mapped.1 = .error raised)
    (returns : ∀ found, result.1 = .ok found →
      ∃ value, mapped.1 = .ok value) :
    Part state seen heard stray mapped := by
  obtain ⟨visited, answers, lost, gone, raised⟩ := part
  refine ⟨same ▸ visited, same ▸ answers, lost, same ▸ gone, ?_⟩
  rw [← raised]
  cases outcome : result.1 with
  | error raised => simp [raises raised outcome]
  | ok found =>
      obtain ⟨value, isValue⟩ := returns found outcome
      simp [isValue]

end Part

/-- A `_cas` finds the row of its submission, or finds it gone. -/
theorem cas_cases (id : String) (status : Status) (attempts : Nat)
    (update : Update) :
    let result :=
      (issue (.cas id status attempts update)).run world.perform state
    (∃ found, result.1 = some found ∧ Unobserved state result.2) ∨
      (result.1 = none ∧ Missing state [] result.2) := by
  by_cases there :
      (world.others state.statements state.table).any (·.id == id) = true
  · refine Or.inl ⟨_, if_pos there, rfl, rfl, ?_⟩
    change state.gone ++ goneFrom _ id = state.gone
    rw [goneFrom, if_pos there, List.append_nil]
  · refine Or.inr ⟨if_neg there, (List.append_nil _).symm, rfl, id, ?_⟩
    change state.gone ++ goneFrom _ id = _
    rw [goneFrom, if_neg there]

/-- A visited submission is read, or gone. -/
theorem load_cases (id : String) :
    let result := (issue (.load id)).run world.perform state
    (∃ sub, result.1 = some sub ∧
      result.2.visited = state.visited ++ [id] ∧
      result.2.answers = state.answers ++ [] ∧ result.2.gone = state.gone) ∨
      (result.1 = none ∧ Missing state [id] result.2) := by
  generalize isTable : world.others state.statements state.table = table
  have isGone : ((issue (.load id)).run world.perform state).2.gone =
      state.gone ++ goneFrom table id := by
    rw [← isTable]
    rfl
  have isFound : ((issue (.load id)).run world.perform state).1 =
      fetch Submission.id id table := by
    rw [← isTable]
    rfl
  dsimp only
  rw [isFound]
  cases found : fetch Submission.id id table with
  | some sub =>
      have there : table.any (·.id == id) = true := by
        rw [List.any_eq_true]
        exact ⟨sub, mem_of_fetch found, by simp [key_of_fetch found]⟩
      rw [goneFrom, if_pos there, List.append_nil] at isGone
      exact Or.inl ⟨sub, rfl, rfl, (List.append_nil _).symm, isGone⟩
  | none =>
      have absent : ¬table.any (·.id == id) = true := by
        simpa using fetch_eq_none.mp found
      rw [goneFrom, if_neg absent] at isGone
      exact Or.inr ⟨rfl, rfl, rfl, id, isGone⟩

/-- The UPDATE after a refusal raises where the driver cannot bind the
reason. -/
theorem recordRefusal_run (id : String) (attempt : Nat) (detail : PyStr) :
    Part state [] [] (¬(bindReason bindText detail).isSome)
      ((recordRefusal bindText id attempt detail).run world.perform state) := by
  unfold recordRefusal
  cases bindReason bindText detail with
  | none => exact .throws .refl (by simp)
  | some reason =>
      dsimp only
      rw [run_bind]
      rcases cas_cases world id .pending attempt
          { status := .error, errorReason := some reason } with
        ⟨found, isFound, unobserved⟩ | ⟨isGone, missing⟩
      · rw [isFound]
        dsimp only
        split
        · exact .returns
            ⟨unobserved.visited, unobserved.answers, unobserved.gone⟩ (by simp)
        · exact .returns unobserved (by simp)
      · rw [isGone]
        exact .misses missing

theorem recordAcceptance_run (id : String) (attempt : Nat) (jobId : Json) :
    Part state [] [] (¬(bindText jobId).isSome)
      ((recordAcceptance bindText id attempt jobId).run world.perform
        state) := by
  unfold recordAcceptance
  cases bindText jobId with
  | none => exact .throws .refl (by simp)
  | some stored =>
      dsimp only
      rw [run_bind]
      rcases cas_cases world id .pending attempt
          { status := .running, agentJobId := some stored } with
        ⟨found, isFound, unobserved⟩ | ⟨isGone, missing⟩
      · rw [isFound]
        exact .returns unobserved (by simp)
      · rw [isGone]
        exact .misses missing

/-- The answer to a call raises exactly where it is not contained, or the row is
gone. -/
theorem recordAnswer_run (id : String) (attempt : Nat)
    (exchanges : Nat → Exchange) :
    Part state [] [] (¬Contained platform bindText transportAttempts exchanges)
      ((recordAnswer platform bindText transportAttempts id attempt
        exchanges).run world.perform state) := by
  unfold recordAnswer Contained
  cases triggerAssessment transportAttempts exchanges with
  | ok jobId => exact recordAcceptance_run bindText world id attempt jobId
  | error raised =>
      dsimp only
      cases triggerRefusal raised with
      | none => exact .returns .refl (by simp)
      | some response =>
          have raises := agentDetail_raises platform response
          dsimp only
          cases read : agentDetail platform response with
          | error escaped =>
              have stray := raises.mp ⟨escaped, read⟩
              apply Part.throws .refl
              intro contained
              obtain ⟨shallow, fine, _⟩ := contained response rfl
              exact stray.elim shallow fine
          | ok detail =>
              have quiet : ¬(response.json = .error .recursionError ∨
                  response.strayWarnings) := by
                intro stray
                obtain ⟨escaped, isError⟩ := raises.mpr stray
                rw [read] at isError
                cases isError
              obtain ⟨shallow, fine⟩ := not_or.mp quiet
              apply (recordRefusal_run bindText world id attempt detail).iff
              apply not_congr
              constructor
              · intro binds other same
                obtain rfl := Option.some.inj same
                refine ⟨shallow, fine, ?_⟩
                intro found isFound
                obtain rfl := Except.ok.inj (read.symm.trans isFound)
                exact binds
              · intro contained
                exact (contained response rfl).2.2 detail read

/-- A part of a run has raised exactly where a submission was gone or a call was
answered by what is not contained. -/
def Saw (state : State) (seen : List String)
    (result : Except Raised Value × State) : Prop :=
  ∃ made, Part state seen made
    (∃ answer ∈ made, ¬Contained platform bindText transportAttempts answer)
    result

variable {platform bindText transportAttempts world}

/-- A part that makes no call and returns. -/
theorem saw_ok {value : Value} {after : State}
    (unobserved : Unobserved state after) :
    Saw platform bindText transportAttempts state [] (.ok value, after) :=
  ⟨[], .returns unobserved (by simp)⟩

theorem saw_missing {raised : Raised} {seen : List String} {after : State}
    (missing : Missing state seen after) :
    Saw platform bindText transportAttempts state seen
      ((.error raised : Except Raised Value), after) :=
  ⟨[], .misses missing⟩

theorem triggerAgent_run (sub : Submission) :
    Saw platform bindText transportAttempts state []
      ((triggerAgent platform bindText transportAttempts sub).run
        world.perform state) := by
  unfold triggerAgent
  rw [run_bind]
  rcases cas_cases world sub.id sub.status sub.attempts
      (.of (claimChange sub.id (sub.attempts + 1))) with
    ⟨found, isFound, unobserved⟩ | ⟨isGone, missing⟩
  · rw [isFound]
    dsimp only
    split
    · exact saw_ok unobserved
    rw [run_bind]
    generalize isCall : run world.perform (issue (.call sub.id)) _ = called
    have visited : called.2.visited = state.visited ++ [] := by
      rw [← isCall, List.append_nil]
      exact unobserved.visited
    have answers : called.2.answers = state.answers ++ [called.1] := by
      rw [← isCall, ← unobserved.answers]
      rfl
    have gone : called.2.gone = state.gone := by
      rw [← isCall]
      exact unobserved.gone
    have answered := @recordAnswer_run platform bindText transportAttempts
      world called.2 sub.id (sub.attempts + 1) called.1
    exact ⟨[called.1], (answered.later visited answers gone).iff (by simp)⟩
  · rw [isGone]
    exact saw_missing missing

/-- One stranded submission is visited. -/
theorem reapOne_run (now : Time) (id : String) :
    Saw platform bindText transportAttempts state [id]
      ((reapOne platform bindText transportAttempts now id).run world.perform
        state) := by
  unfold reapOne
  rw [run_bind]
  rcases load_cases world id with
    ⟨sub, isSub, visited, answers, gone⟩ | ⟨isGone, missing⟩
  · rw [isSub]
    revert visited answers gone
    generalize (run world.perform (issue (.load id)) state).2 = first
    intro visited answers gone
    suffices rest : Saw platform bindText transportAttempts first [] _ by
      obtain ⟨made, part⟩ := rest
      exact ⟨made, part.later visited answers gone⟩
    dsimp only
    split
    · exact saw_ok .refl
    split
    · rw [run_bind]
      have triggered := @triggerAgent_run platform bindText transportAttempts
        world first sub
      revert triggered
      generalize run world.perform
        (triggerAgent platform bindText transportAttempts sub) first = result
      intro triggered
      obtain ⟨made, part⟩ := triggered
      refine ⟨made, part.mapOk ?_ ?_ ?_⟩
      · split <;> rfl
      · intro raised isRaised
        simp [isRaised]
      · intro found isFound
        exact ⟨true, by simp [isFound]⟩
    · rw [run_bind]
      rcases cas_cases world sub.id sub.status sub.attempts _ with
        ⟨found, isFound, unobserved⟩ | ⟨isGone, missing⟩
      · rw [isFound]
        dsimp only
        split
        · exact saw_ok
            ⟨unobserved.visited, unobserved.answers, unobserved.gone⟩
        · exact saw_ok unobserved
      · rw [isGone]
        exact saw_missing missing
  · rw [isGone]
    exact saw_missing missing

/-- The loop visits the submissions in turn, all of them unless it raises. -/
theorem reapEach_run (now : Time) (ids : List String) :
    ∃ seen,
      Saw platform bindText transportAttempts state seen
        ((reapEach platform bindText transportAttempts now ids).run
          world.perform state) ∧
      ∀ acted, ((reapEach platform bindText transportAttempts now ids).run
        world.perform state).1 = .ok acted → seen = ids := by
  induction ids generalizing state with
  | nil => exact ⟨[], saw_ok .refl, fun _ _ => rfl⟩
  | cons id rest inductionHypothesis =>
      have here : Saw platform bindText transportAttempts state [id]
          ((reapOne platform bindText transportAttempts now id).run
            world.perform state) :=
        reapOne_run now id
      unfold reapEach
      rw [run_bind]
      revert here
      generalize run world.perform
        (reapOne platform bindText transportAttempts now id) state = first
      rintro ⟨made, part⟩
      split
      · next raised isRaised =>
        refine ⟨[id], ⟨made, part.mapOk rfl ?_ ?_⟩, nofun⟩
        · intro other isOther
          obtain rfl := Except.error.inj (isRaised.symm.trans isOther)
          rfl
        · intro found isFound
          rw [isRaised] at isFound
          cases isFound
      next acted isActed =>
      obtain ⟨lost, gone, raises⟩ := part.raises
      have fine : ¬(lost ≠ [] ∨ ∃ answer ∈ made,
          ¬Contained platform bindText transportAttempts answer) := by
        rw [← raises, isActed]
        simp
      obtain ⟨rfl, contained⟩ : lost = [] ∧ _ := by
        simpa only [not_or, ne_eq, not_not] using fine
      rw [List.append_nil] at gone
      obtain ⟨seen, ⟨more, others⟩, whole⟩ := @inductionHypothesis first.2
      have both := others.later part.visited part.answers gone
      rw [run_bind]
      revert both whole
      generalize run world.perform
        (reapEach platform bindText transportAttempts now rest) first.2 = last
      intro whole both
      refine ⟨id :: seen, ⟨made ++ more, (both.mapOk ?_ ?_ ?_).iff ?_⟩, ?_⟩
      · split <;> rfl
      · intro raised isRaised
        simp [isRaised]
      · intro found isFound
        exact ⟨_, by simp [isFound]; rfl⟩
      · simp only [List.mem_append, or_and_right, exists_or, contained,
          false_or]
      · split
        · exact nofun
        · next found isFound =>
          intro _ _
          rw [whole found isFound]

/-- A whole run returns exactly where no submission it read was gone and every
answer it heard is contained. -/
theorem Saw.returns {seen : List String}
    {result : Except Raised Value × State} {table : List Submission}
    (saw : Saw platform bindText transportAttempts (.begin table) seen
      result) :
    (∃ value, result.1 = .ok value) ↔
      result.2.gone = [] ∧ ∀ answer ∈ result.2.answers,
        Contained platform bindText transportAttempts answer := by
  obtain ⟨made, part⟩ := saw
  obtain ⟨lost, gone, raises⟩ := part.raises
  rw [gone, part.answers]
  change _ ↔ lost = [] ∧ ∀ answer ∈ made, _
  have returned : (∃ value, result.1 = .ok value) ↔
      ¬∃ raised, result.1 = .error raised := by
    cases result.1 <;> simp
  rw [returned, raises]
  push Not
  rfl

/-- What the tick selects when it begins in a table. -/
def World.stranded (world : World) (table : List Submission) : List String :=
  ((issue .selectStranded).run world.perform
    ((issue .now).run world.perform (.begin table)).2).1

theorem reapTick_run (table : List Submission) :
    ∃ seen,
      Saw platform bindText transportAttempts (.begin table) seen
        ((reapTick platform bindText transportAttempts).run world.perform
          (.begin table)) ∧
      ∀ acted, ((reapTick platform bindText transportAttempts).run
        world.perform (.begin table)).1 = .ok acted →
          seen = world.stranded table := by
  unfold reapTick
  rw [run_bind, run_bind]
  have selected : Unobserved (.begin table)
      ((issue .selectStranded).run world.perform
        ((issue .now).run world.perform (.begin table)).2).2 :=
    ⟨rfl, rfl, rfl⟩
  obtain ⟨seen, ⟨made, part⟩, whole⟩ :=
    @reapEach_run platform bindText transportAttempts world _
      ((issue .now).run world.perform (.begin table)).1 (world.stranded table)
  exact ⟨seen, ⟨made, part.after_unobserved selected⟩, whole⟩

end Lemmas

/-! ## Reasons -/

/-- Every reason fits in its column. -/
def ReasonsBounded (table : List Submission) : Prop :=
  ∀ row ∈ table, ∀ reason, row.errorReason = some reason →
    reason.length ≤ maxErrorReasonChars

/-- A statement that writes no longer reason. -/
def Statement.bounded : Statement → Prop
  | .cas _ _ _ update =>
      ∀ reason, update.errorReason = some (some reason) →
        reason.length ≤ maxErrorReasonChars
  | _ => True

theorem length_reasonOf {detail : PyStr} {reason : String}
    (isText : (reasonOf detail).toText = some reason) :
    reason.length ≤ maxErrorReasonChars := by
  cases detail with
  | text detail =>
      obtain rfl := Option.some.inj isText
      rw [refusalReason, String.length_ofList, List.length_take]
      exact Nat.min_le_left _ _
  | broken detail =>
      simp only [reasonOf, PyStr.ofCodes] at isText
      split at isText
      · cases isText
      · obtain rfl := Option.some.inj isText
        rw [String.length_ofList, List.length_map, List.length_take]
        exact Nat.min_le_left _ _

theorem bindReason_eq_some {bindText : Json → Option (Option String)}
    {detail : PyStr} {stored : Option String}
    (binds : bindReason bindText detail = some stored) :
    ∃ reason : String, (reasonOf detail).toText = some reason ∧
      bindText (.str reason) = some stored :=
  Option.bind_eq_some_iff.mp binds

section Bounds

variable {platform : Platform} {bindText : Json → Option (Option String)}
variable {transportAttempts : Int} {world : World}

theorem recordAnswer_bounded (id : String) (attempt : Nat)
    (exchanges : Nat → Exchange)
    (storesText : ∀ (text : String) stored,
      bindText (.str text) = some stored → stored = some text) :
    (recordAnswer platform bindText transportAttempts id attempt
      exchanges).All Statement.bounded := by
  unfold recordAnswer
  cases triggerAssessment transportAttempts exchanges with
  | ok jobId =>
      dsimp only
      unfold recordAcceptance
      cases bindText jobId with
      | none => exact All.pure _ _
      | some stored =>
          apply All.statement nofun
          intro accepted
          cases accepted <;> exact All.pure _ _
  | error raised =>
      dsimp only
      cases triggerRefusal raised with
      | none => exact All.pure _ _
      | some response =>
          dsimp only
          cases agentDetail platform response with
          | error escaped => exact All.pure _ _
          | ok detail =>
              dsimp only
              unfold recordRefusal
              cases stores : bindReason bindText detail with
              | none => exact All.pure _ _
              | some stored =>
                  obtain ⟨text, isText, binds⟩ := bindReason_eq_some stores
                  obtain rfl := storesText _ _ binds
                  apply All.statement
                  · intro reason same
                    obtain rfl := Option.some.inj (Option.some.inj same)
                    exact length_reasonOf isText
                  · intro refused
                    cases refused with
                    | none => exact All.pure _ _
                    | some refused =>
                        dsimp only
                        split
                        · exact All.statement trivial fun _ => All.pure _ _
                        · exact All.pure _ _

theorem triggerAgent_bounded (sub : Submission)
    (storesText : ∀ (text : String) stored,
      bindText (.str text) = some stored → stored = some text) :
    (triggerAgent platform bindText transportAttempts sub).All
      Statement.bounded := by
  unfold triggerAgent
  apply All.statement
  · intro reason same
    cases Option.some.inj same
  intro claimed
  cases claimed with
  | none => exact All.pure _ _
  | some claimed =>
      dsimp only
      split
      · exact All.pure _ _
      apply All.statement trivial
      intro exchanges
      exact recordAnswer_bounded _ _ _ storesText

/-- A bounded statement keeps the reasons bounded, as the other requests do. -/
theorem perform_bounded
    (steady : ∀ count table, ReasonsBounded table →
      ReasonsBounded (world.others count table))
    (statement : Statement) (bounded : statement.bounded) (state : State)
    (fits : ReasonsBounded state.table) :
    ReasonsBounded (world.perform statement state).2.table := by
  have next := steady state.statements state.table fits
  cases statement with
  | cas id status attempts update =>
      intro row member reason isReason
      obtain ⟨old, isOld, rfl⟩ := mem_of_mem_updateWhere member
      split at isReason
      · simp only [Update.apply] at isReason
        cases given : update.errorReason with
        | none =>
            rw [given, Option.getD_none] at isReason
            exact next old isOld reason isReason
        | some value =>
            rw [given, Option.getD_some] at isReason
            exact bounded reason (given.trans (congrArg some isReason))
      · exact next old isOld reason isReason
  | _ => exact next

end Bounds

/-- `_trigger_agent` returns exactly where the submission stays there and the
agent's answer is contained, and leaves no reason that is too long; `_reap_tick`
visits every stranded submission and returns exactly where they all stay there
and every answer it hears is contained. -/
theorem answers_contained {platform : Platform}
    {bindText : Json → Option (Option String)} {transportAttempts : Int}
    {world : World} {table : List Submission} (sub : Submission)
    (storesText : ∀ (text : String) stored,
      bindText (.str text) = some stored → stored = some text)
    (steady : ∀ count table, ReasonsBounded table →
      ReasonsBounded (world.others count table))
    (fits : ReasonsBounded table) :
    let triggered := (triggerAgent platform bindText transportAttempts
      sub).run world.perform (.begin table)
    let ticked := (reapTick platform bindText transportAttempts).run
      world.perform (.begin table)
    ReasonsBounded triggered.2.table ∧
      (triggered.1 = .ok () ↔
        triggered.2.gone = [] ∧ ∀ answer ∈ triggered.2.answers,
          Contained platform bindText transportAttempts answer) ∧
      ((∃ acted, ticked.1 = .ok acted ∧
          ticked.2.visited = world.stranded table) ↔
        ticked.2.gone = [] ∧ ∀ answer ∈ ticked.2.answers,
          Contained platform bindText transportAttempts answer) := by
  intro triggered ticked
  refine ⟨?_, ?_, ?_⟩
  · have bounded : (triggerAgent platform bindText transportAttempts sub).All
        Statement.bounded :=
      triggerAgent_bounded sub storesText
    have keeps : Program.Triple world.perform
        (fun state => ReasonsBounded state.table)
        (triggerAgent platform bindText transportAttempts sub)
        fun _ state => ReasonsBounded state.table :=
      bounded.triple (perform_bounded steady)
    exact keeps (.begin table) fits
  · have saw : Saw platform bindText transportAttempts (.begin table) []
        triggered :=
      triggerAgent_run sub
    rw [← saw.returns]
    exact ⟨fun returned => ⟨(), returned⟩, fun ⟨_, returned⟩ => returned⟩
  · obtain ⟨seen, saw, whole⟩ : ∃ seen,
        Saw platform bindText transportAttempts (.begin table) seen ticked ∧
          _ :=
      reapTick_run table
    rw [← saw.returns]
    obtain ⟨made, part⟩ := saw
    constructor
    · rintro ⟨acted, returned, _⟩
      exact ⟨acted, returned⟩
    · rintro ⟨acted, returned⟩
      refine ⟨acted, returned, part.visited.trans ?_⟩
      exact whole acted returned

/-! ## Concrete answers -/

/-- The driver binds a text as it is, and nothing as NULL. -/
def bindsText : Json → Option (Option String)
  | .str (.text text) => some (some text)
  | .null => some none
  | _ => none

/-- A submission that has waited. -/
def waiting (id : String) : Submission where
  id := id
  questionId := "a"
  inviteId := none
  candidate := "Ada"
  candidateEmail := none
  language := "py"
  code := "x"
  status := .pending
  late := false
  agentJobId := none
  attempts := 0
  errorReason := none
  judgeCostUsd := none
  updatedAt := 0

/-- A world in which nobody else commits, and every job is answered alike. -/
def answering (statusCode : Nat) (body : Json) : World where
  others := fun _ table => table
  clock := fun _ => 1000 * second
  exchanges := fun _ _ => .ok ⟨statusCode, "", .ok body⟩

/-- The agent takes the job under its own id. -/
def accepting : World :=
  answering 202 (.obj [("job_id", .str "s")])

theorem answers_contained_accepted :
    ((triggerAgent (Sample.platform 1) bindsText 3 (waiting "s")).run
      accepting.perform (.begin [waiting "s"])).1 = .ok () := by
  have storesText : ∀ (text : String) stored,
      bindsText (.str text) = some stored → stored = some text := by
    intro text stored stores
    exact (Option.some.inj stores).symm
  have fits : ReasonsBounded [waiting "s"] := by
    intro row member reason isReason
    obtain rfl := List.mem_singleton.mp member
    cases isReason
  have returns : ((triggerAgent (Sample.platform 1) bindsText 3
      (waiting "s")).run accepting.perform (.begin [waiting "s"])).1 =
        .ok () ↔ _ :=
    (answers_contained (waiting "s") storesText (fun _ _ bounded => bounded)
      fits).2.1
  apply returns.mpr
  refine ⟨rfl, ?_⟩
  intro answer heard
  have only : answer ∈ [accepting.exchanges 1] := heard
  obtain rfl := List.mem_singleton.mp only
  exact rfl

/-- The agent refuses every job with warnings that are a number. -/
def refusing : World :=
  answering 400 (.obj [("detail", .obj [("warnings", .int 5)])])

/-- The refusal raises out of `_trigger_agent`, and out of the tick before the
second submission is visited. -/
theorem refusal_escapes :
    (∃ raised, ((triggerAgent (Sample.platform 1) bindsText 3
      (waiting "s")).run refusing.perform
        (.begin [waiting "s", waiting "t"])).1 = .error raised) ∧
      refusing.stranded [waiting "s", waiting "t"] = ["s", "t"] ∧
      ((reapTick (Sample.platform 1) bindsText 3).run refusing.perform
        (.begin [waiting "s", waiting "t"])).2.visited = ["s"] :=
  ⟨⟨.typeError, rfl⟩, by decide, by decide⟩

end AssessmentPlatform.AgentAnswers
