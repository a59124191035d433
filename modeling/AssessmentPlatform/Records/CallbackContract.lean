import AssessmentPlatform.Records.Sample
import AssessmentPlatform.Records.ServeCommits
import Mathlib.Algebra.Order.Ring.Int

/-!
# The callback contract

The validator that both repositories share, and what `assessments_callback`
makes of a payload that the validator lets through.
-/

namespace AssessmentPlatform.CallbackContract

open Interleaving Interleaving.Program Rows

/-! ## The contract -/

/-- `VERDICTS` -/
def verdicts : List String := ["PASS", "FAIL", "ERROR"]

/-- The accepted types of a field. -/
inductive Types where
  /-- `str` -/
  | text
  /-- `(int, float)`, of which `bool` is a kind. -/
  | number
  deriving DecidableEq, Repr

/-- `isinstance(value, types)` -/
def Types.accept : Types → Json → Bool
  | .text, .str _ => true
  | .number, .int _ | .number, .float _ | .number, .bool _ => true
  | _, _ => false

/-- `GRADED_REQUIRED` -/
def gradedRequired : List (String × Types) :=
  [("verdict", .text), ("score_pct", .number), ("reason", .text)]

/-- `type(value).__name__` -/
def typeName : Json → String
  | .null => "NoneType"
  | .bool _ => "bool"
  | .int _ => "int"
  | .float _ => "float"
  | .str _ => "str"
  | .arr _ => "list"
  | .obj _ => "dict"

/-- `key in payload` -/
def has (payload : Payload) (key : String) : Bool :=
  payload.any fun field => field.1.is key

/-- `_is_error_payload` of the contract. -/
def isErrorPayload (payload : Payload) : Bool :=
  (payload.get "error").truthy || payload.get "status" == .str (.text "error")

/-- What is wrong with one required field of a graded payload. -/
def checkField (payload : Payload) (field : String × Types) : List String :=
  if !has payload field.1 then ["missing required field: '" ++ field.1 ++ "'"]
  else if !field.2.accept (payload.get field.1) then
    ["field '" ++ field.1 ++ "' has wrong type: " ++
      typeName (payload.get field.1)]
  else []

/-- What is wrong with the verdict of a graded payload; `repr` is Python's. -/
def checkVerdict (repr : Json → String) (verdict : Json) : List String :=
  if verdict != .null &&
      !(verdicts.map fun known => Json.str known).contains verdict then
    ["verdict " ++ repr verdict ++ " not in ('PASS', 'FAIL', 'ERROR')"]
  else []

/-- What is wrong with the job id. -/
def checkJobId : Json → List String
  | .str jobId =>
      if jobId.is "" then ["missing or empty required field: 'job_id'"] else []
  | _ => ["missing or empty required field: 'job_id'"]

/-- What is wrong with an object. -/
def checkPayload (repr : Json → String) (payload : Payload) : List String :=
  let errors := checkJobId (payload.get "job_id")
  if isErrorPayload payload then errors
  else
    errors ++ gradedRequired.flatMap (checkField payload) ++
      checkVerdict repr (payload.get "verdict")

/-- `validate_callback`: the list of violations. -/
def validateCallback (repr : Json → String) : Json → List String
  | .obj payload => checkPayload repr payload
  | _ => ["payload is not a JSON object"]

variable {repr : Json → String} {payload : Payload}

theorem jobId_of_accepted
    (accepted : validateCallback repr (.obj payload) = []) :
    ∃ job, PyStr.is job "" = false ∧ payload.get "job_id" = .str job := by
  have noErrors : checkJobId (payload.get "job_id") = [] := by
    unfold validateCallback checkPayload at accepted
    dsimp only at accepted
    split at accepted
    · exact accepted
    · rw [List.append_assoc] at accepted
      exact (List.append_eq_nil_iff.mp accepted).1
  cases isJob : payload.get "job_id" with
  | str job =>
      refine ⟨job, ?_, rfl⟩
      by_contra empty
      simp [isJob, checkJobId, Bool.eq_true_of_not_eq_false empty] at noErrors
  | _ => simp [isJob, checkJobId] at noErrors

/-- A payload without a verdict passes as an error envelope only. -/
theorem isErrorPayload_of_noVerdict
    (accepted : validateCallback repr (.obj payload) = [])
    (noVerdict : payload.get "verdict" = .null) :
    isErrorPayload payload = true := by
  by_contra graded
  unfold validateCallback checkPayload at accepted
  dsimp only at accepted
  rw [if_neg graded, List.append_eq_nil_iff, List.append_eq_nil_iff] at accepted
  have verdict : checkField payload ("verdict", .text) = [] :=
    List.flatMap_eq_nil_iff.mp accepted.1.2 _ List.mem_cons_self
  unfold checkField at verdict
  rw [noVerdict] at verdict
  split at verdict
  · cases verdict
  · simp [Types.accept] at verdict

/-! ## What a callback does -/

variable {deployment : Deployment} {around : Surroundings} {db : Database}
variable {sub : Submission} {graded : AssessmentResult}

/-- Serve a callback alone. -/
def receive (deployment : Deployment) (around : Surroundings)
    (payload : Payload) (db : Database) : CallbackReply × Database :=
  runProgram deployment around
    (assessmentsCallback (db.platform deployment) payload) db

/-- The verdict and the score of a result are the payload's where it carries
them; a score that is an integer is the integer itself. -/
structure States (platform : Platform) (payload : Payload)
    (result : AssessmentResult) : Prop where
  verdict : (payload.get "verdict").truthy = true →
    .text result.verdict = platform.str (payload.get "verdict")
  noVerdict : (payload.get "verdict").truthy = false →
    result.verdict = "ERROR"
  score : (payload.get "score_pct").truthy = true →
    platform.float (payload.get "score_pct") = some result.scorePct
  exact : ∀ value, payload.get "score_pct" = .int value →
    result.scorePct = .finite value
  noScore : (payload.get "score_pct").truthy = false → result.scorePct = 0

/-- The effects of a callback that the contract knows, each with its answer. -/
inductive Honoured (deployment : Deployment) (payload : Payload)
    (db : Database) (sub : Submission) : CallbackReply → Database → Prop
  /-- A grade already landed. -/
  | ignored : sub.status = .done →
      Honoured deployment payload db sub .ignored db
  /-- Attempts remain after an error. -/
  | requeued {after : Database} {row : Submission} :
      isErrorPayload payload = true → payload.get "verdict" = .null →
      sub.attempts < deployment.maxTriggerAttempts →
      fetch Submission.id sub.id after.submissions = some row →
      row = { sub with status := .pending, updatedAt := row.updatedAt } →
      after = { db with submissions := after.submissions } →
      Honoured deployment payload db sub .requeued after
  | stored {after : Database} {row : Submission} {result : AssessmentResult} :
      fetch Submission.id sub.id after.submissions = some row →
      fetch AssessmentResult.submissionId sub.id after.results = some result →
      States (db.platform deployment) payload result →
      (row.status = .error ↔
        isErrorPayload payload = true ∨
          (payload.get "infra_error").truthy = true ∨
          result.verdict = "ERROR") →
      Honoured deployment payload db sub .ok after

/-- The payload carries no verdict, and the submission is graded or may be
triggered again: nothing of the payload is stored. -/
def Shelved (deployment : Deployment) (payload : Payload)
    (sub : Submission) : Prop :=
  payload.get "verdict" = .null ∧
    (sub.status = .done ∨
      sub.status.terminal = false ∧
        sub.attempts < deployment.maxTriggerAttempts)

/-- The month of the organisation takes what a callback adds to the cost of a
submission. -/
def Billed (platform : Platform) (questionId : String) (delta : Double) :
    Prop :=
  delta ≠ 0 → ∀ question, platform.question questionId = some question →
    platform.engine.takesCost question.orgId delta = true

/-- The database takes a payload as it is: the numbers can be converted, the
score is kept as the number it is, and the driver binds the texts and the whole
payload. -/
structure Stored (platform : Platform) (payload : Payload) : Prop where
  cost : ∀ value, payload.get "judge_cost_usd" = .int value →
    Platform.fitsDouble value = true
  score : ∃ score, payload.scorePct platform = some score ∧
    platform.engine.keepsNumber score = some score
  exact : ∀ value, payload.get "score_pct" = .int value →
    payload.scorePct platform = some (.finite value)
  verdict : ∃ verdict, payload.verdict platform = .text verdict ∧
    platform.engine.takesText verdict = true
  reason : ∃ reason, payload.reason platform = .text reason ∧
    platform.engine.takesText reason = true
  whole : platform.engine.takesJson (.obj payload) = true

/-- The handler can store a payload and bill its cost, and takes it for an error
where the contract does. -/
structure Readable (platform : Platform) (payload : Payload)
    (sub : Submission) : Prop where
  stored : Stored platform payload
  billed : Billed platform sub.questionId (payload.costDelta sub)
  error : payload.get "status" = .str (.text "error") →
    (payload.get "verdict").truthy = true →
      (payload.get "error").truthy = true ∨
        (payload.get "infra_error").truthy = true ∨
        platform.str (payload.get "verdict") = .text "ERROR"

/-! ## Single statements -/

theorem constraints_regraded {matched : Submission → Bool}
    {change : Submission → Submission} (constraints : db.Constraints)
    (keeps : KeepsSubmission change) :
    Database.Constraints
      { db with submissions := updateWhere matched change db.submissions } where
  uniqueKeys :=
    { constraints.uniqueKeys with
      submission := constraints.uniqueKeys.submission.updateWhere keeps.id
      submissionCandidate := by
        apply constraints.uniqueKeys.submissionCandidate.updateWhere
        intro row
        rw [keeps.inviteId, keeps.candidateEmail, keeps.questionId] }
  foreignKeys :=
    { constraints.foreignKeys with
      submissionQuestion :=
        constraints.foreignKeys.submissionQuestion.updateWhere
          fun row => Or.inr (congrArg some (keeps.questionId row))
      submissionInvite :=
        constraints.foreignKeys.submissionInvite.updateWhere
          fun row => Or.inr (keeps.inviteId row)
      resultSubmission :=
        constraints.foreignKeys.resultSubmission.updateTargets keeps.id }

theorem constraints_results {results : List AssessmentResult}
    (constraints : db.Constraints)
    (keyed : Keyed AssessmentResult.submissionId results)
    (refers : Refers (some ·.submissionId) results Submission.id
      db.submissions) :
    Database.Constraints { db with results := results } where
  uniqueKeys := { constraints.uniqueKeys with result := keyed }
  foreignKeys := { constraints.foreignKeys with resultSubmission := refers }

theorem settle_of_constraints {after : Database}
    (constraints : after.Constraints) : db.settle after = after :=
  if_pos constraints

theorem changed_loaded {Value : Type} [DecidableEq Value]
    (loaded new : Value) : changed loaded new loaded = new := by
  unfold changed
  split
  · next same => exact same.symm
  · rfl

/-- An ORM flush of one submission brings its row to the new status and cost. -/
theorem perform_saveSubmission {new : Submission}
    (constraints : db.Constraints)
    (found : fetch Submission.id sub.id db.submissions = some sub) :
    let after :=
      (Database.perform deployment around (.saveSubmission sub new) db).2
    after.Constraints ∧ after = { db with submissions := after.submissions } ∧
      ∃ row, fetch Submission.id sub.id after.submissions = some row ∧
        row = { sub with
          status := new.status
          judgeCostUsd := new.judgeCostUsd
          updatedAt := row.updatedAt } := by
  simp only [Database.perform]
  split
  · next same =>
    refine ⟨constraints, rfl, sub, found, ?_⟩
    rw [same.1, same.2]
  · have kept := keepsSubmission_flush sub new around.now
    have next := @constraints_regraded _ (fun row => row.id == sub.id) _
      constraints kept
    rw [Database.setSubmissions, settle_of_constraints next]
    refine ⟨next, rfl, Submission.flush sub new around.now sub, ?_, ?_⟩
    · rw [fetch_updateWhere_self (by simp) kept.id, found, Option.map_some]
    · rw [Submission.flush, changed_loaded, changed_loaded]

/-- The payload becomes the one result of its submission. -/
theorem run_upsertResult {graded : AssessmentResult}
    (constraints : db.Constraints)
    (isSub : sub ∈ db.submissions) (isOf : graded.submissionId = sub.id) :
    let ran := runProgram deployment around (upsertResult graded) db
    ran.1 = true ∧ ran.2.Constraints ∧
      ran.2 = { db with results := ran.2.results } ∧
      fetch AssessmentResult.submissionId sub.id ran.2.results =
        some graded := by
  have keyed := constraints.uniqueKeys.result
  have refers := constraints.foreignKeys.resultSubmission
  unfold runProgram upsertResult
  simp only [issue, run_bind, run_statement, Database.perform]
  cases found : fetch AssessmentResult.submissionId graded.submissionId
      db.results with
  | none =>
      have fresh : ∀ row ∈ db.results,
          row.submissionId ≠ graded.submissionId :=
        fetch_eq_none.mp found
      have next : Database.Constraints
          { db with results := db.results ++ [graded] } := by
        apply constraints_results constraints (keyed.append fresh)
        intro row member wanted names
        rcases List.mem_append.mp member with old | isNew
        · exact refers row old wanted names
        · obtain rfl := List.mem_singleton.mp isNew
          exact ⟨sub, isSub, isOf.symm.trans (Option.some.inj names)⟩
      simp only [run_statement, Database.perform, Database.inserts, if_pos next]
      refine ⟨trivial, next, trivial, ?_⟩
      exact next.uniqueKeys.result.fetch_eq (by simp) isOf
  | some existing =>
      have sameKey := key_of_fetch found
      let new : AssessmentResult :=
        { existing with
          verdict := graded.verdict
          scorePct := graded.scorePct
          reason := graded.reason
          fullResult := graded.fullResult }
      have kept : ∀ row,
          (AssessmentResult.flush existing new row).submissionId =
            row.submissionId :=
        fun _ => rfl
      have next : Database.Constraints
          { db with
            results :=
              updateWhere
                (fun row => row.submissionId == existing.submissionId)
                (AssessmentResult.flush existing new) db.results } :=
        constraints_results constraints (keyed.updateWhere kept)
          (Refers.updateWhere refers fun row =>
            Or.inr (congrArg some (kept row)))
      have isNew : AssessmentResult.flush existing new existing = graded := by
        simp only [AssessmentResult.flush, changed_loaded, new, sameKey]
      simp only [run_bind, run_statement, run_pure, Database.perform,
        Database.setResults]
      rw [settle_of_constraints next]
      refine ⟨trivial, next, rfl, ?_⟩
      rw [fetch_updateWhere_self (by simp [sameKey, isOf]) kept, ← isOf, found,
        Option.map_some, isNew]

/-- The submissions and the results stay as they are. -/
def KeepsGrades (db after : Database) : Prop :=
  after.submissions = db.submissions ∧ after.results = db.results

/-- What follows the commit of a grade leaves the grade. -/
theorem keepsGrades_perform {op : Op} (settling : op.settling)
    (db : Database) :
    KeepsGrades db (Database.perform deployment around op db).2 := by
  have settles (after : Database) (kept : KeepsGrades db after) :
      KeepsGrades db (db.settle after) := by
    unfold Database.settle
    split
    · exact kept
    · exact ⟨rfl, rfl⟩
  have inserts (after : Database) (kept : KeepsGrades db after) :
      KeepsGrades db (db.inserts after).2 := by
    unfold Database.inserts
    split
    · exact kept
    · exact ⟨rfl, rfl⟩
  rcases settling with metering | notifying
  · cases op with
    | insertUsage row => exact inserts _ ⟨rfl, rfl⟩
    | claimUsage => exact settles _ ⟨rfl, rfl⟩
    | bumpUsage => exact settles _ ⟨rfl, rfl⟩
    | saveUsage => exact settles _ ⟨rfl, rfl⟩
    | selectUsage => exact ⟨rfl, rfl⟩
    | commit => exact ⟨rfl, rfl⟩
    | rollback => exact ⟨rfl, rfl⟩
    | now => exact ⟨rfl, rfl⟩
    | _ => exact metering.elim
  · cases op with
    | stampAttempt id => exact settles _ ⟨rfl, rfl⟩
    | load => exact ⟨rfl, rfl⟩
    | selectGraded => exact ⟨rfl, rfl⟩
    | selectAttempt => exact ⟨rfl, rfl⟩
    | commit => exact ⟨rfl, rfl⟩
    | selectGradedResult => exact ⟨rfl, rfl⟩
    | deliver => exact ⟨rfl, rfl⟩
    | _ => exact notifying.elim

theorem keepsGrades_run {α : Type} {program : Prog α}
    (all : program.All Op.settling) (db : Database) :
    KeepsGrades db (runProgram deployment around program db).2 := by
  have keeps : Program.Triple (Database.perform deployment around)
      (KeepsGrades db) program fun _ => KeepsGrades db := by
    apply all.triple
    intro op settling state kept
    have step := @keepsGrades_perform deployment around op settling state
    exact ⟨step.1.trans kept.1, step.2.trans kept.2⟩
  exact keeps db ⟨rfl, rfl⟩

/-- The submission and its result say what a payload says. -/
def Graded (platform : Platform) (payload : Payload) (sub : Submission)
    (graded : AssessmentResult) (db : Database) : Prop :=
  fetch AssessmentResult.submissionId sub.id db.results = some graded ∧
    ∃ row, fetch Submission.id sub.id db.submissions = some row ∧
      row.questionId = sub.questionId ∧ row.status = payload.status platform

theorem run_storeGrade {platform : Platform} (constraints : db.Constraints)
    (found : fetch Submission.id sub.id db.submissions = some sub)
    (isOf : graded.submissionId = sub.id) :
    let ran :=
      runProgram deployment around (storeGrade platform payload sub graded) db
    ran.1 = true ∧ Graded platform payload sub graded ran.2 := by
  obtain ⟨stored, next, only, isResult⟩ :=
    @run_upsertResult deployment around db sub graded constraints
      (mem_of_fetch found) isOf
  unfold runProgram at stored next only isResult ⊢
  unfold storeGrade
  simp only [issue, run_bind, stored, Bool.not_true, Bool.false_eq_true,
    if_false, run_statement, run_pure]
  generalize (Program.run (Database.perform deployment around)
    (upsertResult graded) db).2 = middle at next only isResult ⊢
  have still : fetch Submission.id sub.id middle.submissions = some sub := by
    rw [only]
    exact found
  obtain ⟨_, saved, row, isRow, same⟩ :=
    @perform_saveSubmission deployment around middle sub
      { sub with
        judgeCostUsd := payload.storedCost platform sub
        status := payload.status platform } next still
  refine ⟨trivial, ?_, row, isRow, ?_, ?_⟩
  · rw [saved]
    exact isResult
  · rw [same]
  · rw [same]

/-- The cost is recorded exactly where the month takes it. -/
theorem run_recordCost {platform : Platform} {id : String} {delta : Double}
    {row : Submission}
    (found : fetch Submission.id id db.submissions = some row) :
    (runProgram deployment around (recordCost platform id delta) db).1 = true ↔
      Billed platform row.questionId delta := by
  unfold runProgram recordCost Billed
  by_cases zero : delta = 0
  · simp [zero]
  rw [if_neg zero]
  simp only [issue, run_bind, run_statement, Database.perform, found]
  cases platform.question row.questionId with
  | none => simp [zero]
  | some question =>
      cases takes : platform.engine.takesCost question.orgId delta <;>
        simp [zero, takes, run_bind]

/-- A payload that can be stored is stored, and answered by whether its cost is
recorded. -/
theorem run_landGrade {platform : Platform} (constraints : db.Constraints)
    (found : fetch Submission.id sub.id db.submissions = some sub)
    (converts : payload.result platform sub.id = some graded) :
    let ran :=
      runProgram deployment around (landGrade platform payload sub) db
    (∃ recorded, (recorded = true ↔
        Billed platform sub.questionId (payload.costDelta sub)) ∧
      ran.1 = if recorded then .ok else .serverError) ∧
      Graded platform payload sub graded ran.2 := by
  obtain ⟨stored, isGraded⟩ :=
    @run_storeGrade payload deployment around db sub graded platform constraints
      found (Payload.submissionId_of_result converts)
  obtain ⟨_, row, isRow, sameQuestion, _⟩ := id isGraded
  have bills := @run_recordCost deployment around _ platform sub.id
    (payload.costDelta sub) row isRow
  unfold runProgram at stored isGraded bills ⊢
  rw [sameQuestion] at bills
  have settles : (do
      let _ ← recordCost platform sub.id (payload.costDelta sub)
      let ready ← claimSitting platform sub.id
      deliverIfReady ready : Prog Unit).All Op.settling :=
    (recordCost_all _ _).bind fun _ =>
      ((claimSitting_all _).mono fun _ => Or.inr).bind fun ready =>
        (deliverIfReady_all ready).mono fun _ => Or.inr
  have kept := @keepsGrades_run deployment around _ _ settles
    (Program.run (Database.perform deployment around)
      (storeGrade platform payload sub graded) db).2
  unfold runProgram at kept
  simp only [run_bind] at kept
  unfold landGrade
  rw [converts]
  simp only [run_bind, stored, Bool.not_true, Bool.false_eq_true, if_false,
    run_pure]
  refine ⟨⟨_, bills, rfl⟩, ?_⟩
  rw [Graded, kept.1, kept.2]
  exact isGraded

/-! ## The whole callback -/

section Received

variable {job : String}

/-- A callback of a known job, by what becomes of its payload. -/
theorem receive_eq (constraints : db.Constraints) (given : job ≠ "")
    (isJob : payload.get "job_id" = .str (.text job))
    (matched : db.submissions.find? (fun row =>
      row.agentJobId == some job) = some sub) :
    receive deployment around payload db =
      if !deployment.engine.takesText job then (.serverError, db)
      else if payload.workerError (db.platform deployment) then
        if sub.status = .done then (.ignored, db)
        else if !sub.status.terminal ∧
            sub.attempts < deployment.maxTriggerAttempts then
          (.requeued, (Database.perform deployment around
            (.saveSubmission sub { sub with status := .pending }) db).2)
        else runProgram deployment around
          (landGrade (db.platform deployment) payload sub) db
      else runProgram deployment around
        (landGrade (db.platform deployment) payload sub) db := by
  have found : fetch Submission.id sub.id db.submissions = some sub :=
    constraints.uniqueKeys.submission.fetch_eq
      (List.mem_of_find?_eq_some matched) rfl
  have truthy : (Json.str job).truthy = true := by simp [Json.truthy, given]
  have binds : (db.platform deployment).engine.bindText (.str job) =
      if deployment.engine.takesText job then some job else none := rfl
  unfold receive runProgram assessmentsCallback
  simp only [isJob, truthy, Bool.not_true, Bool.false_eq_true, if_false, binds]
  cases deployment.engine.takesText job with
  | false => rfl
  | true =>
  simp only [Bool.not_true, Bool.false_eq_true, if_false, if_true, issue,
    run_bind, run_statement, Database.perform, matched, Option.map_some, found]
  have cap : (db.platform deployment).maxTriggerAttempts =
      deployment.maxTriggerAttempts := rfl
  split
  · rw [cap]
    split
    · rfl
    · split
      · simp only [run_bind, run_statement, run_pure, Database.perform]
      · rfl
  · rfl

end Received

/-! ## What the handler reads of a payload -/

section Reading

variable {platform : Platform}

theorem costOverflows_eq_false :
    payload.costOverflows = false ↔
      ∀ value, payload.get "judge_cost_usd" = .int value →
        Platform.fitsDouble value = true := by
  unfold Payload.costOverflows
  cases payload.get "judge_cost_usd" <;> simp

theorem bindText_eq_some {engine : Engine} {text : PyStr} {bound : String} :
    engine.bindText (.str text) = some bound ↔
      text = .text bound ∧ engine.takesText bound = true := by
  cases text with
  | text value =>
      change (if engine.takesText value then some value else none) =
        some bound ↔ _
      constructor
      · intro binds
        split at binds
        · next takes =>
          obtain rfl := Option.some.inj binds
          exact ⟨rfl, takes⟩
        · cases binds
      · rintro ⟨same, takes⟩
        obtain rfl := PyStr.text.inj same
        exact if_pos takes
  | broken value => simp [Engine.bindText]

theorem scorePct_of_truthy
    (truthy : (payload.get "score_pct").truthy = true) :
    payload.scorePct platform = platform.float (payload.get "score_pct") :=
  if_pos truthy

theorem scorePct_of_falsy
    (falsy : (payload.get "score_pct").truthy = false) :
    payload.scorePct platform = some 0 :=
  if_neg (Bool.eq_false_iff.mp falsy)

theorem isError_iff :
    payload.isError platform = true ↔
      (payload.get "error").truthy = true ∨
        (payload.get "infra_error").truthy = true ∨
        payload.verdict platform = "ERROR" := by
  have isText : (payload.verdict platform).is "ERROR" = true ↔
      payload.verdict platform = .text "ERROR" := by
    cases payload.verdict platform <;> simp [PyStr.is]
  simp only [Payload.isError, Bool.or_eq_true, isText]
  tauto

theorem verdict_of_truthy
    (truthy : (payload.get "verdict").truthy = true) :
    payload.verdict platform = platform.str (payload.get "verdict") := by
  simp [Payload.verdict, truthy]

theorem verdict_of_falsy (falsy : (payload.get "verdict").truthy = false) :
    payload.verdict platform = "ERROR" := by
  simp [Payload.verdict, falsy]

/-- A worker error is a payload without a verdict. -/
theorem workerError_iff :
    payload.workerError platform = true ↔ payload.get "verdict" = .null := by
  rw [Payload.workerError, Bool.and_eq_true, beq_iff_eq, and_iff_right_iff_imp]
  intro noVerdict
  refine isError_iff.mpr (.inr (.inr (verdict_of_falsy ?_)))
  rw [noVerdict]
  rfl

/-- What the database takes is stored as the payload says. -/
theorem result_of_stored (stored : Stored platform payload) (id : String) :
    ∃ graded, payload.result platform id = some graded ∧
      States platform payload graded := by
  obtain ⟨score, isScore, kept⟩ := stored.score
  obtain ⟨verdict, isVerdict, takesVerdict⟩ := stored.verdict
  obtain ⟨reason, isReason, takesReason⟩ := stored.reason
  let graded : AssessmentResult := ⟨id, verdict, score, reason, .obj payload⟩
  have isGraded : payload.result platform id = some graded :=
    Payload.result_eq_some.mpr
      ⟨costOverflows_eq_false.mpr stored.cost, stored.whole, score, isScore,
        kept, bindText_eq_some.mpr ⟨isVerdict, takesVerdict⟩,
        bindText_eq_some.mpr ⟨isReason, takesReason⟩, rfl, rfl⟩
  refine ⟨graded, isGraded, ?_, ?_, ?_, ?_, ?_⟩
  · intro truthy
    exact isVerdict.symm.trans (verdict_of_truthy truthy)
  · intro falsy
    exact PyStr.text.inj (isVerdict.symm.trans (verdict_of_falsy falsy))
  · intro truthy
    exact (scorePct_of_truthy truthy).symm.trans isScore
  · intro value isInt
    exact Option.some.inj (isScore.symm.trans (stored.exact value isInt))
  · intro falsy
    exact Option.some.inj (isScore.symm.trans (scorePct_of_falsy falsy))

/-- What is stored as the payload says was taken as it is. -/
theorem stored_of_result {id : String}
    (isGraded : payload.result platform id = some graded)
    (states : States platform payload graded) : Stored platform payload := by
  obtain ⟨fits, whole, score, isScore, kept, bindsVerdict, bindsReason, -, -⟩ :=
    Payload.result_eq_some.mp isGraded
  have same : score = graded.scorePct := by
    cases isTruthy : (payload.get "score_pct").truthy with
    | true =>
        rw [scorePct_of_truthy isTruthy, states.score isTruthy] at isScore
        exact (Option.some.inj isScore).symm
    | false =>
        rw [scorePct_of_falsy isTruthy] at isScore
        exact (Option.some.inj isScore).symm.trans
          (states.noScore isTruthy).symm
  rw [same] at isScore kept
  refine ⟨costOverflows_eq_false.mp fits, ⟨_, isScore, kept⟩, ?_,
    ⟨_, bindText_eq_some.mp bindsVerdict⟩,
    ⟨_, bindText_eq_some.mp bindsReason⟩, whole⟩
  intro value isInt
  rw [isScore, states.exact value isInt]

/-- The handler takes a payload for an error exactly where the contract does. -/
theorem isError_agrees_iff :
    (payload.isError platform = true ↔
      isErrorPayload payload = true ∨
        (payload.get "infra_error").truthy = true ∨
        payload.verdict platform = "ERROR") ↔
    (payload.get "status" = .str (.text "error") →
      (payload.get "verdict").truthy = true →
        (payload.get "error").truthy = true ∨
          (payload.get "infra_error").truthy = true ∨
          platform.str (payload.get "verdict") = .text "ERROR") := by
  rw [isError_iff]
  have envelope : isErrorPayload payload = true ↔
      (payload.get "error").truthy = true ∨
        payload.get "status" = .str (.text "error") := by
    simp [isErrorPayload]
  rw [envelope]
  cases isTruthy : (payload.get "verdict").truthy with
  | true =>
      rw [verdict_of_truthy isTruthy]
      tauto
  | false =>
      rw [verdict_of_falsy isTruthy]
      simp

end Reading

/-! ## The contract honoured -/

/-- A payload that lands is honoured exactly when it can be read. -/
theorem honoured_landGrade_iff (constraints : db.Constraints)
    (found : fetch Submission.id sub.id db.submissions = some sub) :
    let ran := runProgram deployment around
      (landGrade (db.platform deployment) payload sub) db
    Honoured deployment payload db sub ran.1 ran.2 ↔
      Readable (db.platform deployment) payload sub := by
  cases converts : payload.result (db.platform deployment) sub.id with
  | none =>
      have raises : runProgram deployment around
          (landGrade (db.platform deployment) payload sub) db =
            (.serverError, db) := by
        unfold runProgram landGrade
        rw [converts]
        rfl
      rw [raises]
      constructor
      · intro honoured
        cases honoured
      · intro readable
        obtain ⟨graded, isGraded, _⟩ := result_of_stored readable.stored sub.id
        rw [converts] at isGraded
        cases isGraded
  | some graded =>
      obtain ⟨⟨recorded, bills, answer⟩, isResult, row, isRow, _, isStatus⟩ :=
        @run_landGrade payload deployment around db sub graded _ constraints
          found converts
      have status : row.status = .error ↔
          payload.isError (db.platform deployment) = true := by
        rw [isStatus, Payload.status]
        split
        · next error => exact iff_of_true rfl error
        · next graded => exact iff_of_false nofun graded
      obtain ⟨-, -, _, -, -, bindsVerdict, -⟩ :=
        Payload.result_eq_some.mp converts
      have agreement :=
        @isError_agrees_iff payload (db.platform deployment)
      rw [(bindText_eq_some.mp bindsVerdict).1, PyStr.text.injEq] at agreement
      dsimp only
      rw [answer]
      cases recorded with
      | false =>
          constructor
          · intro honoured
            cases honoured
          · intro readable
            cases bills.mpr readable.billed
      | true =>
          constructor
          · intro honoured
            cases honoured with
            | stored isRow' isResult' states agrees =>
                obtain rfl := Option.some.inj (isRow.symm.trans isRow')
                obtain rfl := Option.some.inj (isResult.symm.trans isResult')
                rw [status] at agrees
                exact ⟨stored_of_result converts states, bills.mp rfl,
                  agreement.mp agrees⟩
          · intro readable
            obtain ⟨found, isFound, states⟩ :=
              result_of_stored readable.stored sub.id
            obtain rfl := Option.some.inj (converts.symm.trans isFound)
            exact .stored isRow isResult states
              (status.trans (agreement.mpr readable.error))

/-- Every payload that the validator lets through, of a job that a submission
is waiting for, is answered 200 and ignored, requeued or stored as the contract
says, exactly when the driver binds the job and the payload is shelved or can be
read. -/
theorem callback_honoured_iff (deployment : Deployment)
    (around : Surroundings) (repr : Json → String) (payload : Payload)
    (db : Database) (sub : Submission) (job : String)
    (constraints : db.Constraints)
    (accepted : validateCallback repr (.obj payload) = [])
    (isJob : payload.get "job_id" = .str (.text job))
    (matched : db.submissions.find? (fun row =>
      row.agentJobId == some job) = some sub) :
    Honoured deployment payload db sub
        (receive deployment around payload db).1
        (receive deployment around payload db).2 ↔
      deployment.engine.takesText job = true ∧
        (Shelved deployment payload sub ∨
          Readable (db.platform deployment) payload sub) := by
  obtain ⟨known, isGiven, same⟩ := jobId_of_accepted accepted
  obtain rfl : known = .text job := Json.str.inj (same.symm.trans isJob)
  have given : job ≠ "" := by simpa using isGiven
  have found : fetch Submission.id sub.id db.submissions = some sub :=
    constraints.uniqueKeys.submission.fetch_eq
      (List.mem_of_find?_eq_some matched) rfl
  have landed :=
    @honoured_landGrade_iff payload deployment around db sub constraints found
  dsimp only at landed
  rw [receive_eq constraints given isJob matched]
  by_cases binds : deployment.engine.takesText job = true
  case neg =>
    rw [if_pos (by simpa using binds)]
    exact iff_of_false nofun fun holds => binds holds.1
  rw [if_neg (by simpa using binds), and_iff_right binds]
  by_cases noVerdict : payload.get "verdict" = .null
  · rw [if_pos (workerError_iff.mpr noVerdict)]
    by_cases done : sub.status = .done
    · rw [if_pos done]
      exact iff_of_true (.ignored done) (.inl ⟨noVerdict, .inl done⟩)
    · rw [if_neg done]
      by_cases again : !sub.status.terminal ∧
          sub.attempts < deployment.maxTriggerAttempts
      · rw [if_pos again]
        obtain ⟨_, only, row, isRow, isPending⟩ :=
          @perform_saveSubmission deployment around db sub
            { sub with status := .pending } constraints found
        have isEnvelope := isErrorPayload_of_noVerdict accepted noVerdict
        exact iff_of_true
          (.requeued isEnvelope noVerdict again.2 isRow isPending only)
          (.inl ⟨noVerdict, .inr ⟨by simpa using again.1, again.2⟩⟩)
      · rw [if_neg again, landed]
        constructor
        · exact .inr
        · rintro (⟨_, isDone | later⟩ | readable)
          · exact absurd isDone done
          · exact absurd ⟨by simpa using later.1, later.2⟩ again
          · exact readable
  · rw [if_neg (mt workerError_iff.mp noVerdict), landed]
    constructor
    · exact .inr
    · rintro (shelved | readable)
      · exact absurd shelved.1 noVerdict
      · exact readable

namespace Samples

open Scenario (deployment surroundings submitted play)

/-- A database with one submission, whose job is running. -/
def waiting : Database := (play submitted).2

/-- The submission. -/
def running : Submission :=
  (waiting.submissions.find? fun row => row.agentJobId == some "job").get
    (by decide +kernel)

/-- A callback of that job. -/
def callback (fields : Payload) : Payload :=
  ("job_id", .str "job") :: fields

/-- A grade with a score and a reason, and maybe more. -/
def gradeOf (score : Json) (reason : PyStr) (more : Payload) : Payload :=
  callback (("verdict", .str "PASS") :: ("score_pct", score) ::
    ("reason", .str reason) :: more)

/-- A grade. -/
def passed : Payload :=
  gradeOf (.int 90) "all tests passed" []

/-- A score that no double is near, one that is NaN, a reason with a lone
surrogate, and a cost that is NaN. -/
def rejected : List Payload :=
  [gradeOf (.int (10 ^ 400)) "" [], gradeOf (.float .nan) "" [],
    gradeOf (.int 90) (.ofCodes [0xD800]) [],
    gradeOf (.int 90) "" [("judge_cost_usd", .float .nan)]]

/-- A score that is no double. -/
def betweenDoubles : Payload :=
  gradeOf (.int (2 ^ 53 + 1)) "" []

/-- An error envelope that carries a grade. -/
def gradedError : Payload :=
  callback [("status", .str "error"), ("verdict", .str "PASS")]

/-- Python's `repr`, which shows in violations only. -/
def shownValue : Json → String := fun _ => ""

end Samples

open Samples in
/-- A grade is stored as the contract says. -/
theorem callback_honoured_grade :
    Honoured Scenario.deployment passed waiting running
      (receive Scenario.deployment (Scenario.surroundings 9 'r') passed
        waiting).1
      (receive Scenario.deployment (Scenario.surroundings 9 'r') passed
        waiting).2 := by
  have constraints : waiting.Constraints :=
    (Scenario.run_play Scenario.submitted).constraints
  have ninety : Double.ofInt 90 = .finite 90 :=
    Double.ofInt_of_natAbs_le (by decide)
  have fits : Platform.fitsDouble 90 = true := by decide +kernel
  have score : passed.scorePct (waiting.platform Scenario.deployment) =
      some (.finite 90) := by
    have isInt : passed.get "score_pct" = .int 90 := rfl
    rw [scorePct_of_truthy (isInt ▸ rfl), isInt, Platform.float, if_pos fits,
      ninety]
  have stored : Stored (waiting.platform Scenario.deployment) passed :=
    { cost := by simp [passed, gradeOf, callback, Payload.get]
      score := ⟨.finite 90, score, rfl⟩
      exact := by
        intro value isInt
        obtain rfl : 90 = value := Json.int.inj isInt
        exact score
      verdict := ⟨"PASS", rfl, rfl⟩
      reason := ⟨"all tests passed", rfl, rfl⟩
      whole := rfl }
  have readable : Readable (waiting.platform Scenario.deployment) passed
      running :=
    { stored := stored
      billed := fun costs => absurd rfl costs
      error := by simp [passed, gradeOf, callback, Payload.get] }
  exact (callback_honoured_iff Scenario.deployment
    (Scenario.surroundings 9 'r') shownValue passed waiting running "job"
    constraints (by decide +kernel) rfl (Option.some_get _).symm).mpr
      ⟨rfl, .inr readable⟩

open Samples in
/-- The validator lets all these callbacks through.  The first ones end in a
server error, one is stored with another score, and an error envelope leaves a
submission without an error. -/
theorem callback_dishonoured :
    (∀ payload ∈ rejected, validateCallback shownValue (.obj payload) = [] ∧
      (receive Scenario.deployment (Scenario.surroundings 9 'r') payload
        waiting).1 = .serverError) ∧
      (validateCallback shownValue (.obj betweenDoubles) = [] ∧
        (receive Scenario.deployment (Scenario.surroundings 9 'r')
          betweenDoubles waiting).2.results.map AssessmentResult.scorePct =
            [.finite (2 ^ 53)]) ∧
      validateCallback shownValue (.obj gradedError) = [] ∧
      isErrorPayload gradedError = true ∧
      (receive Scenario.deployment (Scenario.surroundings 9 'r') gradedError
        waiting).1 = .ok ∧
      (receive Scenario.deployment (Scenario.surroundings 9 'r') gradedError
        waiting).2.submissions.map Submission.status = [.done] := by
  decide +kernel

end AssessmentPlatform.CallbackContract
