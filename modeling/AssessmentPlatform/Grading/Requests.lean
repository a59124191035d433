import AssessmentPlatform.Grading.Trigger
import AssessmentPlatform.Interleaving.System

/-!
# Requests: submissions, callbacks and erasures

The remaining programs, and the system in which any number of threads run any
requests over one database.
-/

namespace AssessmentPlatform

open Interleaving

/-! ## Submissions -/

/-- What a candidate sends to `/submit`, with the identifiers that the server
mints for the rows it may insert.  The address is a validated `EmailStr`. -/
structure CandidateSubmit where
  inviteId : Nat
  email : String
  email_nonempty : email ≠ ""
  questionId : String
  candidateName : String
  consent : Bool
  language : String
  code : String
  submissionId : String
  attemptId : Nat
  deriving DecidableEq, Repr

/-- How the candidate routes refuse a request. -/
inductive Refusal where
  | invalidToken
  | notPartOfInvite
  | alreadySubmitted
  | consentRequired
  | unavailable
  | noOrganisation
  | dateOutOfRange
  deriving DecidableEq, Repr

/-- `_claim_sitting`: a spent allowance reads as "not available" to a
candidate. -/
def claimAllowance (platform : Platform) (orgId : Nat) :
    Prog (Except Refusal Unit) := do
  let some org := platform.organization orgId | return .error .noOrganisation
  match ← consume platform org .sittings 1 with
  | .granted => return .ok ()
  | .refused _ => return .error .unavailable

/-- `_get_or_start_attempt` -/
def getOrStartAttempt
    (platform : Platform) (invite : Invite) (email : String)
    (candidateName : String) (consent : Bool) (attemptId : Nat) :
    Prog (Except Refusal CandidateAttempt) := do
  match ← issue (.selectAttempt invite.id email) with
  | some existing =>
      if existing.candidateName.isNone then
        issue (.saveAttemptName existing.id candidateName)
        issue .commit
        return .ok { existing with candidateName := some candidateName }
      else
        return .ok existing
  | none =>
      if !consent then return .error .consentRequired
      let some orgId := platform.inviteOrg invite
        | return .error .noOrganisation
      match ← claimAllowance platform orgId with
      | .error refusal => return .error refusal
      | .ok () =>
          let now ← issue .now
          let attempt : CandidateAttempt :=
            { id := attemptId
              inviteId := invite.id
              candidateEmail := email
              candidateName := some candidateName
              startedAt := now
              consentAt := some now
              consentVersion := some platform.privacyPolicyVersion
              resultsNotifiedAt := none
              erasedAt := none
              updatedAt := now }
          let inserted ← issue (.insertAttempt attempt)
          if inserted then
            issue .commit
            return .ok attempt
          else
            issue .rollback
            let some raced ← issue (.selectAttempt invite.id email)
              | return .error .noOrganisation
            release platform orgId .sittings 1
            return .ok raced

/-- `_submit_is_late` -/
def submitIsLate
    (platform : Platform) (invite : Invite) (attempt : CandidateAttempt)
    (now : Time) : Bool :=
  match invite.durationMinutes with
  | none => false
  | some minutes =>
      decide
        (now >
          attempt.startedAt + minutes * 60 * second +
            platform.submitGraceSeconds * second)

/-- Whether `_submit_is_late` can compute its dates of a sitting; the addition
of a `timedelta` raises where it leaves the years of a `datetime`. -/
def lateDatesFit (platform : Platform) (invite : Invite) (startedAt : Time) :
    Bool :=
  match invite.durationMinutes with
  | none => true
  | some minutes =>
      let deadline := startedAt + minutes * 60 * second
      representable deadline &&
        representable (deadline + platform.submitGraceSeconds * second)

/-- `candidate_submit`, once the token has named an invite that admits the
candidate. -/
def candidateSubmit (platform : Platform) (request : CandidateSubmit) :
    Prog (Except Refusal String) := do
  let some invite := platform.invite request.inviteId
    | return .error .invalidToken
  if request.questionId ∉ platform.inviteQuestions invite request.email then
    return .error .notPartOfInvite
  let submitted ←
    issue (.selectSubmitted invite.id request.email request.questionId)
  if submitted then return .error .alreadySubmitted
  match ← getOrStartAttempt platform invite request.email
      request.candidateName request.consent request.attemptId with
  | .error refusal => return .error refusal
  | .ok attempt =>
      if !lateDatesFit platform invite attempt.startedAt then
        return .error .dateOutOfRange
      let now ← issue .now
      let inserted ← issue (.insertSubmission
        { id := request.submissionId
          questionId := request.questionId
          inviteId := some invite.id
          candidate := attempt.candidateName.getD request.candidateName
          candidateEmail := some request.email
          language := request.language
          code := request.code
          status := .pending
          late := submitIsLate platform invite attempt now
          agentJobId := none
          attempts := 0
          errorReason := none
          judgeCostUsd := none
          updatedAt := now })
      if !inserted then
        issue .rollback
        return .error .alreadySubmitted
      issue .commit
      let _ ← issue (.refresh request.submissionId)
      triggerAgent platform request.submissionId
      return .ok request.submissionId

/-- What an interviewer posts to `/submissions`. -/
structure DirectSubmit where
  questionId : String
  candidate : String
  language : String
  code : String
  submissionId : String
  deriving DecidableEq, Repr

/-- `create_submission`, by a member of the organisation that owns the
question. -/
def createSubmission (platform : Platform) (request : DirectSubmit) :
    Prog Unit := do
  if (platform.question request.questionId).isNone then return ()
  let now ← issue .now
  let inserted ← issue (.insertSubmission
    { id := request.submissionId
      questionId := request.questionId
      inviteId := none
      candidate := request.candidate
      candidateEmail := none
      language := request.language
      code := request.code
      status := .pending
      late := false
      agentJobId := none
      attempts := 0
      errorReason := none
      judgeCostUsd := none
      updatedAt := now })
  if !inserted then
    issue .rollback
    return ()
  issue .commit
  let _ ← issue (.refresh request.submissionId)
  triggerAgent platform request.submissionId

/-! ## The agent's callback -/

namespace Payload

/-- `str(payload.get("verdict") or "ERROR")` -/
def verdict (payload : Payload) (platform : Platform) : PyStr :=
  let value := payload.get "verdict"
  if value.truthy then platform.str value else "ERROR"

/-- `_is_error_payload` -/
def isError (payload : Payload) (platform : Platform) : Bool :=
  (payload.verdict platform).is "ERROR" ||
    (payload.get "error").truthy || (payload.get "infra_error").truthy

/-- The worker's exception path, `payload.get("verdict") is None` on an error:
the job never ran to completion. -/
def workerError (payload : Payload) (platform : Platform) : Bool :=
  payload.isError platform && payload.get "verdict" == .null

/-- `str(payload.get("reason") or payload.get("error") or "")` -/
def reason (payload : Payload) (platform : Platform) : PyStr :=
  let reason := payload.get "reason"
  let error := payload.get "error"
  if reason.truthy then platform.str reason
  else if error.truthy then platform.str error
  else ""

/-- `float(payload.get("score_pct") or 0.0)`: `none` where it raises. -/
def scorePct (payload : Payload) (platform : Platform) : Option Double :=
  let value := payload.get "score_pct"
  if value.truthy then platform.float value else some 0

/-- The judge's cost, when the payload carries a number (a Python `bool` is an
`int`). -/
def judgeCost (payload : Payload) : Option Double :=
  match payload.get "judge_cost_usd" with
  | .int value => some (.ofInt value)
  | .float value => some value
  | .bool value => some (.finite (if value then 1 else 0))
  | .null | .str _ | .arr _ | .obj _ => none

/-- Whether `float(reported_cost)` raises. -/
def costOverflows (payload : Payload) : Bool :=
  match payload.get "judge_cost_usd" with
  | .int value => !Platform.fitsDouble value
  | _ => false

/-- The status of a submission whose grade is stored from the payload. -/
def status (payload : Payload) (platform : Platform) : Status :=
  if payload.isError platform then .error else .done

/-- The result row that the payload is stored as, unless one of the values that
the handler converts does not convert, or one that it stores is refused by the
database; nothing is flushed before. -/
def result (payload : Payload) (platform : Platform)
    (submissionId : String) : Option AssessmentResult := do
  if payload.costOverflows then none
  let score ← payload.scorePct platform
  let stored ← platform.engine.keepsNumber score
  let verdict ← platform.engine.bindText (.str (payload.verdict platform))
  let reason ← platform.engine.bindText (.str (payload.reason platform))
  if !platform.engine.takesJson (.obj payload) then none
  return {
    submissionId := submissionId
    verdict := verdict
    scorePct := stored
    reason := reason
    fullResult := .obj payload }

/-- What it takes for a payload to be stored as a row. -/
theorem result_eq_some {payload : Payload} {platform : Platform}
    {submissionId : String} {graded : AssessmentResult} :
    payload.result platform submissionId = some graded ↔
      payload.costOverflows = false ∧
      platform.engine.takesJson (.obj payload) = true ∧
      ∃ score, payload.scorePct platform = some score ∧
        platform.engine.keepsNumber score = some graded.scorePct ∧
        platform.engine.bindText (.str (payload.verdict platform)) =
          some graded.verdict ∧
        platform.engine.bindText (.str (payload.reason platform)) =
          some graded.reason ∧
        submissionId = graded.submissionId ∧
        .obj payload = graded.fullResult := by
  obtain ⟨gradedId, verdict, scorePct, reason, fullResult⟩ := graded
  unfold result
  cases payload.costOverflows with
  | true => simp
  | false =>
      cases platform.engine.takesJson (.obj payload) <;>
        simp [Option.bind_eq_some_iff]

theorem submissionId_of_result {payload : Payload} {platform : Platform}
    {submissionId : String} {graded : AssessmentResult}
    (stored : payload.result platform submissionId = some graded) :
    graded.submissionId = submissionId := by
  obtain ⟨-, -, _, -, -, -, -, same, -⟩ := result_eq_some.mp stored
  exact same.symm

/-- What the column of the judge's cost keeps. -/
def storedCost (payload : Payload) (platform : Platform) (sub : Submission) :
    Option Double :=
  match payload.judgeCost with
  | some cost => platform.engine.keepsNumber cost
  | none => sub.judgeCostUsd

end Payload

/-- How `assessments_callback` answers. -/
inductive CallbackReply where
  | badRequest
  | ignored
  | requeued
  | ok
  | serverError
  deriving DecidableEq, Repr

/-- Bring the stored record up to date, or store the first one: `false` where
the INSERT violates the unique key. -/
def upsertResult (graded : AssessmentResult) : Prog Bool := do
  match ← issue (.selectResult graded.submissionId) with
  | some existing =>
      issue (.saveResult existing
        { existing with
          verdict := graded.verdict
          scorePct := graded.scorePct
          reason := graded.reason
          fullResult := graded.fullResult })
      return true
  | none => issue (.insertResult graded)

/-- Store the payload as the submission's grade, from the session's copy of the
row: `false` where the transaction fails on the result's unique key. -/
def storeGrade
    (platform : Platform) (payload : Payload) (sub : Submission)
    (graded : AssessmentResult) : Prog Bool := do
  let stored ← upsertResult graded
  if !stored then
    issue .rollback
    return false
  issue (.saveSubmission sub
    { sub with
      judgeCostUsd := payload.storedCost platform sub
      status := payload.status platform })
  issue .commit
  return true

/-- What the payload adds to the cost already billed for the submission. -/
def Payload.costDelta (payload : Payload) (sub : Submission) : Double :=
  (payload.judgeCost.map (· - sub.judgeCostUsd.getD 0)).getD 0

/-- Roll the cost delta up into the organisation's month: `false` where
`billing.record` raises. -/
def recordCost (platform : Platform) (id : String) (costDelta : Double) :
    Prog Bool := do
  if costDelta = 0 then return true
  let some sub ← issue (.load id) | return true
  let some question := platform.question sub.questionId | return true
  if !platform.engine.takesCost question.orgId costDelta then return false
  record platform question.orgId { judgeCostUsd := costDelta }
  return true

/-- The part of `assessments_callback` that takes the payload as the
submission's grade. -/
def landGrade (platform : Platform) (payload : Payload) (sub : Submission) :
    Prog CallbackReply := do
  let some graded := payload.result platform sub.id | return .serverError
  let stored ← storeGrade platform payload sub graded
  if !stored then return .serverError
  let recorded ← recordCost platform sub.id (payload.costDelta sub)
  -- Where `billing.record` raises, the source ends here, with the grade stored
  -- and the completion step left out; the model still takes that step.
  let ready ← claimSitting platform sub.id
  deliverIfReady ready
  return if recorded then .ok else .serverError

/-- `assessments_callback`.  At the flush of a commit the unit of work saves
the result before the submission. -/
def assessmentsCallback (platform : Platform) (payload : Payload) :
    Prog CallbackReply := do
  let jobId := payload.get "job_id"
  if !jobId.truthy then return .badRequest
  let some job := platform.engine.bindText jobId | return .serverError
  let some id ← issue (.selectByJob job) | return .ignored
  let some sub ← issue (.load id) | return .ignored
  if payload.workerError platform then
    if sub.status = .done then return .ignored
    if !sub.status.terminal ∧ sub.attempts < platform.maxTriggerAttempts then
      issue (.saveSubmission sub { sub with status := .pending })
      issue .commit
      return .requeued
  landGrade platform payload sub

/-! ## Erasure -/

/-- `privacy.TOMBSTONE_DOMAIN` -/
def tombstoneDomain : String := "erased.invalid"

/-- `_tombstone`, from the random half of a fresh identifier. -/
def tombstoneOf (token : String) : String :=
  "erased-" ++ token ++ "@" ++ tombstoneDomain

/-- `erase_candidate` or `erase_sitting`, and the caller's commit, on the
submissions, their results and the attempts. -/
def eraseCandidate
    (scope : ErasureScope) (email : String) (token : String) :
    Prog Unit := do
  let ids ← issue (.selectErasable scope email)
  if ids ≠ [] then
    issue (.eraseResults ids)
    issue (.eraseSubmissions ids (tombstoneOf token))
  issue (.eraseAttempts scope email (tombstoneOf token))
  issue .commit

/-! ## The system -/

/-- What one thread does. -/
inductive Request where
  | idle
  | candidateSubmit (request : CandidateSubmit)
  | createSubmission (request : DirectSubmit)
  | retrySubmission (id : String)
  | reapTick
  | assessmentsCallback (payload : Payload)
  | erase (scope : ErasureScope) (email token : String)
  | consume (org : Organization) (metric : Metric) (amount : Int)
  | passTime (elapsed : Nat)
  deriving DecidableEq, Repr

/-- What a thread returns. -/
inductive Reply where
  | done
  | submitted (reply : Except Refusal String)
  | retried (reply : RetryReply)
  | acknowledged (reply : CallbackReply)
  | consumed (reply : Consumed)

/-- The program of a request. -/
def Request.program (platform : Platform) : Request → Prog Reply
  | .idle => return .done
  | .candidateSubmit request => do
      let reply ← AssessmentPlatform.candidateSubmit platform request
      return .submitted reply
  | .createSubmission request => do
      AssessmentPlatform.createSubmission platform request
      return .done
  | .retrySubmission id => do
      let reply ← AssessmentPlatform.retrySubmission platform id
      return .retried reply
  | .reapTick => do
      AssessmentPlatform.reapTick platform
      return .done
  | .assessmentsCallback payload => do
      let reply ← AssessmentPlatform.assessmentsCallback platform payload
      return .acknowledged reply
  | .erase scope email token => do
      eraseCandidate scope email token
      return .done
  | .consume org metric amount => do
      let reply ← AssessmentPlatform.consume platform org metric amount
      return .consumed reply
  | .passTime elapsed => do
      issue (.passTime elapsed)
      return .done

/-- The platform serving the requests that `requests` assigns to its threads. -/
@[reducible]
def serving (platform : Platform) (requests : Nat → Request) :
    System Nat Op Resp AgentAnswer Reply Store where
  exec := exec platform
  program := fun tid => (requests tid).program platform

end AssessmentPlatform
