import AssessmentPlatform.Grading.Billing

/-!
# Grading: claims, triggers, the reaper and the results notification

The programs of `notify.claim_sitting` and of the functions that move a
submission between `pending`, `running`, `done` and `error` on the platform's
side.  A session attribute is read by `load`, which is a SELECT exactly when the
object has been expired by a commit.
-/

namespace AssessmentPlatform

open Interleaving

/-! ## The results notification -/

/-- What is reported for a submission: its stored verdict and score, or `ERROR`
and nought where no result is stored. -/
def reportOf : Option AssessmentResult → String × Double
  | some result => (result.verdict, result.scorePct)
  | none => ("ERROR", 0)

/-- `_graded_question` -/
def gradedQuestion (platform : Platform) (id : String) :
    Prog GradedQuestion := do
  let questionId :=
    match ← issue (.load id) with
    | some sub => sub.questionId
    | none => ""
  let result ← issue (.selectGradedResult id)
  return {
    submissionId := id
    questionId := questionId
    title := ((platform.question questionId).map Question.title).getD questionId
    verdict := (reportOf result).1
    scorePct := (reportOf result).2 }

/-- The questions of `_payload`, in the order of the selection. -/
def gradedQuestions (platform : Platform) :
    List String → Prog (List GradedQuestion)
  | [] => return []
  | id :: rest => do
      let question ← gradedQuestion platform id
      let questions ← gradedQuestions platform rest
      return question :: questions

/-- The title a notification is sent under. -/
def sittingTitle
    (platform : Platform) (invite : Invite) (questionId : String) : String :=
  match invite.assessmentId.bind platform.assessment with
  | some assessment => assessment.title
  | none =>
      ((platform.question questionId).map Question.title).getD
        "Coding assessment"

/-- `_payload` -/
def payloadOf
    (platform : Platform) (invite : Invite) (id : String)
    (graded : List String) : Prog (Option ResultsReady) := do
  let some sub ← issue (.load id) | return none
  let questions ← gradedQuestions platform graded
  return some
    { orgId := ((platform.question sub.questionId).map Question.orgId).getD 0
      inviteId := invite.id
      candidate := sub.candidate
      candidateEmail := sub.candidateEmail
      title := sittingTitle platform invite sub.questionId
      submissionId := id
      questions := questions }

/-- `claim_sitting`: if the submission completed its sitting and nobody has been
notified yet, claim the notification and return what to send. -/
def claimSitting (platform : Platform) (id : String) :
    Prog (Option ResultsReady) := do
  let some sub ← issue (.load id) | return none
  let some inviteId := sub.inviteId | return none
  let some email := sub.candidateEmail | return none
  if email = "" then return none
  let some invite := platform.invite inviteId | return none
  let graded ← issue (.selectGraded inviteId email)
  if graded.length < platform.slotCount invite then return none
  let some attempt ← issue (.selectAttempt inviteId email) | return none
  let won ← issue (.stampAttempt attempt.id)
  issue .commit
  if !won then return none
  payloadOf platform invite id graded

/-- `reopen_sitting`: clear the notified stamp of the submission's sitting. -/
def reopenSitting (id : String) : Prog Unit := do
  let some sub ← issue (.load id) | return ()
  let some inviteId := sub.inviteId | return ()
  let some email := sub.candidateEmail | return ()
  if email = "" then return ()
  issue (.clearStamp inviteId email)
  issue .commit

/-- Hand a claimed notification to delivery: behind the response, or in a worker
thread of the reaper. -/
def deliverIfReady : Option ResultsReady → Prog Unit
  | none => return ()
  | some ready => issue (.deliver ready)

/-- `_end_sitting_if_complete` -/
def endSittingIfComplete (platform : Platform) (id : String) : Prog Unit := do
  let ready ← claimSitting platform id
  deliverIfReady ready

/-! ## Claims and triggers -/

/-- `_cas`: a conditional UPDATE on `(status, attempts)`, committed, and the
session's copy refreshed. -/
def cas
    (id : String) (expectStatus : Status) (expectAttempts : Nat)
    (values : SubmissionChange) : Prog Bool := do
  let won ← issue (.casSubmission id expectStatus expectAttempts values)
  issue .commit
  let _ ← issue (.refresh id)
  return won

/-- `MAX_ERROR_REASON_CHARS` -/
def maxErrorReasonChars : Nat := 500

/-- The reason stored when the agent refuses a job, cut to the column. -/
def refusalReason (detail : String) : String :=
  String.ofList
    (("the grader refused this submission: " ++ detail).toList.take
      maxErrorReasonChars)

/-- The reason stored when the reaper gives up. -/
def giveUpReason (attempts : Nat) : String :=
  "the grader never answered after " ++ toString attempts ++
    " attempt(s); the submission was not graded."

/-- The claim of `_trigger_agent`: `pending` under the submission's own id, one
attempt more, and no older failure. -/
def claimChange (id : String) (attempt : Nat) : SubmissionChange :=
  { status := .pending
    agentJobId := some id
    attempts := some attempt
    errorReason := some none }

/-- `_trigger_agent`: claim the submission for one more trigger and make it. -/
def triggerAgent (platform : Platform) (id : String) : Prog Unit := do
  let some sub ← issue (.load id) | return ()
  let attempt := sub.attempts + 1
  let claimed ← cas id sub.status sub.attempts (claimChange id attempt)
  if !claimed then return ()
  let some job ← issue (.load id) | return ()
  match ← issue (.trigger attempt job) with
  | .refused detail =>
      let refused ← cas id .pending attempt
        { status := .error
          errorReason := some (some (refusalReason detail)) }
      if refused then endSittingIfComplete platform id
  | .failed => return ()
  | .accepted jobId =>
      let _ ← cas id .pending attempt
        { status := .running, agentJobId := some jobId }
      return ()

/-! ## The reaper -/

/-- Whether a stranded submission is due: older than the grace of its status,
which a non-positive setting disables. -/
def reapDue (platform : Platform) (now : Time) (sub : Submission) : Bool :=
  let grace :=
    if sub.status = .pending then platform.triggerRetryAfterS
    else platform.reapRunningAfterS
  !(decide (grace ≤ 0) || decide (sub.updatedAt ≥ now - grace * second))

/-- The body of the loop of `_reap_tick` for one stranded submission. -/
def reapOne (platform : Platform) (now : Time) (id : String) : Prog Unit := do
  let some sub ← issue (.load id) | return ()
  if !reapDue platform now sub then return ()
  if sub.attempts < platform.maxTriggerAttempts ∧
      (platform.question sub.questionId).isSome then
    triggerAgent platform id
  else
    let gaveUp ← cas id sub.status sub.attempts
      { status := .error
        errorReason := some (some (giveUpReason sub.attempts)) }
    if gaveUp then endSittingIfComplete platform id

/-- The loop of `_reap_tick`. -/
def reapEach (platform : Platform) (now : Time) : List String → Prog Unit
  | [] => return ()
  | id :: rest => do
      reapOne platform now id
      reapEach platform now rest

/-- `_reap_tick`: one pass of the grading reaper. -/
def reapTick (platform : Platform) : Prog Unit := do
  let now ← issue .now
  let stranded ← issue .selectStranded
  reapEach platform now stranded

/-! ## The manual retry -/

/-- How `retry_submission` answers. -/
inductive RetryReply where
  | notFound
  | conflict
  | retried
  deriving DecidableEq, Repr

/-- `retry_submission`, by a member of the organisation that owns the
question. -/
def retrySubmission (platform : Platform) (id : String) :
    Prog RetryReply := do
  let some sub ← issue (.load id) | return .notFound
  if sub.status ≠ .error then return .conflict
  if (platform.question sub.questionId).isNone then return .notFound
  reopenSitting id
  triggerAgent platform id
  return .retried

end AssessmentPlatform
