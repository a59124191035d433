import AssessmentPlatform.Grading.Requests

/-!
# Which statements a program issues

A program is quiet for an argument when none of its statements matter there.
The classes below say what each program can issue, whatever the responses.
-/

namespace AssessmentPlatform

open Interleaving Program

variable {platform : Platform}

namespace Op

/-- Statements of the metering programs. -/
def metering : Op → Prop
  | .selectUsage .. | .insertUsage _ | .claimUsage .. | .bumpUsage ..
  | .saveUsage .. | .commit | .rollback | .now => True
  | _ => False

/-- Statements on the usage of one organisation. -/
def meteringOf (orgId : Nat) : Op → Prop
  | .insertUsage row => row.orgId = orgId
  | .claimUsage owner .. | .bumpUsage owner .. | .saveUsage owner .. =>
      owner = orgId
  | .selectUsage .. | .commit | .rollback | .now => True
  | _ => False

/-- Statements of `claim_sitting` and of handing over what it claimed. -/
def notifying : Op → Prop
  | .load _ | .selectGraded .. | .selectAttempt .. | .stampAttempt _
  | .commit | .selectGradedResult _ | .deliver _ => True
  | _ => False

/-- Statements of `reopen_sitting`. -/
def reopening : Op → Prop
  | .load _ | .clearStamp .. | .commit => True
  | _ => False

/-- Statements of `_get_or_start_attempt`. -/
def starting : Op → Prop
  | .selectAttempt .. | .insertAttempt _ | .saveAttemptName .. => True
  | op => op.metering

/-- Statements that follow the commit of a grade. -/
def settling (op : Op) : Prop :=
  op.metering ∨ op.notifying

/-- Statements of `assessments_callback`. -/
def recording : Op → Prop
  | .selectByJob _ | .saveSubmission .. | .selectResult _
  | .insertResult _ | .saveResult .. => True
  | op => op.settling

/-- Statements of an erasure. -/
def erasing : Op → Prop
  | .selectErasable .. | .eraseResults _ | .eraseSubmissions ..
  | .eraseAttempts .. | .commit => True
  | _ => False

/-- Statements of the requests other than callbacks and erasures: a conditional
UPDATE claims the submission for one more trigger or leaves `attempts` alone,
and no result is written. -/
def ordinary : Op → Prop
  | .casSubmission id _ expectAttempts values =>
      values = claimChange id (expectAttempts + 1) ∨
        values.attempts = none ∧ values.status ≠ .done
  | .insertSubmission row => row.status = .pending ∧ row.attempts = 0
  | .saveSubmission .. | .insertResult _ | .saveResult ..
  | .eraseResults _ | .eraseSubmissions .. | .eraseAttempts .. => False
  | _ => True

/-- Statements of triggers, of the reaper and of retries: nothing is
inserted. -/
def judging : Op → Prop
  | .insertSubmission _ | .insertAttempt _ | .saveAttemptName .. => False
  | op => op.ordinary

/-- The conditional UPDATEs of triggers and of the reaper: the claim, the
refusal or the give-up with its reason, and the acceptance. -/
inductive Judges (expectStatus : Status) (expectAttempts : Nat) :
    String → SubmissionChange → Prop
  | claim (id : String) :
      Judges expectStatus expectAttempts id
        (claimChange id (expectAttempts + 1))
  | fail (id : String) {reason : String} (given : reason ≠ "") :
      Judges expectStatus expectAttempts id
        { status := .error, errorReason := some (some reason) }
  | accept (id jobId : String) (pending : expectStatus = .pending) :
      Judges expectStatus expectAttempts id
        { status := .running, agentJobId := some jobId }

/-- Statements of triggers, of the reaper and of retries, with their
conditional UPDATEs. -/
def triggering : Op → Prop
  | .casSubmission id expectStatus expectAttempts values =>
      Judges expectStatus expectAttempts id values
  | op => op.judging

/-- Statements of the requests other than callbacks and erasures, with their
conditional UPDATEs, and a submission that is inserted without a past. -/
def submitting : Op → Prop
  | .casSubmission id expectStatus expectAttempts values =>
      Judges expectStatus expectAttempts id values
  | .insertSubmission row =>
      row.status = .pending ∧ row.attempts = 0 ∧ row.errorReason = none ∧
        row.judgeCostUsd = none
  | op => op.ordinary

end Op

/-! ## Metering -/

theorem usage_meteringOf (orgId : Nat) (period : Period) :
    (usage orgId period).All (Op.meteringOf orgId) := by
  unfold usage carriedFromPrevious
  refine All.statement trivial fun stored => ?_
  split
  · exact All.pure _ _
  · exact All.bind (All.statement trivial fun _ => All.pure _ _)
      fun _ => All.pure _ _

theorem ensureRow_meteringOf (orgId : Nat) (period : Period) :
    (ensureRow orgId period).All (Op.meteringOf orgId) := by
  unfold ensureRow carriedFromPrevious
  refine All.bind (All.statement trivial fun _ => All.pure _ _) fun _ => ?_
  refine All.statement rfl fun inserted => ?_
  split
  · exact (all_statement _ _).mpr trivial
  · exact (all_statement _ _).mpr trivial

theorem record_meteringOf (orgId : Nat) (delta : UsageDelta) :
    (record platform orgId delta).All (Op.meteringOf orgId) := by
  unfold record
  split
  · exact All.pure _ _
  · refine All.statement trivial fun now => ?_
    refine All.statement rfl fun found => ?_
    split
    · refine All.bind (ensureRow_meteringOf _ _) fun _ => ?_
      refine All.statement rfl fun _ => ?_
      exact (all_statement _ _).mpr trivial
    · exact (all_statement _ _).mpr trivial

theorem consumeFrom_meteringOf
    (org : Organization) (metric : Metric) (amount : Int)
    (period : Period) (row : OrgUsage) :
    (consumeFrom platform org metric amount period row).All
      (Op.meteringOf org.id) := by
  unfold consumeFrom
  split
  · exact All.bind (record_meteringOf _ _) fun _ => All.pure _ _
  · refine All.statement rfl fun claimed => ?_
    split
    · exact All.statement trivial fun _ => All.pure _ _
    · exact All.statement trivial fun _ => All.pure _ _

theorem consume_meteringOf
    (org : Organization) (metric : Metric) (amount : Int) :
    (consume platform org metric amount).All (Op.meteringOf org.id) := by
  unfold consume
  split
  · exact All.pure _ _
  · refine All.statement trivial fun now => ?_
    refine All.bind (usage_meteringOf _ _) fun row => ?_
    obtain ⟨row, stored⟩ := row
    dsimp only
    split
    · exact consumeFrom_meteringOf _ _ _ _ _
    · refine All.bind (ensureRow_meteringOf _ _) fun _ => ?_
      exact All.bind (usage_meteringOf _ _)
        fun row => consumeFrom_meteringOf _ _ _ _ _

theorem release_meteringOf (orgId : Nat) (metric : Metric) (amount : Int) :
    (release platform orgId metric amount).All (Op.meteringOf orgId) := by
  unfold release
  refine All.statement trivial fun now => ?_
  refine All.bind (usage_meteringOf _ _) fun row => ?_
  split
  split
  · exact All.pure _ _
  · refine All.statement rfl fun _ => ?_
    exact (all_statement _ _).mpr trivial

theorem Op.meteringOf.metering {op : Op} {orgId : Nat}
    (metering : op.meteringOf orgId) : op.metering := by
  cases op <;> trivial

theorem record_all (orgId : Nat) (delta : UsageDelta) :
    (record platform orgId delta).All Op.metering :=
  (record_meteringOf orgId delta).mono fun _ => Op.meteringOf.metering

theorem consume_all
    (org : Organization) (metric : Metric) (amount : Int) :
    (consume platform org metric amount).All Op.metering :=
  (consume_meteringOf org metric amount).mono fun _ => Op.meteringOf.metering

theorem release_all (orgId : Nat) (metric : Metric) (amount : Int) :
    (release platform orgId metric amount).All Op.metering :=
  (release_meteringOf orgId metric amount).mono
    fun _ => Op.meteringOf.metering

/-! ## The results notification -/

theorem gradedQuestions_all
    {allowed : Op → Prop} (load : ∀ id, allowed (.load id))
    (select : ∀ id, allowed (.selectGradedResult id)) (ids : List String) :
    (gradedQuestions platform ids).All allowed := by
  induction ids with
  | nil =>
      exact All.pure _ _
  | cons id rest inductionHypothesis =>
      unfold gradedQuestions gradedQuestion
      refine All.bind ?_ fun _ =>
        All.bind inductionHypothesis fun _ => All.pure _ _
      refine All.statement (load id) fun found => ?_
      split <;> exact All.statement (select id) fun _ => All.pure _ _

theorem payloadOf_all
    {allowed : Op → Prop} (load : ∀ id, allowed (.load id))
    (select : ∀ id, allowed (.selectGradedResult id)) (invite : Invite)
    (id : String) (graded : List String) :
    (payloadOf platform invite id graded).All allowed := by
  unfold payloadOf
  refine All.statement (load id) fun found => ?_
  split
  · exact All.bind (gradedQuestions_all load select _) fun _ => All.pure _ _
  · exact All.pure _ _

theorem claimSitting_all (id : String) :
    (claimSitting platform id).All Op.notifying := by
  unfold claimSitting
  refine All.statement trivial fun found => ?_
  split
  case h_2 => exact All.pure _ _
  split
  case h_2 => exact All.pure _ _
  split
  case h_2 => exact All.pure _ _
  split
  · exact All.pure _ _
  split
  case h_2 => exact All.pure _ _
  refine All.statement trivial fun graded => ?_
  split
  · exact All.pure _ _
  refine All.statement trivial fun attempt => ?_
  split
  case h_2 => exact All.pure _ _
  refine All.statement trivial fun won => ?_
  refine All.statement trivial fun _ => ?_
  split
  · exact All.pure _ _
  · exact payloadOf_all (fun _ => trivial) (fun _ => trivial) _ _ _

theorem deliverIfReady_all (ready : Option ResultsReady) :
    (deliverIfReady ready).All Op.notifying := by
  cases ready with
  | none => exact All.pure _ _
  | some ready => exact (all_statement _ _).mpr trivial

theorem reopenSitting_all (id : String) :
    (reopenSitting id).All Op.reopening := by
  unfold reopenSitting
  refine All.statement trivial fun found => ?_
  split
  case h_2 => exact All.pure _ _
  split
  case h_2 => exact All.pure _ _
  split
  case h_2 => exact All.pure _ _
  split
  · exact All.pure _ _
  · refine All.statement trivial fun _ => ?_
    exact (all_statement _ _).mpr trivial

/-! ## Attempts, callbacks and erasures -/

theorem Op.metering.starting {op : Op} (metering : op.metering) :
    op.starting := by
  cases op <;> trivial

theorem Op.settling.recording {op : Op} (settling : op.settling) :
    op.recording := by
  cases op <;> trivial

theorem getOrStartAttempt_all
    (invite : Invite) (email candidateName : String) (consent : Bool)
    (attemptId : Nat) :
    (getOrStartAttempt platform invite email candidateName consent
      attemptId).All Op.starting := by
  unfold getOrStartAttempt
  refine All.statement trivial fun existing => ?_
  split
  · split
    · exact All.statement trivial fun _ => All.statement trivial fun _ =>
        All.pure _ _
    · exact All.pure _ _
  · split
    · exact All.pure _ _
    split
    case h_2 => exact All.pure _ _
    refine All.bind ?_ fun claimed => ?_
    · unfold claimAllowance
      split
      · refine All.bind ?_ fun consumed => ?_
        · exact (consume_all _ _ _).mono fun _ => Op.metering.starting
        · split <;> exact All.pure _ _
      · exact All.pure _ _
    split
    · exact All.pure _ _
    · refine All.statement trivial fun now => ?_
      refine All.statement trivial fun inserted => ?_
      split
      · exact All.statement trivial fun _ => All.pure _ _
      · refine All.statement trivial fun _ => ?_
        refine All.statement trivial fun raced => ?_
        split
        · refine All.bind ?_ fun _ => All.pure _ _
          exact (release_all _ _ _).mono fun _ => Op.metering.starting
        · exact All.pure _ _

theorem storeGrade_all
    (payload : Payload) (sub : Submission) (graded : AssessmentResult) :
    (storeGrade platform payload sub graded).All Op.recording := by
  unfold storeGrade upsertResult
  refine All.bind ?_ fun stored => ?_
  · refine All.statement trivial fun existing => ?_
    split
    · exact All.statement trivial fun _ => All.pure _ _
    · exact (all_statement _ _).mpr trivial
  · split
    · exact All.statement (Or.inl trivial) fun _ => All.pure _ _
    · exact All.statement trivial fun _ =>
        All.statement (Or.inl trivial) fun _ => All.pure _ _

theorem recordCost_all (id : String) (costDelta : Double) :
    (recordCost platform id costDelta).All Op.settling := by
  unfold recordCost
  split
  · exact All.pure _ _
  refine All.statement (Or.inr trivial) fun found => ?_
  split
  case h_2 => exact All.pure _ _
  split
  case h_2 => exact All.pure _ _
  split
  · exact All.pure _ _
  exact ((record_all _ _).mono fun _ => Or.inl).bind fun _ => All.pure _ _

theorem landGrade_all (payload : Payload) (sub : Submission) :
    (landGrade platform payload sub).All Op.recording := by
  unfold landGrade
  split
  case h_2 => exact All.pure _ _
  refine All.bind (storeGrade_all _ _ _) fun stored => ?_
  split
  · exact All.pure _ _
  refine All.bind ?_ fun _ => All.bind ?_ fun _ =>
    All.bind ?_ fun _ => All.pure _ _
  · exact (recordCost_all _ _).mono fun _ => Op.settling.recording
  · exact (claimSitting_all _).mono
      fun _ notifying => Op.settling.recording (Or.inr notifying)
  · exact (deliverIfReady_all _).mono
      fun _ notifying => Op.settling.recording (Or.inr notifying)

theorem assessmentsCallback_all (payload : Payload) :
    (assessmentsCallback platform payload).All Op.recording := by
  unfold assessmentsCallback
  dsimp only
  split
  · exact All.pure _ _
  split
  case h_2 => exact All.pure _ _
  refine All.statement trivial fun selected => ?_
  split
  case h_2 => exact All.pure _ _
  refine All.statement (Or.inr trivial) fun found => ?_
  split
  case h_2 => exact All.pure _ _
  split
  · split
    · exact All.pure _ _
    split
    · refine All.statement trivial fun _ => ?_
      exact All.statement (Or.inl trivial) fun _ => All.pure _ _
    · exact landGrade_all _ _
  · exact landGrade_all _ _

theorem eraseCandidate_all
    (scope : ErasureScope) (email token : String) :
    (eraseCandidate scope email token).All Op.erasing := by
  unfold eraseCandidate
  refine All.statement trivial fun ids => ?_
  split
  · refine All.statement trivial fun _ => ?_
    refine All.statement trivial fun _ => ?_
    refine All.statement trivial fun _ => ?_
    exact (all_statement _ _).mpr trivial
  · refine All.statement trivial fun _ => ?_
    exact (all_statement _ _).mpr trivial

/-! ## Claims and triggers -/

theorem Op.metering.ordinary {op : Op} (metering : op.metering) :
    op.ordinary := by
  cases op <;> trivial

theorem Op.notifying.ordinary {op : Op} (notifying : op.notifying) :
    op.ordinary := by
  cases op <;> trivial

theorem Op.settling.ordinary {op : Op} (settling : op.settling) :
    op.ordinary :=
  settling.elim Op.metering.ordinary Op.notifying.ordinary

theorem cas_all
    {allowed : Op → Prop} {id : String} {expectStatus : Status}
    {expectAttempts : Nat} {values : SubmissionChange}
    (update :
      allowed (.casSubmission id expectStatus expectAttempts values))
    (commit : allowed .commit) (refresh : allowed (.refresh id)) :
    (cas id expectStatus expectAttempts values).All allowed := by
  unfold cas
  refine All.statement update fun won => ?_
  refine All.statement commit fun _ => ?_
  exact All.statement refresh fun _ => All.pure _ _

theorem endSittingIfComplete_all
    {allowed : Op → Prop} (notifying : ∀ op, op.notifying → allowed op)
    (id : String) :
    (endSittingIfComplete platform id).All allowed := by
  unfold endSittingIfComplete
  exact All.bind ((claimSitting_all _).mono notifying) fun _ =>
    (deliverIfReady_all _).mono notifying

theorem Op.notifying.triggering {op : Op} (notifying : op.notifying) :
    op.triggering := by
  cases op <;> trivial

theorem Op.reopening.triggering {op : Op} (reopening : op.reopening) :
    op.triggering := by
  cases op <;> trivial

theorem Op.Judges.ordinary
    {id : String} {expectStatus : Status} {expectAttempts : Nat}
    {values : SubmissionChange}
    (judges : Op.Judges expectStatus expectAttempts id values) :
    (Op.casSubmission id expectStatus expectAttempts values).ordinary := by
  cases judges with
  | claim => exact Or.inl rfl
  | fail => exact Or.inr ⟨rfl, nofun⟩
  | accept => exact Or.inr ⟨rfl, nofun⟩

theorem Op.triggering.judging {op : Op} (triggering : op.triggering) :
    op.judging := by
  cases op with
  | casSubmission => exact Op.Judges.ordinary triggering
  | _ => exact triggering

theorem Op.submitting.ordinary {op : Op} (submitting : op.submitting) :
    op.ordinary := by
  cases op with
  | casSubmission => exact Op.Judges.ordinary submitting
  | insertSubmission => exact ⟨submitting.1, submitting.2.1⟩
  | _ => exact submitting

theorem Op.triggering.submitting {op : Op} (triggering : op.triggering) :
    op.submitting := by
  cases op <;> trivial

theorem Op.starting.submitting {op : Op} (starting : op.starting) :
    op.submitting := by
  cases op <;> trivial

theorem Op.metering.submitting {op : Op} (metering : op.metering) :
    op.submitting :=
  metering.starting.submitting

/-- A refusal has a reason. -/
theorem refusalReason_ne_empty (detail : String) :
    refusalReason detail ≠ "" := by
  unfold refusalReason maxErrorReasonChars
  rw [String.toList_append]
  intro isEmpty
  have chars := congrArg String.toList isEmpty
  rw [String.toList_ofList] at chars
  have first : "the grader refused this submission: ".toList =
      't' :: "he grader refused this submission: ".toList := by
    decide
  rw [first] at chars
  cases chars

/-- A give-up has a reason. -/
theorem giveUpReason_ne_empty (attempts : Nat) :
    giveUpReason attempts ≠ "" := by
  intro isEmpty
  unfold giveUpReason at isEmpty
  rw [String.append_eq_empty_iff] at isEmpty
  exact absurd isEmpty.2 (by decide)

theorem triggerAgent_triggering (id : String) :
    (triggerAgent platform id).All Op.triggering := by
  unfold triggerAgent
  refine All.statement trivial fun found => ?_
  split
  case h_2 => exact All.pure _ _
  refine All.bind (cas_all (.claim id) trivial trivial) fun claimed => ?_
  split
  · exact All.pure _ _
  refine All.statement trivial fun loaded => ?_
  split
  case h_2 => exact All.pure _ _
  refine All.statement trivial fun answered => ?_
  split
  · next detail =>
    refine All.bind (cas_all (.fail id (refusalReason_ne_empty detail)) trivial
      trivial) fun refused => ?_
    split
    · exact endSittingIfComplete_all (fun _ => Op.notifying.triggering) _
    · exact All.pure _ _
  · exact All.pure _ _
  · next jobId =>
    exact All.bind (cas_all (.accept id jobId rfl) trivial trivial)
      fun _ => All.pure _ _

theorem reapOne_triggering (now : Time) (id : String) :
    (reapOne platform now id).All Op.triggering := by
  unfold reapOne
  refine All.statement trivial fun found => ?_
  split
  case h_2 => exact All.pure _ _
  next sub =>
  split
  · exact All.pure _ _
  split
  · exact triggerAgent_triggering _
  · refine All.bind (cas_all (.fail id (giveUpReason_ne_empty sub.attempts))
      trivial trivial) fun gaveUp => ?_
    split
    · exact endSittingIfComplete_all (fun _ => Op.notifying.triggering) _
    · exact All.pure _ _

theorem reapEach_triggering (now : Time) (ids : List String) :
    (reapEach platform now ids).All Op.triggering := by
  induction ids with
  | nil =>
      exact All.pure _ _
  | cons id rest inductionHypothesis =>
      exact All.bind (reapOne_triggering _ _) fun _ => inductionHypothesis

theorem reapTick_triggering : (reapTick platform).All Op.triggering := by
  unfold reapTick
  refine All.statement trivial fun now => ?_
  exact All.statement trivial fun stranded => reapEach_triggering _ _

theorem retrySubmission_triggering (id : String) :
    (retrySubmission platform id).All Op.triggering := by
  unfold retrySubmission
  refine All.statement trivial fun found => ?_
  split
  case h_2 => exact All.pure _ _
  split
  · exact All.pure _ _
  split
  · exact All.pure _ _
  refine All.bind ?_ fun _ => ?_
  · exact (reopenSitting_all _).mono fun _ => Op.reopening.triggering
  · exact All.bind (triggerAgent_triggering _) fun _ => All.pure _ _

theorem triggerAgent_judging (id : String) :
    (triggerAgent platform id).All Op.judging :=
  (triggerAgent_triggering id).mono fun _ => Op.triggering.judging

theorem reapTick_judging : (reapTick platform).All Op.judging :=
  reapTick_triggering.mono fun _ => Op.triggering.judging

theorem retrySubmission_judging (id : String) :
    (retrySubmission platform id).All Op.judging :=
  (retrySubmission_triggering id).mono fun _ => Op.triggering.judging

theorem candidateSubmit_submitting (request : CandidateSubmit) :
    (AssessmentPlatform.candidateSubmit platform request).All
      Op.submitting := by
  unfold AssessmentPlatform.candidateSubmit
  split
  case h_2 => exact All.pure _ _
  split
  · exact All.pure _ _
  refine All.statement trivial fun submitted => ?_
  split
  · exact All.pure _ _
  refine All.bind ?_ fun attempt => ?_
  · exact (getOrStartAttempt_all _ _ _ _ _).mono
      fun _ => Op.starting.submitting
  split
  · exact All.pure _ _
  split
  · exact All.pure _ _
  refine All.statement trivial fun now => ?_
  refine All.statement ⟨rfl, rfl, rfl, rfl⟩ fun inserted => ?_
  split
  · exact All.statement trivial fun _ => All.pure _ _
  refine All.statement trivial fun _ => ?_
  refine All.statement trivial fun _ => ?_
  refine All.bind ?_ fun _ => All.pure _ _
  exact (triggerAgent_triggering _).mono fun _ => Op.triggering.submitting

theorem createSubmission_submitting (request : DirectSubmit) :
    (AssessmentPlatform.createSubmission platform request).All
      Op.submitting := by
  unfold AssessmentPlatform.createSubmission
  split
  · exact All.pure _ _
  refine All.statement trivial fun now => ?_
  refine All.statement ⟨rfl, rfl, rfl, rfl⟩ fun inserted => ?_
  split
  · exact All.statement trivial fun _ => All.pure _ _
  refine All.statement trivial fun _ => ?_
  refine All.statement trivial fun _ => ?_
  exact (triggerAgent_triggering _).mono fun _ => Op.triggering.submitting

/-! ## Requests -/

/-- Whether the request is an agent's callback. -/
def Request.isCallback : Request → Bool
  | .assessmentsCallback _ => true
  | _ => false

/-- Whether the request is an erasure. -/
def Request.isErasure : Request → Bool
  | .erase .. => true
  | _ => false

/-- Whether a request is a manual retry. -/
def Request.isRetry : Request → Bool
  | .retrySubmission _ => true
  | _ => false

theorem Request.program_submitting
    {request : Request} (notCallback : request.isCallback = false)
    (notErasure : request.isErasure = false) :
    (request.program platform).All Op.submitting := by
  cases request with
  | idle => exact All.pure _ _
  | candidateSubmit request =>
      exact All.bind (candidateSubmit_submitting _) fun _ => All.pure _ _
  | createSubmission request =>
      exact All.bind (createSubmission_submitting _) fun _ => All.pure _ _
  | retrySubmission id =>
      refine All.bind ?_ fun _ => All.pure _ _
      exact (retrySubmission_triggering _).mono
        fun _ => Op.triggering.submitting
  | reapTick =>
      refine All.bind ?_ fun _ => All.pure _ _
      exact reapTick_triggering.mono fun _ => Op.triggering.submitting
  | assessmentsCallback payload => cases notCallback
  | erase scope email token => cases notErasure
  | consume org metric amount =>
      exact All.bind
        ((consume_all _ _ _).mono fun _ => Op.metering.submitting)
        fun _ => All.pure _ _
  | passTime elapsed =>
      exact All.statement trivial fun _ => All.pure _ _

theorem Request.program_all
    {request : Request} (notCallback : request.isCallback = false)
    (notErasure : request.isErasure = false) :
    (request.program platform).All Op.ordinary :=
  (Request.program_submitting notCallback notErasure).mono
    fun _ => Op.submitting.ordinary

end AssessmentPlatform
