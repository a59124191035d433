import AssessmentPlatform.Grading.Platform
import AssessmentPlatform.Interleaving.RowTable
import AssessmentPlatform.Interleaving.Program

/-!
# The shared database and its statements

Every SELECT, INSERT, UPDATE and COMMIT that the grading, notification, erasure
and metering code issues is one statement, executed atomically under the
isolation of `Interleaving.RowTable`.  Each thread also has the identity map of
its ORM session: a submission it has loaded keeps the columns it was loaded with
until the session commits or rolls back, which expires it.

No transaction here reads a row that it has itself written and not yet
committed, so reads see committed rows only.
-/

namespace AssessmentPlatform

open Interleaving

/-! ## What statements carry -/

/-- `billing.MONTHLY_METRICS`. -/
inductive Metric where
  | sittings
  | drafts
  deriving DecidableEq, Repr

/-- The columns set by a conditional UPDATE of a submission; `none` leaves the
column alone. -/
structure SubmissionChange where
  status : Status
  agentJobId : Option String := none
  attempts : Option Nat := none
  errorReason : Option (Option String) := none
  deriving DecidableEq, Repr

/-- What `billing.record` adds to a month's counters. -/
structure UsageDelta where
  sittings : Int := 0
  drafts : Int := 0
  sittingsOver : Int := 0
  draftsOver : Int := 0
  judgeCostUsd : Double := 0
  draftCostUsd : Double := 0
  deriving DecidableEq, Repr

/-- Whose data an erasure covers: one candidate in a whole organisation, or on
one invite. -/
inductive ErasureScope where
  | organization (orgId : Nat)
  | sitting (inviteId : Nat)
  deriving DecidableEq, Repr

/-- One call of `agent_client.trigger_assessment`: who made it, for which claim
of which submission, and the job it posts. -/
structure TriggerCall where
  caller : Nat
  submissionId : String
  attempt : Nat
  agentJobId : Option String
  candidate : String
  language : String
  code : String
  deriving DecidableEq, Repr

/-- How the agent answers a trigger call: it takes the job under an id, it
refuses the job outright, or the call fails in any other way. -/
inductive AgentAnswer where
  | accepted (jobId : String)
  | refused (detail : String)
  | failed
  deriving DecidableEq, Repr

/-- `notify.GradedQuestion` -/
structure GradedQuestion where
  submissionId : String
  questionId : String
  title : String
  verdict : String
  scorePct : Double
  deriving DecidableEq, Repr

/-- `notify.ResultsReady`, less the addresses it is sent to. -/
structure ResultsReady where
  orgId : Nat
  inviteId : Nat
  candidate : String
  candidateEmail : Option String
  title : String
  submissionId : String
  questions : List GradedQuestion
  deriving DecidableEq, Repr

/-- The statements of the modelled requests. -/
inductive Op where
  | load (id : String)
  | refresh (id : String)
  | selectStranded
  | selectByJob (jobId : String)
  | selectSubmitted (inviteId : Nat) (email questionId : String)
  | insertSubmission (row : Submission)
  | casSubmission (id : String) (expectStatus : Status)
      (expectAttempts : Nat) (values : SubmissionChange)
  | saveSubmission (loaded new : Submission)
  | selectResult (id : String)
  | insertResult (row : AssessmentResult)
  | saveResult (loaded new : AssessmentResult)
  | selectGraded (inviteId : Nat) (email : String)
  | selectGradedResult (id : String)
  | selectAttempt (inviteId : Nat) (email : String)
  | insertAttempt (row : CandidateAttempt)
  | saveAttemptName (id : Nat) (name : String)
  | stampAttempt (id : Nat)
  | clearStamp (inviteId : Nat) (email : String)
  | selectUsage (orgId : Nat) (period : Period)
  | insertUsage (row : OrgUsage)
  | claimUsage (orgId : Nat) (period : Period) (metric : Metric)
      (amount limit : Int)
  | bumpUsage (orgId : Nat) (period : Period) (delta : UsageDelta)
  | saveUsage (orgId : Nat) (period : Period) (metric : Metric)
      (loaded new : Int)
  | selectErasable (scope : ErasureScope) (email : String)
  | eraseResults (ids : List String)
  | eraseSubmissions (ids : List String) (tombstone : String)
  | eraseAttempts (scope : ErasureScope) (email tombstone : String)
  | commit
  | rollback
  | now
  | trigger (attempt : Nat) (job : Submission)
  | deliver (ready : ResultsReady)
  | passTime (elapsed : Nat)
  deriving DecidableEq, Repr

/-- What each statement answers. -/
@[reducible]
def Resp : Op → Type
  | .load _ | .refresh _ => Option Submission
  | .selectStranded => List String
  | .selectByJob _ => Option String
  | .selectSubmitted .. | .insertSubmission _ | .casSubmission .. => Bool
  | .saveSubmission .. => Unit
  | .selectResult _ | .selectGradedResult _ => Option AssessmentResult
  | .insertResult _ => Bool
  | .saveResult .. => Unit
  | .selectGraded .. => List String
  | .selectAttempt .. => Option CandidateAttempt
  | .insertAttempt _ | .stampAttempt _ => Bool
  | .saveAttemptName .. | .clearStamp .. => Unit
  | .selectUsage .. => Option OrgUsage
  | .insertUsage _ | .claimUsage .. | .bumpUsage .. => Bool
  | .saveUsage .. => Unit
  | .selectErasable .. => List String
  | .eraseResults _ | .eraseSubmissions .. | .eraseAttempts .. => Unit
  | .commit | .rollback => Unit
  | .now => Time
  | .trigger .. => AgentAnswer
  | .deliver _ => Unit
  | .passTime _ => Unit

/-! ## The store -/

/-- The database, the sessions' identity maps, the clock, the calls made to the
agent, and the notifications handed to delivery. -/
structure Store where
  clock : Time
  submissions : RowTable Nat String Submission
  results : RowTable Nat String AssessmentResult
  attempts : RowTable Nat Nat CandidateAttempt
  usage : RowTable Nat (Nat × Period) OrgUsage
  session : Nat → String → Option Submission
  calls : List TriggerCall
  deliveries : List ResultsReady

/-- A database without rows, at time `clock`. -/
def Store.initial (clock : Time) : Store where
  clock := clock
  submissions := .empty
  results := .empty
  attempts := .empty
  usage := .empty
  session := fun _ _ => none
  calls := []
  deliveries := []

/-! ## Column updates -/

/-- `.values(**values)` of a conditional UPDATE, with `updated_at` bumped. -/
def SubmissionChange.apply
    (values : SubmissionChange) (now : Time) (row : Submission) :
    Submission :=
  { row with
    status := values.status
    agentJobId := values.agentJobId.or row.agentJobId
    attempts := values.attempts.getD row.attempts
    errorReason := values.errorReason.getD row.errorReason
    updatedAt := now }

/-- An ORM flush writes a column only where the new value differs from the
loaded one. -/
def changed {α : Type} [DecidableEq α] (loaded new current : α) : α :=
  if new = loaded then current else new

/-- The columns of a submission that an ORM flush may write. -/
def Submission.flush
    (loaded new : Submission) (now : Time) (row : Submission) : Submission :=
  { row with
    status := changed loaded.status new.status row.status
    judgeCostUsd :=
      changed loaded.judgeCostUsd new.judgeCostUsd row.judgeCostUsd
    updatedAt := now }

/-- The columns of a result that an ORM flush may write. -/
def AssessmentResult.flush
    (loaded new : AssessmentResult) (row : AssessmentResult) :
    AssessmentResult :=
  { row with
    verdict := changed loaded.verdict new.verdict row.verdict
    scorePct := changed loaded.scorePct new.scorePct row.scorePct
    reason := changed loaded.reason new.reason row.reason
    fullResult := changed loaded.fullResult new.fullResult row.fullResult }

namespace OrgUsage

/-- The counter of a metric. -/
def used (row : OrgUsage) : Metric → Int
  | .sittings => row.sittings
  | .drafts => row.drafts

/-- What a metric carries from the previous month. -/
def carried (row : OrgUsage) : Metric → Int
  | .sittings => row.sittingsCarried
  | .drafts => row.draftsCarried

/-- Set the counter of a metric. -/
def setUsed (row : OrgUsage) (value : Int) : Metric → OrgUsage
  | .sittings => { row with sittings := value }
  | .drafts => { row with drafts := value }

/-- Add to every counter; a cost of nothing leaves its column out. -/
def add (row : OrgUsage) (delta : UsageDelta) : OrgUsage :=
  { row with
    sittings := row.sittings + delta.sittings
    drafts := row.drafts + delta.drafts
    sittingsOver := row.sittingsOver + delta.sittingsOver
    draftsOver := row.draftsOver + delta.draftsOver
    judgeCostUsd :=
      if delta.judgeCostUsd = 0 then row.judgeCostUsd
      else row.judgeCostUsd + delta.judgeCostUsd
    draftCostUsd :=
      if delta.draftCostUsd = 0 then row.draftCostUsd
      else row.draftCostUsd + delta.draftCostUsd }

end OrgUsage

/-! ## Erasure -/

/-- `privacy.ERASED_NAME` -/
def erasedName : String := "[erased]"

/-- `privacy.ERASED_REASON` -/
def erasedReason : String := "[erased]"

/-- `privacy.ERASED_RESULT` -/
def erasedResult : Json := .obj [("erased", .bool true)]

/-- What an erasure writes over a submission. -/
def Submission.erase
    (tombstone : String) (now : Time) (row : Submission) : Submission :=
  { row with
    candidate := erasedName
    candidateEmail := some tombstone
    code := ""
    updatedAt := now }

/-- What an erasure writes over a result. -/
def AssessmentResult.erase (row : AssessmentResult) : AssessmentResult :=
  { row with fullResult := erasedResult, reason := erasedReason }

/-- What an erasure writes over an attempt. -/
def CandidateAttempt.erase
    (tombstone : String) (now : Time) (row : CandidateAttempt) :
    CandidateAttempt :=
  { row with
    candidateEmail := tombstone
    candidateName := none
    erasedAt := some now
    updatedAt := now }

/-- Whether an invite belongs to the scope of an erasure. -/
def Platform.coversInvite (platform : Platform) (inviteId : Nat) :
    ErasureScope → Bool
  | .organization orgId =>
      ((platform.invite inviteId).bind platform.inviteOrg) == some orgId
  | .sitting scopeInvite => inviteId == scopeInvite

/-- Whether the erasure of `email` in a scope selects a submission: by its
invite, or, organisation-wide, also by its question. -/
def Platform.erasable
    (platform : Platform) (scope : ErasureScope) (email : String)
    (row : Submission) : Bool :=
  row.candidateEmail == some email &&
    (row.inviteId.any (platform.coversInvite · scope) ||
      match scope with
      | .organization orgId =>
          ((platform.question row.questionId).map Question.orgId) == some orgId
      | .sitting _ => false)

/-! ## Execution -/

namespace Store

/-- Expire every object of a session. -/
def expire (store : Store) (tid : Nat) : Nat → String → Option Submission :=
  Function.update store.session tid fun _ => none

/-- Put a freshly read submission into the identity map of a session. -/
def remember (store : Store) (tid : Nat) (id : String) (row : Submission) :
    Store :=
  { store with
    session :=
      Function.update store.session tid
        (Function.update (store.session tid) id (some row)) }

/-- Put the selected submissions into the identity map; one that is already
there keeps the columns it was loaded with. -/
def rememberAll (store : Store) (tid : Nat) (ids : List String) : Store :=
  { store with
    session :=
      Function.update store.session tid fun id =>
        if id ∈ ids then
          (store.session tid id).or (store.submissions.row id)
        else
          store.session tid id }

/-- `TERMINAL` submissions of one sitting. -/
def isGraded (inviteId : Nat) (email : String) (row : Submission) : Bool :=
  row.inviteId == some inviteId && row.candidateEmail == some email &&
    row.status.terminal

/-- The submissions of one sitting. -/
def ofSitting (inviteId : Nat) (email : String) (row : Submission) : Bool :=
  row.inviteId == some inviteId && row.candidateEmail == some email

/-- `uq_submission_invite_candidate_question`: NULLs compare as distinct. -/
def sameSubmissionKey (new row : Submission) : Bool :=
  new.inviteId.isSome && new.inviteId == row.inviteId &&
    new.candidateEmail.isSome && new.candidateEmail == row.candidateEmail &&
    new.questionId == row.questionId

/-- `uq_attempt_invite_candidate` -/
def sameAttemptKey (new row : CandidateAttempt) : Bool :=
  new.inviteId == row.inviteId && new.candidateEmail == row.candidateEmail

/-- The first row of a selection. -/
def firstAttempt (store : Store) (inviteId : Nat) (email : String) :
    Option CandidateAttempt :=
  ((store.attempts.select fun row =>
      row.inviteId == inviteId && row.candidateEmail == email).head?).bind
    store.attempts.row

/-- Commit the transaction of `tid` and expire its session. -/
def commit (store : Store) (tid : Nat) : Store :=
  { store with
    submissions := store.submissions.commit tid
    results := store.results.commit tid
    attempts := store.attempts.commit tid
    usage := store.usage.commit tid
    session := store.expire tid }

/-- Roll the transaction of `tid` back and expire its session. -/
def rollback (store : Store) (tid : Nat) : Store :=
  { store with
    submissions := store.submissions.rollback tid
    results := store.results.rollback tid
    attempts := store.attempts.rollback tid
    usage := store.usage.rollback tid
    session := store.expire tid }

end Store

open Store in
/-- Execute one statement of thread `tid`.  `answer` is the agent's answer,
used by `trigger` only. -/
def exec (platform : Platform) :
    (op : Op) → Nat → AgentAnswer → Store → Option (Resp op × Store)
  | .load id, tid, _, store =>
      match store.session tid id, store.submissions.row id with
      | some copy, _ => some (some copy, store)
      | none, some row => some (some row, store.remember tid id row)
      | none, none => some (none, store)
  | .refresh id, tid, _, store =>
      match store.submissions.row id with
      | some row => some (some row, store.remember tid id row)
      | none => some (none, store)
  | .selectStranded, tid, _, store =>
      let ids := store.submissions.select fun row => !row.status.terminal
      some (ids, store.rememberAll tid ids)
  | .selectByJob jobId, tid, _, store =>
      match (store.submissions.select fun row =>
          row.agentJobId == some jobId).head? with
      | some id => some (some id, store.rememberAll tid [id])
      | none => some (none, store)
  | .selectSubmitted inviteId email questionId, _, _, store =>
      some
        (!(store.submissions.select fun row =>
            ofSitting inviteId email row &&
              row.questionId == questionId).isEmpty,
          store)
  | .insertSubmission row, tid, _, store =>
      (store.submissions.tryInsert tid row.id row
        (sameSubmissionKey row)).map
        fun (inserted, table) => (inserted, { store with submissions := table })
  | .casSubmission id expectStatus expectAttempts values, tid, _, store =>
      (store.submissions.tryUpdate tid id
        (fun row =>
          row.status == expectStatus && row.attempts == expectAttempts)
        (values.apply store.clock)).map
        fun (won, table) => (won, { store with submissions := table })
  | .saveSubmission loaded new, tid, _, store =>
      if new.status = loaded.status ∧
          new.judgeCostUsd = loaded.judgeCostUsd then
        some ((), store)
      else
        (store.submissions.tryUpdate tid loaded.id (fun _ => true)
          (Submission.flush loaded new store.clock)).map
          fun (_, table) => ((), { store with submissions := table })
  | .selectResult id, _, _, store =>
      some (store.results.row id, store)
  | .insertResult row, tid, _, store =>
      (store.results.tryInsert tid row.submissionId row fun _ => false).map
        fun (inserted, table) => (inserted, { store with results := table })
  | .saveResult loaded new, tid, _, store =>
      if new.verdict = loaded.verdict ∧ new.scorePct = loaded.scorePct ∧
          new.reason = loaded.reason ∧ new.fullResult = loaded.fullResult then
        some ((), store)
      else
        (store.results.tryUpdate tid loaded.submissionId (fun _ => true)
          (AssessmentResult.flush loaded new)).map
          fun (_, table) => ((), { store with results := table })
  | .selectGraded inviteId email, _, _, store =>
      some (store.submissions.select (isGraded inviteId email), store)
  | .selectGradedResult id, _, _, store =>
      some (store.results.row id, store)
  | .selectAttempt inviteId email, _, _, store =>
      some (store.firstAttempt inviteId email, store)
  | .insertAttempt row, tid, _, store =>
      (store.attempts.tryInsert tid row.id row (sameAttemptKey row)).map
        fun (inserted, table) => (inserted, { store with attempts := table })
  | .saveAttemptName id name, tid, _, store =>
      (store.attempts.tryUpdate tid id (fun _ => true) fun row =>
        { row with candidateName := some name, updatedAt := store.clock }).map
        fun (_, table) => ((), { store with attempts := table })
  | .stampAttempt id, tid, _, store =>
      (store.attempts.tryUpdate tid id
        (fun row => row.resultsNotifiedAt == none) fun row =>
        { row with
          resultsNotifiedAt := some store.clock
          updatedAt := store.clock }).map
        fun (won, table) => (won, { store with attempts := table })
  | .clearStamp inviteId email, tid, _, store =>
      (store.attempts.tryUpdateAll tid
        (fun row => row.inviteId == inviteId && row.candidateEmail == email)
        fun row =>
          { row with
            resultsNotifiedAt := none
            updatedAt := store.clock }).map
        fun table => ((), { store with attempts := table })
  | .selectUsage orgId period, _, _, store =>
      some (store.usage.row (orgId, period), store)
  | .insertUsage row, tid, _, store =>
      (store.usage.tryInsert tid (row.orgId, row.period) row
        fun _ => false).map
        fun (inserted, table) => (inserted, { store with usage := table })
  | .claimUsage orgId period metric amount limit, tid, _, store =>
      (store.usage.tryUpdate tid (orgId, period)
        (fun row => decide (row.used metric + amount ≤ limit))
        fun row => row.setUsed (row.used metric + amount) metric).map
        fun (claimed, table) => (claimed, { store with usage := table })
  | .bumpUsage orgId period delta, tid, _, store =>
      (store.usage.tryUpdate tid (orgId, period) (fun _ => true)
        (·.add delta)).map
        fun (found, table) => (found, { store with usage := table })
  | .saveUsage orgId period metric loaded new, tid, _, store =>
      if new = loaded then some ((), store)
      else
        (store.usage.tryUpdate tid (orgId, period) (fun _ => true)
          fun row => row.setUsed new metric).map
          fun (_, table) => ((), { store with usage := table })
  | .selectErasable scope email, _, _, store =>
      some (store.submissions.select (platform.erasable scope email), store)
  | .eraseResults ids, tid, _, store =>
      (store.results.tryUpdateAll tid (fun row => row.submissionId ∈ ids)
        AssessmentResult.erase).map
        fun table => ((), { store with results := table })
  | .eraseSubmissions ids tombstone, tid, _, store =>
      (store.submissions.tryUpdateAll tid (fun row => row.id ∈ ids)
        (Submission.erase tombstone store.clock)).map
        fun table => ((), { store with submissions := table })
  | .eraseAttempts scope email tombstone, tid, _, store =>
      (store.attempts.tryUpdateAll tid
        (fun row =>
          platform.coversInvite row.inviteId scope &&
            row.candidateEmail == email)
        (CandidateAttempt.erase tombstone store.clock)).map
        fun table => ((), { store with attempts := table })
  | .commit, tid, _, store => some ((), store.commit tid)
  | .rollback, tid, _, store => some ((), store.rollback tid)
  | .now, _, _, store => some (store.clock, store)
  | .trigger attempt job, tid, answer, store =>
      some
        (answer,
          { store with
            calls :=
              store.calls ++
                [⟨tid, job.id, attempt, job.agentJobId, job.candidate,
                  job.language, job.code⟩] })
  | .deliver ready, _, _, store =>
      some ((), { store with deliveries := store.deliveries ++ [ready] })
  | .passTime elapsed, _, _, store =>
      some ((), { store with clock := store.clock + elapsed })

/-- Programs over these statements. -/
abbrev Prog := Program Op Resp

end AssessmentPlatform
