import AssessmentPlatform.Grading.Attempts
import AssessmentPlatform.Interleaving.Sequential
import AssessmentPlatform.Records.Session

/-!
# The statements of the grading machinery on the whole database

The programs of submissions, triggers and callbacks, run alone: each statement
acts on the committed rows at once, and one that a constraint refuses changes
nothing.
-/

namespace AssessmentPlatform

open Interleaving Rows

variable (deployment : Deployment) (around : Surroundings)

namespace Database

/-- The database after a statement, or before it where a constraint refuses
it. -/
def settle (before after : Database) : Database :=
  if after.Constraints then after else before

/-- The question that a slot presents to a candidate, by its frozen draw. -/
def slotQuestion (db : Database) (inviteId : Nat) (email : String)
    (slot : AssessmentQuestion) : String :=
  match slot.variantSetId with
  | none => slot.questionId.getD ""
  | some _ =>
      ((db.slotVariants.find? fun row =>
        row.inviteId == inviteId && row.candidateEmail == email &&
          row.assessmentQuestionId == slot.id).map
        CandidateSlotVariant.questionId).getD ""

/-- What the grading programs read of the database without writing it. -/
def platform (db : Database) : Platform where
  maxTriggerAttempts := deployment.maxTriggerAttempts
  triggerRetryAfterS := deployment.triggerRetryAfterS
  reapRunningAfterS := deployment.reapRunningAfterS
  submitGraceSeconds := deployment.submitGraceSeconds
  billingEnforced := deployment.billingEnforced
  privacyPolicyVersion := deployment.privacyPolicyVersion
  organization := fun id => fetch Organization.id id db.organizations
  question := fun id => fetch Question.id id db.questions
  assessment := fun id => fetch Assessment.id id db.assessments
  slots := db.slotsOf
  invite := fun id => fetch Invite.id id db.invites
  invite_id := key_of_fetch
  slotQuestion := db.slotQuestion
  periodKey := deployment.periodKey
  render := deployment.render
  parseFloat := deployment.parseFloat
  engine := deployment.engine

/-- Update the rows of `submission`. -/
def setSubmissions (db : Database) (rows : List Submission) : Database :=
  db.settle { db with submissions := rows }

/-- Update the rows of `assessmentresult`. -/
def setResults (db : Database) (rows : List AssessmentResult) : Database :=
  db.settle { db with results := rows }

/-- Update the rows of `candidateattempt`. -/
def setAttempts (db : Database) (rows : List CandidateAttempt) : Database :=
  db.settle { db with attempts := rows }

/-- Update the rows of `orgusage`. -/
def setUsage (db : Database) (rows : List OrgUsage) : Database :=
  db.settle { db with usage := rows }

/-- The first attempt of a sitting. -/
def attemptOf (db : Database) (inviteId : Nat) (email : String) :
    Option CandidateAttempt :=
  db.attempts.find? fun row =>
    row.inviteId == inviteId && row.candidateEmail == email

/-- The row of a month's usage. -/
def usageOf (db : Database) (orgId : Nat) (period : Period) :
    Option OrgUsage :=
  fetch (fun row => (row.orgId, row.period)) (orgId, period) db.usage

/-- Update a month's usage. -/
def updateUsage (db : Database) (orgId : Nat) (period : Period)
    (change : OrgUsage → OrgUsage) : Database :=
  db.setUsage
    (updateWhere (fun row => (row.orgId, row.period) == (orgId, period)) change
      db.usage)

/-- Whether an INSERT that leaves `after` succeeds. -/
def inserts (before after : Database) : Bool × Database :=
  if after.Constraints then (true, after) else (false, before)

theorem inserts_cases (before after : Database) :
    (before.inserts after = (true, after) ∧ after.Constraints) ∨
      before.inserts after = (false, before) := by
  unfold inserts
  split
  · next constraints => exact Or.inl ⟨rfl, constraints⟩
  · exact Or.inr rfl

/-- Execute one statement of a program that nothing interleaves with. -/
def perform : (op : Op) → Database → Resp op × Database
  | .load id, db | .refresh id, db =>
      (fetch Submission.id id db.submissions, db)
  | .selectStranded, db =>
      ((db.submissions.filter fun row => !row.status.terminal).map
        Submission.id, db)
  | .selectByJob jobId, db =>
      ((db.submissions.find? fun row =>
        row.agentJobId == some jobId).map Submission.id, db)
  | .selectSubmitted inviteId email questionId, db =>
      (db.submissions.any fun row =>
        Store.ofSitting inviteId email row && row.questionId == questionId, db)
  | .insertSubmission row, db =>
      db.inserts { db with submissions := db.submissions ++ [row] }
  | .casSubmission id expectStatus expectAttempts values, db =>
      let matched (row : Submission) : Bool :=
        row.id == id && row.status == expectStatus &&
          row.attempts == expectAttempts
      (db.submissions.any matched,
        db.setSubmissions
          (updateWhere matched (values.apply around.now) db.submissions))
  | .saveSubmission loaded new, db =>
      if new.status = loaded.status ∧
          new.judgeCostUsd = loaded.judgeCostUsd then
        ((), db)
      else
        ((), db.setSubmissions
          (updateWhere (fun row => row.id == loaded.id)
            (Submission.flush loaded new around.now) db.submissions))
  | .selectResult id, db | .selectGradedResult id, db =>
      (fetch AssessmentResult.submissionId id db.results, db)
  | .insertResult row, db =>
      db.inserts { db with results := db.results ++ [row] }
  | .saveResult loaded new, db =>
      ((), db.setResults
        (updateWhere (fun row => row.submissionId == loaded.submissionId)
          (AssessmentResult.flush loaded new) db.results))
  | .selectGraded inviteId email, db =>
      ((db.submissions.filter (Store.isGraded inviteId email)).map
        Submission.id, db)
  | .selectAttempt inviteId email, db => (db.attemptOf inviteId email, db)
  | .insertAttempt row, db =>
      db.inserts { db with
        attempts := db.attempts ++ [row]
        nextId := max db.nextId (row.id + 1) }
  | .saveAttemptName id name, db =>
      ((), db.setAttempts
        (updateWhere (fun row => row.id == id)
          (fun row =>
            { row with candidateName := some name, updatedAt := around.now })
          db.attempts))
  | .stampAttempt id, db =>
      let matched (row : CandidateAttempt) : Bool :=
        row.id == id && row.resultsNotifiedAt == none
      (db.attempts.any matched,
        db.setAttempts
          (updateWhere matched
            (fun row =>
              { row with
                resultsNotifiedAt := some around.now
                updatedAt := around.now })
            db.attempts))
  | .clearStamp inviteId email, db =>
      ((), db.setAttempts
        (updateWhere
          (fun row => row.inviteId == inviteId && row.candidateEmail == email)
          (fun row =>
            { row with resultsNotifiedAt := none, updatedAt := around.now })
          db.attempts))
  | .selectUsage orgId period, db => (db.usageOf orgId period, db)
  | .insertUsage row, db => db.inserts { db with usage := db.usage ++ [row] }
  | .claimUsage orgId period metric amount limit, db =>
      let fits (row : OrgUsage) : Bool :=
        decide (row.used metric + amount ≤ limit)
      ((db.usageOf orgId period).any fits,
        db.updateUsage orgId period fun row =>
          if fits row then row.setUsed (row.used metric + amount) metric
          else row)
  | .bumpUsage orgId period delta, db =>
      ((db.usageOf orgId period).isSome,
        db.updateUsage orgId period (·.add delta))
  | .saveUsage orgId period metric _ new, db =>
      ((), db.updateUsage orgId period (·.setUsed new metric))
  | .selectErasable scope email, db =>
      ((db.submissions.filter
        ((db.platform deployment).erasable scope email)).map Submission.id, db)
  | .eraseResults ids, db =>
      ((), db.setResults
        (updateWhere (fun row => ids.contains row.submissionId)
          AssessmentResult.erase db.results))
  | .eraseSubmissions ids tombstone, db =>
      ((), db.setSubmissions
        (updateWhere (fun row => ids.contains row.id)
          (Submission.erase tombstone around.now) db.submissions))
  | .eraseAttempts scope email tombstone, db =>
      ((), db.setAttempts
        (updateWhere
          (fun row =>
            (db.platform deployment).coversInvite row.inviteId scope &&
              row.candidateEmail == email)
          (CandidateAttempt.erase tombstone around.now) db.attempts))
  | .commit, db | .rollback, db => ((), db)
  | .now, db => (around.now, db)
  | .trigger attempt job, db => (around.agent job.id attempt, db)
  | .deliver _, db => ((), db)
  | .passTime _, db => ((), db)

end Database

/-- Run a program of the grading machinery alone, from a database. -/
def runProgram {α : Type} (program : Prog α) (db : Database) : α × Database :=
  program.run (Database.perform deployment around) db

end AssessmentPlatform
