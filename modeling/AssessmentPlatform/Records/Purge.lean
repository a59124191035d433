import AssessmentPlatform.Records.Session

/-!
# Deleting organisations and accounts

`_purge_org` is a cascade written by hand: one DELETE per table, children
first, each of which the foreign keys may refuse.
-/

namespace AssessmentPlatform

open Rows

namespace Database

variable (db : Database) (orgId : Nat)

/-! ## The subqueries of the cascade -/

/-- `question_ids` -/
def ownsQuestion (id : String) : Bool :=
  db.questions.any fun row => row.id == id && row.orgId == orgId

/-- `assessment_ids` -/
def ownsAssessment (id : String) : Bool :=
  db.assessments.any fun row => row.id == id && row.orgId == orgId

/-- `invite_ids` -/
def ownsInvite (id : Nat) : Bool :=
  db.invites.any fun row =>
    row.id == id &&
      (row.questionId.any (db.ownsQuestion orgId) ||
        row.assessmentId.any (db.ownsAssessment orgId))

/-- `submission_ids` -/
def ownsSubmission (id : String) : Bool :=
  db.submissions.any fun row =>
    row.id == id &&
      (db.ownsQuestion orgId row.questionId ||
        row.inviteId.any (db.ownsInvite orgId))

/-! ## The cascade -/

/-- The DELETE statements of `_purge_org`, in their order. -/
def purgeSteps : List (Database → Database) :=
  [fun db => { db with
      results := deleteWhere
        (fun row => db.ownsSubmission orgId row.submissionId) db.results },
    fun db => { db with
      submissions := deleteWhere
        (fun row => db.ownsSubmission orgId row.id) db.submissions },
    fun db => { db with
      feedback := deleteWhere (fun row => row.orgId == orgId) db.feedback },
    fun db => { db with
      attempts := deleteWhere
        (fun row => db.ownsInvite orgId row.inviteId) db.attempts },
    fun db => { db with
      slotVariants := deleteWhere
        (fun row => db.ownsInvite orgId row.inviteId) db.slotVariants },
    fun db => { db with
      events := deleteWhere
        (fun row => db.ownsInvite orgId row.inviteId) db.events },
    fun db => { db with
      drafts := deleteWhere
        (fun row => db.ownsInvite orgId row.inviteId) db.drafts },
    fun db => { db with
      invites := deleteWhere
        (fun row => db.ownsInvite orgId row.id) db.invites },
    fun db => { db with
      slots := deleteWhere
        (fun row => db.ownsAssessment orgId row.assessmentId) db.slots },
    fun db => { db with
      assessments := deleteWhere (fun row => row.orgId == orgId)
        db.assessments },
    fun db => { db with
      testCases := deleteWhere
        (fun row => db.ownsQuestion orgId row.questionId) db.testCases },
    fun db => { db with
      questions := deleteWhere (fun row => row.orgId == orgId) db.questions },
    fun db => { db with
      variantSets := deleteWhere (fun row => row.orgId == orgId)
        db.variantSets },
    fun db => { db with
      orgInvites := deleteWhere (fun row => row.orgId == orgId)
        db.orgInvites },
    fun db => { db with
      usage := deleteWhere (fun row => row.orgId == orgId) db.usage },
    fun db => { db with
      assets := deleteWhere (fun row => row.orgId == orgId) db.assets },
    fun db => { db with
      memberships := deleteWhere (fun row => row.orgId == orgId)
        db.memberships },
    fun db => { db with
      organizations := deleteWhere (fun row => row.id == orgId)
        db.organizations }]

/-- `_purge_org`: hard-delete an organisation and every row that hangs off
it. -/
def purgeOrg : Except HTTPException Database :=
  (purgeSteps orgId).foldlM (fun db statement => (statement db).execute) db

/-! ## Accounts -/

/-- `_disown`: cut every reference to an account that is about to be
deleted. -/
def disown (interviewerId : Nat) : Database :=
  { db with
    questions := updateWhere (fun row => row.ownerId == some interviewerId)
      (fun row => { row with ownerId := none }) db.questions
    variantSets := updateWhere (fun row => row.ownerId == some interviewerId)
      (fun row => { row with ownerId := none }) db.variantSets
    assessments := updateWhere (fun row => row.ownerId == some interviewerId)
      (fun row => { row with ownerId := none }) db.assessments
    invites := updateWhere (fun row => row.createdBy == some interviewerId)
      (fun row => { row with createdBy := none }) db.invites
    orgInvites := updateWhere (fun row => row.invitedBy == some interviewerId)
      (fun row => { row with invitedBy := none }) db.orgInvites
    memberships := updateWhere (fun row => row.invitedBy == some interviewerId)
      (fun row => { row with invitedBy := none }) db.memberships }

/-- The first part of `_purge_account`: with the last member goes the
organisation, from a shared one goes the seat. -/
def leaveOrg (interviewerId : Nat) : Except HTTPException Database :=
  match db.membershipFor interviewerId with
  | none => return db
  | some membership =>
      if db.memberships.any fun row =>
          row.orgId == membership.orgId && row.interviewerId != interviewerId
      then do
        lastAdminGuard db membership.orgId interviewerId
        execute { db with
          memberships := deleteWhere
            (fun row => row.interviewerId == interviewerId) db.memberships }
      else db.purgeOrg membership.orgId

/-- `_purge_account` -/
def purgeAccount (interviewerId : Nat) : Except HTTPException Database := do
  let left ← db.leaveOrg interviewerId
  let disowned ← (left.disown interviewerId).execute
  execute { disowned with
    interviewers := deleteWhere (fun row => row.id == interviewerId)
      disowned.interviewers }

end Database

end AssessmentPlatform
