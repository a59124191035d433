import AssessmentPlatform.Models
import AssessmentPlatform.Refusals
import AssessmentPlatform.Rows
import Mathlib.Data.List.Sort
import Mathlib.Tactic.MkIffOfInductiveProp

/-!
# The database of the platform

All tables at once, the constraints that the schema declares, and a statement
that the database refuses where it would break one of them.  Requests are
executed one at a time here: a request reads the committed rows.
-/

namespace AssessmentPlatform

open Rows

/-- The rows of every table.  Integer keys are drawn from one sequence and are
never given out again. -/
structure Database where
  organizations : List Organization
  usage : List OrgUsage
  assets : List OrgAsset
  interviewers : List Interviewer
  memberships : List Membership
  orgInvites : List OrgInvite
  variantSets : List VariantSet
  questions : List Question
  testCases : List QuestionTestCase
  assessments : List Assessment
  slots : List AssessmentQuestion
  invites : List Invite
  attempts : List CandidateAttempt
  slotVariants : List CandidateSlotVariant
  events : List IntegrityEvent
  drafts : List CandidateDraft
  feedback : List CandidateFeedback
  submissions : List Submission
  results : List AssessmentResult
  nextId : Nat
  deriving DecidableEq, Repr

namespace Database

/-- A database without rows. -/
def empty : Database where
  organizations := []
  usage := []
  assets := []
  interviewers := []
  memberships := []
  orgInvites := []
  variantSets := []
  questions := []
  testCases := []
  assessments := []
  slots := []
  invites := []
  attempts := []
  slotVariants := []
  events := []
  drafts := []
  feedback := []
  submissions := []
  results := []
  nextId := 1

/-! ## Constraints -/

/-- The primary keys and the UNIQUE constraints of the schema. -/
@[mk_iff]
structure UniqueKeys (db : Database) : Prop where
  organization : Keyed Organization.id db.organizations
  stripeCustomer : Unique Organization.stripeCustomerId db.organizations
  usage : Keyed (fun row => (row.orgId, row.period)) db.usage
  asset : Keyed OrgAsset.id db.assets
  assetSha : Keyed (fun row => (row.orgId, row.sha256)) db.assets
  interviewer : Keyed Interviewer.id db.interviewers
  interviewerEmail : Keyed Interviewer.email db.interviewers
  membership : Keyed Membership.id db.memberships
  membershipInterviewer : Keyed Membership.interviewerId db.memberships
  orgInvite : Keyed OrgInvite.id db.orgInvites
  orgInviteToken : Keyed OrgInvite.token db.orgInvites
  variantSet : Keyed VariantSet.id db.variantSets
  question : Keyed Question.id db.questions
  testCase : Keyed QuestionTestCase.id db.testCases
  assessment : Keyed Assessment.id db.assessments
  slot : Keyed AssessmentQuestion.id db.slots
  slotQuestion :
    Unique (fun row => row.questionId.map (row.assessmentId, ·)) db.slots
  invite : Keyed Invite.id db.invites
  inviteToken : Keyed Invite.token db.invites
  attempt : Keyed CandidateAttempt.id db.attempts
  attemptCandidate :
    Keyed (fun row => (row.inviteId, row.candidateEmail)) db.attempts
  slotVariant : Keyed CandidateSlotVariant.id db.slotVariants
  slotVariantCandidate :
    Keyed
      (fun row => (row.inviteId, row.candidateEmail, row.assessmentQuestionId))
      db.slotVariants
  event : Keyed IntegrityEvent.id db.events
  draft : Keyed CandidateDraft.id db.drafts
  draftCandidate :
    Keyed (fun row => (row.inviteId, row.candidateEmail, row.questionId))
      db.drafts
  feedback : Keyed CandidateFeedback.id db.feedback
  feedbackAttempt : Keyed CandidateFeedback.attemptId db.feedback
  submission : Keyed Submission.id db.submissions
  submissionCandidate :
    Unique
      (fun row => row.inviteId.bind fun inviteId =>
        row.candidateEmail.map (inviteId, ·, row.questionId))
      db.submissions
  result : Keyed AssessmentResult.submissionId db.results

/-- The FOREIGN KEY constraints of the schema. -/
@[mk_iff]
structure ForeignKeys (db : Database) : Prop where
  usageOrg :
    Refers (some ·.orgId) db.usage Organization.id db.organizations
  assetOrg :
    Refers (some ·.orgId) db.assets Organization.id db.organizations
  membershipOrg :
    Refers (some ·.orgId) db.memberships Organization.id db.organizations
  membershipInterviewer :
    Refers (some ·.interviewerId) db.memberships Interviewer.id db.interviewers
  membershipInvitedBy :
    Refers Membership.invitedBy db.memberships Interviewer.id db.interviewers
  orgInviteOrg :
    Refers (some ·.orgId) db.orgInvites Organization.id db.organizations
  orgInviteInvitedBy :
    Refers OrgInvite.invitedBy db.orgInvites Interviewer.id db.interviewers
  variantSetOwner :
    Refers VariantSet.ownerId db.variantSets Interviewer.id db.interviewers
  variantSetOrg :
    Refers (some ·.orgId) db.variantSets Organization.id db.organizations
  questionOwner :
    Refers Question.ownerId db.questions Interviewer.id db.interviewers
  questionOrg :
    Refers (some ·.orgId) db.questions Organization.id db.organizations
  questionSet :
    Refers Question.variantSetId db.questions VariantSet.id db.variantSets
  testCaseQuestion :
    Refers (some ·.questionId) db.testCases Question.id db.questions
  assessmentOwner :
    Refers Assessment.ownerId db.assessments Interviewer.id db.interviewers
  assessmentOrg :
    Refers (some ·.orgId) db.assessments Organization.id db.organizations
  slotAssessment :
    Refers (some ·.assessmentId) db.slots Assessment.id db.assessments
  slotQuestion :
    Refers AssessmentQuestion.questionId db.slots Question.id db.questions
  slotSet :
    Refers AssessmentQuestion.variantSetId db.slots VariantSet.id
      db.variantSets
  inviteQuestion :
    Refers Invite.questionId db.invites Question.id db.questions
  inviteAssessment :
    Refers Invite.assessmentId db.invites Assessment.id db.assessments
  inviteSet :
    Refers Invite.variantSetId db.invites VariantSet.id db.variantSets
  inviteCreatedBy :
    Refers Invite.createdBy db.invites Interviewer.id db.interviewers
  attemptInvite :
    Refers (some ·.inviteId) db.attempts Invite.id db.invites
  slotVariantInvite :
    Refers (some ·.inviteId) db.slotVariants Invite.id db.invites
  slotVariantSlot :
    Refers (some ·.assessmentQuestionId) db.slotVariants AssessmentQuestion.id
      db.slots
  slotVariantQuestion :
    Refers (some ·.questionId) db.slotVariants Question.id db.questions
  eventInvite :
    Refers (some ·.inviteId) db.events Invite.id db.invites
  eventQuestion :
    Refers IntegrityEvent.questionId db.events Question.id db.questions
  draftInvite :
    Refers (some ·.inviteId) db.drafts Invite.id db.invites
  draftQuestion :
    Refers (some ·.questionId) db.drafts Question.id db.questions
  feedbackOrg :
    Refers (some ·.orgId) db.feedback Organization.id db.organizations
  feedbackAttempt :
    Refers (some ·.attemptId) db.feedback CandidateAttempt.id db.attempts
  submissionQuestion :
    Refers (some ·.questionId) db.submissions Question.id db.questions
  submissionInvite :
    Refers Submission.inviteId db.submissions Invite.id db.invites
  resultSubmission :
    Refers (some ·.submissionId) db.results Submission.id db.submissions

instance (db : Database) : Decidable db.UniqueKeys :=
  decidable_of_iff _ (uniqueKeys_iff db).symm

instance (db : Database) : Decidable db.ForeignKeys :=
  decidable_of_iff _ (foreignKeys_iff db).symm

/-- Every constraint of the schema. -/
structure Constraints (db : Database) : Prop where
  uniqueKeys : db.UniqueKeys
  foreignKeys : db.ForeignKeys

instance (db : Database) : Decidable db.Constraints :=
  decidable_of_iff (db.UniqueKeys ∧ db.ForeignKeys)
    ⟨fun ⟨uniqueKeys, foreignKeys⟩ => ⟨uniqueKeys, foreignKeys⟩,
      fun holds => ⟨holds.uniqueKeys, holds.foreignKeys⟩⟩

end Database

/-- How an exception that no handler catches is answered. -/
def internalError : HTTPException :=
  ⟨500, "internal error."⟩

namespace Database

/-- A statement that leaves `after`: the engine raises IntegrityError where a
constraint would be broken, and the request is rolled back. -/
def execute (after : Database) : Except HTTPException Database :=
  if after.Constraints then return after else throw internalError

theorem execute_eq_ok {after result : Database} :
    after.execute = .ok result ↔ after.Constraints ∧ result = after := by
  by_cases holds : after.Constraints <;>
    simp [execute, holds, pure, Except.pure, throw, throwThe,
      MonadExceptOf.throw, eq_comm]

/-! ## Organisations behind rows -/

/-- `Question.org_id`, by primary key. -/
def questionOrg (db : Database) (id : String) : Option Nat :=
  (fetch Question.id id db.questions).map Question.orgId

/-- `Assessment.org_id`, by primary key. -/
def assessmentOrg (db : Database) (id : String) : Option Nat :=
  (fetch Assessment.id id db.assessments).map Assessment.orgId

/-- `support.invite_org`: the organisation behind an invite. -/
def inviteOrg (db : Database) (invite : Invite) : Option Nat :=
  (invite.assessmentId.bind db.assessmentOrg).or
    (invite.questionId.bind db.questionOrg)

/-- The slots of an assessment, `Assessment.questions`, in their order. -/
def slotsOf (db : Database) (assessmentId : String) :
    List AssessmentQuestion :=
  (db.slots.filter fun slot => slot.assessmentId == assessmentId).insertionSort
    fun first second => first.position ≤ second.position

/-- `_set_variants`: the questions of a variant set, by their label. -/
def variantsOf (db : Database) (setId : String) : List Question :=
  (db.questions.filter fun question =>
    question.variantSetId == some setId).insertionSort
      fun first second =>
        first.variantLabel.getD "" ≤ second.variantLabel.getD ""

end Database

end AssessmentPlatform
