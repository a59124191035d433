import AssessmentPlatform.Records.Api
import Mathlib.Logic.Relation

/-!
# What one transaction can do

Every transaction of the API, with the guards that it has passed and the tables
that it leaves.  Invariants are proved against this relation; that the handlers
do nothing else is proved where they are read backwards.
-/

namespace AssessmentPlatform

open Rows

variable (deployment : Deployment)

/-! ## Guards -/

/-- The address that a request was sent for. -/
def CandidateRequest.address : CandidateRequest → String
  | .start body => body.candidateEmail
  | .run email _ => email
  | .submit body => body.candidateEmail
  | .events body => body.candidateEmail
  | .feedback body => body.candidateEmail
  | .saveDraft body => body.candidateEmail
  | .read => ""

/-- The gate of the candidate routes, on the database that a request found. -/
structure Gate (served : Served) (invite : Invite) (email : String) :
    Prop where
  asked : ∃ request, served.request = .candidate invite.token request ∧
    deployment.auth.normalizeEmail request.address = email
  member : invite ∈ served.before.invites
  active : invite.status = .active
  live : isExpired served.around.now invite.expiresAt = false ∨
    (invite.durationMinutes.isSome ∧ hasAttempt served.before invite email)
  recipient : invited deployment invite email

/-- The requests that erase candidates. -/
def ApiRequest.erases : ApiRequest → Prop
  | .member _ (.eraseCandidateData _) | .retentionTick => True
  | _ => False

/-- How an account comes to a new seat: it is new, it has no seat, or it gives
up a shell, the organisation that is left. -/
inductive Enters (db : Database) :
    Interviewer → Option Nat → Database → Prop where
  | newcomer {account : Interviewer} :
      account.id = db.nextId →
      Enters db account none (addInterviewer db account)
  | seatless {account : Interviewer} :
      account ∈ db.interviewers → db.membershipFor account.id = none →
      Enters db account none db
  | leaving {account : Interviewer} {membership : Membership}
      {left : Database} :
      account ∈ db.interviewers →
      db.membershipFor account.id = some membership →
      leaveEmptyOrg db membership = .ok left →
      Enters db account (some membership.orgId) left

/-- What the slots of an assessment are after `_membership_rows`. -/
structure SlotRows (db : Database) (orgId : Nat) (assessmentId : String)
    (slots : List AssessmentQuestion) : Prop where
  nonempty : slots ≠ []
  questions : (slots.filterMap AssessmentQuestion.questionId).Nodup
  sets : (slots.filterMap AssessmentQuestion.variantSetId).Nodup
  assessment : ∀ slot ∈ slots, slot.assessmentId = assessmentId
  one : ∀ slot ∈ slots, slot.questionId.isSome = slot.variantSetId.isNone
  question : ∀ slot ∈ slots, ∀ id ∈ slot.questionId,
    ∃ question ∈ db.questions, question.id = id ∧ question.orgId = orgId
  set : ∀ slot ∈ slots, ∀ id ∈ slot.variantSetId,
    ∃ set ∈ db.variantSets, set.id = id ∧ set.orgId = orgId
  id : slots.map AssessmentQuestion.id =
    List.range' db.nextId slots.length

/-- What a requested slot is stored as. -/
def AssessmentSlotIn.stored (slot : AssessmentSlotIn) : SlotSignature :=
  match slot.questionId with
  | some questionId => (some questionId, none)
  | none => (none, some (slot.variantSetId.getD ""))

/-- What an invite points at when it is minted, and the length it freezes. -/
inductive InviteTarget (db : Database) (orgId : Nat) (invite : Invite) :
    Prop where
  | question (question : Question) :
      question ∈ db.questions → question.orgId = orgId →
      invite.questionId = some question.id → invite.assessmentId = none →
      invite.variantSetId = none →
      InviteTarget db orgId invite
  | variant (question : Question) (set : VariantSet) :
      question ∈ db.questions → set ∈ db.variantSets → set.orgId = orgId →
      question.variantSetId = some set.id →
      invite.questionId = some question.id → invite.assessmentId = none →
      invite.variantSetId = some set.id →
      InviteTarget db orgId invite
  | assessment (assessment : Assessment) :
      assessment ∈ db.assessments → assessment.orgId = orgId →
      db.slotsOf assessment.id ≠ [] →
      invite.questionId = none → invite.assessmentId = some assessment.id →
      invite.variantSetId = none →
      InviteTarget db orgId invite

/-- A change of a submission that leaves what the candidate sent. -/
structure KeepsSubmission (change : Submission → Submission) : Prop where
  id : ∀ row, (change row).id = row.id
  questionId : ∀ row, (change row).questionId = row.questionId
  inviteId : ∀ row, (change row).inviteId = row.inviteId
  candidate : ∀ row, (change row).candidate = row.candidate
  candidateEmail : ∀ row, (change row).candidateEmail = row.candidateEmail
  language : ∀ row, (change row).language = row.language
  code : ∀ row, (change row).code = row.code
  late : ∀ row, (change row).late = row.late

/-- A change of an attempt that moves the notification stamp only. -/
structure KeepsAttempt (change : CandidateAttempt → CandidateAttempt) :
    Prop where
  id : ∀ row, (change row).id = row.id
  inviteId : ∀ row, (change row).inviteId = row.inviteId
  candidateEmail : ∀ row, (change row).candidateEmail = row.candidateEmail
  candidateName : ∀ row, (change row).candidateName = row.candidateName
  startedAt : ∀ row, (change row).startedAt = row.startedAt
  consentAt : ∀ row, (change row).consentAt = row.consentAt
  consentVersion : ∀ row, (change row).consentVersion = row.consentVersion
  erasedAt : ∀ row, (change row).erasedAt = row.erasedAt

/-- A change of an invite that only drops addresses from it. -/
structure KeepsInvite (change : Invite → Invite) : Prop where
  rest : ∀ row, ∃ recipients deliveries,
    change row =
      { row with recipients := recipients, deliveries := deliveries }
  recipients : ∀ row, (change row).recipients.Sublist row.recipients
  deliveries : ∀ row, (change row).deliveries.Sublist row.deliveries

/-- What a change of the settings of an organisation does to logos: one that its
row did not name has an asset, and an asset that goes is one that neither the
row nor an assessment of the organisation names. -/
structure KeepsLogos (db : Database) (row : Organization)
    (assets : List OrgAsset) : Prop where
  named : ∀ sha ∈ row.logoSha,
    (∃ was ∈ db.organizations, was.id = row.id ∧ was.logoSha = some sha) ∨
      ∃ asset ∈ assets, asset.orgId = row.id ∧ asset.sha256 = sha
  dropped : ∀ asset ∈ db.assets, asset ∈ assets ∨
    (row.logoSha ≠ some asset.sha256 ∧
      ∀ assessment ∈ db.assessments, assessment.orgId = row.id →
        assessment.logoSha ≠ some asset.sha256)

/-- The requests by which an account can take a seat that an invite offers. -/
def ApiRequest.joinsAs (account : Interviewer) : ApiRequest → Prop
  | .register _ => True
  | .member caller (.acceptOrgInvite _) => caller = account.id
  | _ => False

/-- The requests that may write the table of interviewers, deletions apart. -/
def ApiRequest.writesAccounts : ApiRequest → Prop
  | .account _ | .register _ => True
  | _ => False

/-! ## Changes -/

/-- The transactions of one request of a run, on behalf of a member of the
organisation `scope`, or of nobody in particular. -/
inductive Change (served : Served) :
    Option Nat → Database → Database → Prop where
  | accounts {db : Database} (interviewers : List Interviewer) :
      interviewers.map Interviewer.id = db.interviewers.map Interviewer.id →
      served.request.writesAccounts →
      Change served none db { db with interviewers := interviewers }
  | founded {db base : Database} {account : Interviewer}
      (name : Option String) :
      Enters db account none base →
      (account ∈ db.interviewers ∨ served.request.writesAccounts) →
      Change served none db (foundOrg deployment base account name)
  | joined {db base : Database} {account : Interviewer} {invite : OrgInvite}
      {gaveUp : Option Nat} :
      Enters db account gaveUp base → gaveUp ≠ some invite.orgId →
      invite ∈ db.orgInvites →
      invite.acceptedAt = none →
      (account.email = invite.email ∨
        deployment.auth.normalizeEmail account.email = invite.email) →
      served.request.joinsAs account →
      (account ∈ db.interviewers ∨ served.request.writesAccounts) →
      Change served none db (joinOrg served.around base account.id invite)
  | roleSet {db : Database} {orgId : Nat} {membership : Membership}
      (role : Role) :
      db.memberOf orgId membership.interviewerId = some membership →
      (role ≠ .admin →
        lastAdminGuard db orgId membership.interviewerId = .ok ()) →
      Change served (some orgId) db { db with
        memberships :=
          save Membership.id { membership with role := role } db.memberships }
  | memberRemoved {db : Database} {orgId : Nat} {membership : Membership} :
      db.memberOf orgId membership.interviewerId = some membership →
      lastAdminGuard db orgId membership.interviewerId = .ok () →
      Change served (some orgId) db { db with
        memberships :=
          deleteWhere (fun row => row.id == membership.id) db.memberships }
  | accountDeleted {db after : Database} {interviewerId : Nat} :
      db.purgeAccount interviewerId = .ok after →
      (∃ password,
        served.request = .member interviewerId (.deleteMe password)) →
      Change served none db after
  | orgInvited {db : Database} {orgId : Nat} (invite : OrgInvite) :
      invite.id = db.nextId → invite.orgId = orgId →
      invite.acceptedAt = none →
      Change served (some orgId) db { db with
        orgInvites :=
          deleteWhere
            (fun row => row.orgId == orgId && row.email == invite.email &&
              row.acceptedAt.isNone) db.orgInvites ++ [invite]
        nextId := db.nextId + 1 }
  | orgInviteRevoked {db : Database} {orgId : Nat} {invite : OrgInvite} :
      invite ∈ db.orgInvites → invite.orgId = orgId →
      invite.acceptedAt = none →
      Change served (some orgId) db { db with
        orgInvites := deleteWhere (fun row => row.id == invite.id)
          db.orgInvites }
  | settings {db : Database} {orgId : Nat} (row : Organization)
      (assets : List OrgAsset) (nextId : Nat) :
      row.id = orgId → db.nextId ≤ nextId →
      assets.filter (fun asset => asset.orgId ≠ orgId) =
        db.assets.filter (fun asset => asset.orgId ≠ orgId) →
      KeepsLogos db row assets →
      Change served (some orgId) db { db with
        organizations := save Organization.id row db.organizations
        assets := assets
        nextId := nextId }
  | billed {db : Database} (organizations : List Organization) :
      organizations.map Organization.id =
        db.organizations.map Organization.id →
      Derived (fun row => (row.id, row.logoSha)) db.organizations
        organizations →
      Change served none db { db with organizations := organizations }
  | questionAdded {db : Database} {orgId : Nat} (question : Question)
      (testCases : Nat) :
      question.orgId = orgId → question.variantSetId = none →
      question.id ≠ "" →
      Change served (some orgId) db (addQuestion db question testCases)
  | setAdded {db : Database} {orgId : Nat} (set : VariantSet)
      (questions : List Question) (testCases : List QuestionTestCase)
      (nextId : Nat) :
      set.orgId = orgId → db.nextId ≤ nextId →
      (∀ question ∈ questions, question.orgId = orgId ∧
        question.variantSetId = some set.id ∧ question.id ≠ "") →
      (∀ testCase ∈ testCases,
        ∃ question ∈ questions, question.id = testCase.questionId) →
      Change served (some orgId) db { db with
        variantSets := db.variantSets ++ [set]
        questions := db.questions ++ questions
        testCases := db.testCases ++ testCases
        nextId := nextId }
  | questionEdited {db : Database} {orgId : Nat} {question : Question}
      (title : String) (durationMinutes : Option Int) (testCases : Nat) :
      question ∈ db.questions → question.orgId = orgId →
      Change served (some orgId) db { db with
        questions :=
          save Question.id
            { question with
              title := title
              durationMinutes := durationMinutes }
            db.questions
        testCases :=
          deleteWhere (fun row => row.questionId == question.id)
              db.testCases ++
            testCaseRows question.id db.nextId testCases
        nextId := db.nextId + testCases }
  | questionDeleted {db : Database} {orgId : Nat} {question : Question} :
      question ∈ db.questions → question.orgId = orgId →
      (∀ row ∈ db.submissions, row.questionId ≠ question.id) →
      (∀ row ∈ db.slots, row.questionId ≠ some question.id) →
      (∀ row ∈ db.slotVariants, row.questionId ≠ question.id) →
      (∃ caller, served.request =
        .member caller (.deleteQuestion question.id)) →
      Change served (some orgId) db { db with
        drafts := deleteWhere (fun row => row.questionId == question.id)
          db.drafts
        testCases := deleteWhere (fun row => row.questionId == question.id)
          db.testCases
        invites := deleteWhere (fun row => row.questionId == some question.id)
          db.invites
        questions := deleteWhere (fun row => row.id == question.id)
          db.questions }
  | assessmentAdded {db : Database} {orgId : Nat} (assessment : Assessment)
      (slots : List AssessmentQuestion) :
      assessment.orgId = orgId →
      SlotRows db orgId assessment.id slots →
      (∃ caller body,
        served.request = .member caller (.createAssessment body) ∧
          slots.map AssessmentQuestion.signature =
            body.slots.map AssessmentSlotIn.stored) →
      (∃ organization ∈ db.organizations, organization.id = orgId ∧
        organization.logoSha = assessment.logoSha) →
      Change served (some orgId) db { db with
        assessments := db.assessments ++ [assessment]
        slots := db.slots ++ slots
        nextId := db.nextId + slots.length }
  | assessmentEdited {db : Database} {orgId : Nat} {assessment : Assessment}
      (title : String) (durationMinutes : Option Int) (proctored : Bool) :
      assessment ∈ db.assessments → assessment.orgId = orgId →
      Change served (some orgId) db { db with
        assessments :=
          save Assessment.id
            { assessment with
              title := title
              durationMinutes := durationMinutes
              proctored := proctored }
            db.assessments }
  | slotsReplaced {db : Database} {orgId : Nat} {assessment : Assessment}
      (title : String) (durationMinutes : Option Int) (proctored : Bool)
      (slots : List AssessmentQuestion) :
      assessment ∈ db.assessments → assessment.orgId = orgId →
      (∀ invite ∈ db.invites, invite.assessmentId ≠ some assessment.id) →
      SlotRows db orgId assessment.id slots →
      (∃ caller id body,
        served.request = .member caller (.updateAssessment id body) ∧
          slots.map AssessmentQuestion.signature =
            body.slots.map AssessmentSlotIn.stored) →
      Change served (some orgId) db { db with
        assessments :=
          save Assessment.id
            { assessment with
              title := title
              durationMinutes := durationMinutes
              proctored := proctored }
            db.assessments
        slots :=
          deleteWhere (fun row => row.assessmentId == assessment.id)
            db.slots ++ slots
        nextId := db.nextId + slots.length }
  | assessmentDeleted {db : Database} {orgId : Nat}
      {assessment : Assessment} :
      assessment ∈ db.assessments → assessment.orgId = orgId →
      (∀ invite ∈ db.invites, invite.assessmentId ≠ some assessment.id) →
      Change served (some orgId) db { db with
        slots := deleteWhere (fun row => row.assessmentId == assessment.id)
          db.slots
        assessments := deleteWhere (fun row => row.id == assessment.id)
          db.assessments }
  | invitesAdded {db : Database} {orgId : Nat} (invites : List Invite) :
      invites.map Invite.id = List.range' db.nextId invites.length →
      (∀ invite ∈ invites,
        invite.status = .active ∧ InviteTarget db orgId invite ∧
          ∀ id ∈ invite.assessmentId, ∃ caller body,
            served.request = .member caller (.createAssessmentInvite id body)) →
      Change served (some orgId) db (addInvites db invites)
  | inviteRevoked {db : Database} {orgId : Nat} {invite : Invite} :
      invite ∈ db.invites →
      (db.inviteOrg invite = some orgId ∨
        ∃ question ∈ db.questions, question.orgId = orgId ∧
          invite.questionId = some question.id) →
      Change served (some orgId) db { db with
        invites := save Invite.id { invite with status := .revoked }
          db.invites }
  | drawn {db : Database} {invite : Invite} {email : String}
      {slot : AssessmentQuestion} {setId : String} {question : Question} :
      Gate deployment served invite email → invite ∈ db.invites →
      slot ∈ db.slots → invite.assessmentId = some slot.assessmentId →
      slot.variantSetId = some setId → question ∈ db.questions →
      question.variantSetId = some setId →
      Change served none db { db with
        slotVariants := db.slotVariants ++
          [⟨db.nextId, invite.id, email, slot.id, question.id⟩]
        nextId := db.nextId + 1 }
  | started {db : Database} {invite : Invite} (attempt : CandidateAttempt) :
      Gate deployment served invite attempt.candidateEmail →
      invite ∈ db.invites → attempt.id = db.nextId →
      db.attemptOf invite.id attempt.candidateEmail = none →
      db.attempts = served.before.attempts →
      attempt.inviteId = invite.id → attempt.startedAt = served.around.now →
      attempt.consentAt = some served.around.now → attempt.erasedAt = none →
      Change served none db { db with
        attempts := db.attempts ++ [attempt]
        nextId := db.nextId + 1 }
  | named {db : Database} {attempt : CandidateAttempt} (name : String) :
      attempt ∈ db.attempts → attempt.candidateName = none →
      Change served none db { db with
        attempts := updateWhere (fun row => row.id == attempt.id)
          (fun row =>
            { row with
              candidateName := some name
              updatedAt := served.around.now })
          db.attempts }
  | submitted {db : Database} {invite : Invite} {email : String}
      (attempt : CandidateAttempt) (sub : Submission) :
      Gate deployment served invite email → invite ∈ db.invites →
      sub.inviteId = some invite.id → sub.candidateEmail = some email →
      attempt ∈ db.attempts → attempt.inviteId = invite.id →
      attempt.candidateEmail = email →
      sub.questionId ∈
        (db.platform deployment).inviteQuestions invite email →
      sub.late =
        submitIsLate (db.platform deployment) invite attempt served.around.now →
      Change served none db { db with submissions := db.submissions ++ [sub] }
  | submittedDirectly {db : Database} {orgId : Nat} {question : Question}
      (sub : Submission) :
      question ∈ db.questions → question.orgId = orgId →
      sub.questionId = question.id → sub.inviteId = none →
      sub.candidateEmail = none →
      Change served (some orgId) db { db with
        submissions := db.submissions ++ [sub] }
  | eventsRecorded {db : Database} {invite : Invite} {email : String}
      (token : String) (body : IntegrityEventsIn) (elapsed : Int) :
      served.request = .candidate token (.events body) →
      db = served.before →
      fetch Invite.token token db.invites = some invite →
      Gate deployment served invite email → invite ∈ db.invites →
      Change served none db { db with
        events := db.events ++
          eventRows invite email body.questionId elapsed db.nextId body.events
        nextId := db.nextId + body.events.length }
  | feedbackGiven {db : Database} {invite : Invite}
      {attempt : CandidateAttempt} (feedback : CandidateFeedback) :
      Gate deployment served invite attempt.candidateEmail →
      invite ∈ db.invites → attempt ∈ db.attempts →
      attempt ∈ served.before.attempts →
      attempt.inviteId = invite.id → feedback.id = db.nextId →
      feedback.attemptId = attempt.id →
      db.inviteOrg invite = some feedback.orgId →
      Change served none db { db with
        feedback := db.feedback ++ [feedback]
        nextId := db.nextId + 1 }
  | draftAdded {db : Database} {invite : Invite} (draft : CandidateDraft) :
      Gate deployment served invite draft.candidateEmail →
      invite ∈ db.invites → draft.id = db.nextId →
      draft.inviteId = invite.id →
      draft.questionId ∈
        (db.platform deployment).inviteQuestions invite
          draft.candidateEmail →
      Change served none db { db with
        drafts := db.drafts ++ [draft]
        nextId := db.nextId + 1 }
  | draftEdited {db : Database} {invite : Invite} {draft : CandidateDraft}
      (code language : String) :
      Gate deployment served invite draft.candidateEmail →
      invite ∈ db.invites → draft ∈ db.drafts → draft.inviteId = invite.id →
      Change served none db { db with
        drafts :=
          save CandidateDraft.id
            { draft with
              code := code
              language := language
              updatedAt := served.around.now }
            db.drafts }
  | regraded {scope : Option Nat} {db : Database}
      (matched : Submission → Bool) (change : Submission → Submission) :
      KeepsSubmission change →
      (∀ orgId ∈ scope, ∀ row ∈ db.submissions, matched row →
        db.questionOrg row.questionId = some orgId) →
      Change served scope db { db with
        submissions := updateWhere matched change db.submissions }
  | resultStored {db : Database} (results : List AssessmentResult) :
      Change served none db { db with results := results }
  | stamped {scope : Option Nat} {db : Database}
      (matched : CandidateAttempt → Bool)
      (change : CandidateAttempt → CandidateAttempt) :
      KeepsAttempt change →
      (∀ orgId ∈ scope, ∀ row ∈ db.attempts, matched row →
        ∀ invite ∈ db.invites, invite.id = row.inviteId →
          db.inviteOrg invite = some orgId) →
      Change served scope db { db with
        attempts := updateWhere matched change db.attempts }
  | metered {scope : Option Nat} {db : Database} (usage : List OrgUsage) :
      (∀ orgId ∈ scope,
        usage.filter (fun row => row.orgId ≠ orgId) =
          db.usage.filter (fun row => row.orgId ≠ orgId)) →
      Change served scope db { db with usage := usage }
  | erased {scope : Option Nat} {db : Database} (drawn : Nat) (email : String)
      (inviteIds : List Nat) (submissionIds : List String) :
      served.request.erases →
      (∀ orgId ∈ scope, inviteIds = db.orgInviteIds orgId ∧
        submissionIds = erasableSubmissions db orgId email) →
      Change served scope db
        (erase served.around.now (tombstone (served.around.uuid drawn)) email
          inviteIds submissionIds db)
  | recipientsDropped {db : Database} (matched : Invite → Bool)
      (change : Invite → Invite) :
      KeepsInvite change →
      Change served none db { db with
        invites := updateWhere matched change db.invites }

/-- A transaction that was committed. -/
structure Committed (served : Served) (scope : Option Nat)
    (db after : Database) : Prop where
  change : Change deployment served scope db after
  constraints : after.Constraints

/-- Transactions one after the other, on the same behalf. -/
abbrev Commits (served : Served) (scope : Option Nat) :
    Database → Database → Prop :=
  Relation.ReflTransGen (Committed deployment served scope)

/-- What a request does: its transactions, one after the other. -/
abbrev Transactions (served : Served) : Database → Database → Prop :=
  Relation.ReflTransGen fun db after =>
    ∃ scope, Committed deployment served scope db after

/-- What a request of an account does: nothing, or transactions on behalf of
the organisation where the account has its seat. -/
inductive MemberCommits (served : Served) (caller : Nat) (db : Database) :
    Database → Prop where
  | refused : MemberCommits served caller db db
  | seated {org : Membership} {after : Database} :
      db.membershipFor caller = some org →
      Commits deployment served (some org.orgId) db after →
      MemberCommits served caller db after

variable {deployment} {served : Served} {scope : Option Nat}
variable {db after : Database}

theorem Commits.transactions
    (commits : Commits deployment served scope db after) :
    Transactions deployment served db after :=
  Relation.ReflTransGen.mono (fun _ _ committed => ⟨scope, committed⟩) _ _
    commits

theorem MemberCommits.transactions {caller : Nat}
    (commits : MemberCommits deployment served caller db after) :
    Transactions deployment served db after := by
  cases commits with
  | refused => exact .refl
  | seated _ commits => exact commits.transactions

/-- What every transaction keeps holds after a request. -/
theorem Transactions.keeps (holds : Database → Prop)
    (transactions : Transactions deployment served db after)
    (constraints : db.Constraints)
    (kept : ∀ {scope state next}, Change deployment served scope state next →
      state.Constraints → next.Constraints → holds state → holds next)
    (start : holds db) : after.Constraints ∧ holds after := by
  induction transactions with
  | refl => exact ⟨constraints, start⟩
  | tail _ last inductionHypothesis =>
      obtain ⟨scope, committed⟩ := last
      obtain ⟨here, holds⟩ := inductionHypothesis
      exact ⟨committed.constraints,
        kept committed.change here committed.constraints holds⟩

end AssessmentPlatform
