import AssessmentPlatform.Records.Candidates
import AssessmentPlatform.Records.Privacy
import AssessmentPlatform.Records.Roster

/-!
# The API, and its runs

Every operation of the platform as one step on the database: the requests of
accounts, of members, of candidates, of Stripe and of the agent, and the two
background sweeps.
-/

namespace AssessmentPlatform

open Interleaving

/-! ## Requests -/

/-- What the agent makes of a draft request: it fails, or it answers at a cost
with some drafts undelivered. -/
abbrev DraftOutcome := Option (Double × Nat)

/-- The requests of a signed-in account; `read` stands for the routes that
write nothing. -/
inductive MemberRequest where
  | deleteMe (password : String)
  | createOrg (name : String)
  | updateOrg (name : Option String) (retentionDays : Option (Option Int))
  | setOrgLogo
  | clearOrgLogo
  | updateMemberRole (interviewerId : Nat) (role : Role)
  | removeMember (interviewerId : Nat)
  | createOrgInvite (email : String) (role : Role)
  | revokeOrgInvite (inviteId : Nat)
  | acceptOrgInvite (token : String)
  | eraseCandidateData (email : String)
  | startCheckout (plan : String)
  | draft (count : Nat) (outcome : DraftOutcome)
  | createQuestion (body : QuestionCreate)
  | createVariantSet (body : VariantSetCreate)
  | updateQuestion (questionId : String) (body : QuestionFields)
  | archiveQuestion (questionId : String)
  | deleteQuestion (questionId : String)
  | createAssessment (body : AssessmentIn)
  | updateAssessment (assessmentId : String) (body : AssessmentIn)
  | archiveAssessment (assessmentId : String)
  | deleteAssessment (assessmentId : String)
  | createInvite (questionId : String) (body : InviteCreate)
  | createAssessmentInvite (assessmentId : String) (body : InviteCreate)
  | createVariantSetInvites (setId : String) (body : VariantSetInviteCreate)
  | revokeAnyInvite (token : String)
  | revokeInvite (questionId token : String)
  | createSubmission (questionId candidate language code : String)
  | retrySubmission (submissionId : String)
  | read
  deriving DecidableEq, Repr

/-- The requests behind an invite's token; `read` stands for the routes that
write nothing. -/
inductive CandidateRequest where
  | start (body : CandidateStartIn)
  | run (email : String) (questionId : Option String)
  | submit (body : CandidateSubmitIn)
  | events (body : IntegrityEventsIn)
  | feedback (body : CandidateFeedbackIn)
  | saveDraft (body : CandidateDraftIn)
  | read
  deriving DecidableEq, Repr

/-- Whatever makes the platform do something. -/
inductive ApiRequest where
  | account (request : Accounts.Request)
  | register (body : RegisterIn)
  | member (caller : Nat) (request : MemberRequest)
  | candidate (token : String) (request : CandidateRequest)
  | stripeWebhook (delivery : Option Payments.Event)
  | assessmentsCallback (payload : Payload)
  | reapTick
  | retentionTick
  deriving Repr

/-! ## Handlers -/

variable (deployment : Deployment) (around : Surroundings) (db : Database)

/-- `draft_question` and `draft_variant_set`: claim the drafts, and hand back
those that never happened. -/
def draftQuestions (platform : Platform) (organization : Organization)
    (count : Nat) (outcome : DraftOutcome) : Prog Consumed := do
  match ← consume platform organization .drafts count with
  | .refused limit => return .refused limit
  | .granted =>
      match outcome with
      | none => release platform organization.id .drafts count
      | some (cost, undelivered) =>
          record platform organization.id { draftCostUsd := cost }
          if undelivered > 0 then
            release platform organization.id .drafts undelivered
      return .granted

/-- How a `Consumed` of `draftQuestions` is answered. -/
def draftReply (organization : Organization) :
    Consumed → Except HTTPException Unit
  | .granted => return ()
  | .refused limit =>
      throw (quotaError organization (planFor organization).drafts limit
        "AI question drafts" " this month")

/-- The draft routes. -/
def draft (caller count : Nat) (outcome : DraftOutcome) : Handled Unit :=
  checked db (Accounts.checkLimiter around.toSurroundings) fun _ =>
    checked db (db.currentMembership caller) fun org =>
      checked db (db.organization org.orgId) fun organization =>
        let (consumed, after) :=
          runProgram deployment around
            (draftQuestions (db.platform deployment) organization count
              outcome) db
        (after, draftReply organization consumed)

/-- `create_submission`, behind the guard of the question's organisation. -/
def directSubmit (caller : Nat)
    (questionId candidate language code : String) : Handled Unit :=
  checked db (db.currentMembership caller) fun org =>
    checked db (db.ownedQuestion questionId org) fun _ =>
      ((runProgram deployment around
        (createSubmission (db.platform deployment)
          ⟨questionId, candidate, language, code, around.uuid 0⟩) db).2,
        .ok ())

/-- The text of a status. -/
def statusName : Status → String
  | .pending => "pending"
  | .running => "running"
  | .done => "done"
  | .error => "error"

/-- The guards of `retry_submission`. -/
def checkRetry (caller : Nat) (submissionId : String) :
    Except HTTPException Unit := do
  let org ← db.currentMembership caller
  let sub ← db.ownedSubmission submissionId org
  if sub.status ≠ .error then
    throw ⟨409, s!"retry only allowed for submissions in status 'error'; " ++
      s!"this one is '{statusName sub.status}'."⟩

/-- `retry_submission`, behind its guards. -/
def retry (caller : Nat) (submissionId : String) : Handled Unit :=
  checked db (checkRetry db caller submissionId) fun _ =>
    ((runProgram deployment around
      (retrySubmission (db.platform deployment) submissionId) db).2, .ok ())

/-- The handler of a member's request. -/
def serveMember (caller : Nat) : MemberRequest → Handled Unit
  | .deleteMe password => lastly db (deleteMe deployment db caller password)
  | .createOrg name => lastly db (createOrg deployment db caller name)
  | .updateOrg name retentionDays =>
      lastly db (updateOrg deployment db caller name retentionDays)
  | .setOrgLogo => lastly db (setOrgLogo around db caller)
  | .clearOrgLogo => lastly db (clearOrgLogo db caller)
  | .updateMemberRole interviewerId role =>
      lastly db (updateMemberRole db caller interviewerId role)
  | .removeMember interviewerId =>
      lastly db (removeMember db caller interviewerId)
  | .createOrgInvite email role =>
      lastly db (createOrgInvite deployment around db caller email role)
  | .revokeOrgInvite inviteId => lastly db (revokeOrgInvite db caller inviteId)
  | .acceptOrgInvite token =>
      lastly db (acceptOrgInvite deployment around db caller token)
  | .eraseCandidateData email =>
      lastly db (eraseCandidateData deployment around caller email db)
  | .startCheckout plan =>
      lastly db (startCheckout deployment around db caller plan)
  | .draft count outcome =>
      draft deployment around db caller count outcome
  | .createQuestion body =>
      lastly db (createQuestion deployment around db caller body)
  | .createVariantSet body =>
      lastly db (createVariantSet deployment around db caller body)
  | .updateQuestion questionId body =>
      lastly db (updateQuestion db caller questionId body)
  | .archiveQuestion questionId =>
      lastly db (archiveQuestion db caller questionId)
  | .deleteQuestion questionId =>
      lastly db (deleteQuestion db caller questionId)
  | .createAssessment body =>
      lastly db (createAssessment deployment around db caller body)
  | .updateAssessment assessmentId body =>
      lastly db (updateAssessment db caller assessmentId body)
  | .archiveAssessment assessmentId =>
      lastly db (archiveAssessment db caller assessmentId)
  | .deleteAssessment assessmentId =>
      lastly db (deleteAssessment db caller assessmentId)
  | .createInvite questionId body =>
      lastly db (createInvite deployment around db caller questionId body)
  | .createAssessmentInvite assessmentId body =>
      lastly db
        (createAssessmentInvite deployment around db caller assessmentId body)
  | .createVariantSetInvites setId body =>
      lastly db
        (createVariantSetInvites deployment around db caller setId body)
  | .revokeAnyInvite token => lastly db (revokeAnyInvite db caller token)
  | .revokeInvite questionId token =>
      lastly db (revokeInvite db caller questionId token)
  | .createSubmission questionId candidate language code =>
      directSubmit deployment around db caller questionId candidate language
        code
  | .retrySubmission submissionId =>
      retry deployment around db caller submissionId
  | .read => (db, .ok ())

/-- The handler of a candidate's request; `/start` answers a deadline. -/
def serveCandidate (token : String) :
    CandidateRequest → Handled (Option Time)
  | .start body => startInvite deployment around db token body
  | .run email questionId =>
      done (candidateRun deployment around db token email questionId)
  | .submit body => done (submit deployment around db token body)
  | .events body =>
      done
        (lastly db (candidateIntegrityEvents deployment around db token body))
  | .feedback body =>
      done (lastly db (candidateFeedback deployment around db token body))
  | .saveDraft body =>
      done (candidateSaveDraft deployment around db token body)
  | .read => (db, .ok none)
where
  /-- A request that answers no deadline. -/
  done {Value : Type} (handled : Handled Value) : Handled (Option Time) :=
    (handled.1, handled.2.map fun _ => none)

/-- An account request on the table of interviewers. -/
def serveAccount (request : Accounts.Request) :
    Except HTTPException Database := do
  let (interviewers, _) ←
    request.handle deployment.auth around.toSurroundings db.interviewers
  Database.execute { db with interviewers := interviewers }

/-- The webhook on the table of organisations. -/
def serveWebhook (delivery : Option Payments.Event) :
    Except HTTPException Database :=
  Database.execute { db with
    organizations :=
      (Payments.stripeWebhook deployment.payments db.organizations delivery).1 }

/-- Serve a request: the database afterwards, and the answer. -/
def serve : ApiRequest → Handled (Option Time)
  | .account request =>
      done (lastly db (serveAccount deployment around db request))
  | .register body => done (lastly db (register deployment around db body))
  | .member caller request =>
      done (serveMember deployment around db caller request)
  | .candidate token request =>
      serveCandidate deployment around db token request
  | .stripeWebhook delivery =>
      done (lastly db (serveWebhook deployment db delivery))
  | .assessmentsCallback payload =>
      ((runProgram deployment around
        (assessmentsCallback (db.platform deployment) payload) db).2, .ok none)
  | .reapTick =>
      ((runProgram deployment around
        (reapTick (db.platform deployment)) db).2, .ok none)
  | .retentionTick =>
      ((purgeExpired deployment around around.now db).1, .ok none)
where
  /-- A request that answers no deadline. -/
  done (handled : Handled Unit) : Handled (Option Time) :=
    (handled.1, handled.2.map fun _ => none)

/-! ## Runs -/

namespace Database

/-- Every candidate address that the tables hold. -/
def addresses (db : Database) : List String :=
  db.attempts.map CandidateAttempt.candidateEmail ++
    db.submissions.filterMap Submission.candidateEmail ++
    db.drafts.map CandidateDraft.candidateEmail ++
    db.events.map IntegrityEvent.candidateEmail ++
    db.slotVariants.map CandidateSlotVariant.candidateEmail ++
    db.invites.flatMap Invite.recipients ++
    db.invites.flatMap fun invite =>
      invite.deliveries.map InviteDelivery.recipient

/-- The pseudonyms that a request may draw, one for each sitting at most. -/
def pseudonyms (around : Surroundings) (db : Database) : List String :=
  (List.range (db.attempts.length + 1)).map fun drawn =>
    tombstone (around.uuid drawn)

/-- The pseudonyms that a request may draw are fresh. -/
structure FreshPseudonyms (around : Surroundings) (db : Database) : Prop where
  distinct : (db.pseudonyms around).Nodup
  unused : ∀ pseudonym ∈ db.pseudonyms around, pseudonym ∉ db.addresses

end Database

/-- One request of a run: what it asked, what it found around it, and the
database it found. -/
structure Served where
  around : Surroundings
  request : ApiRequest
  before : Database

/-- What a request left. -/
def Served.after (served : Served) : Database :=
  (serve deployment served.around served.before served.request).1

/-- The runs of the API from an empty database, requests one at a time, each at
any instant. -/
inductive Run : List Served → Database → Prop where
  | start : Run [] .empty
  | step {trace : List Served} {db : Database} (around : Surroundings)
      (request : ApiRequest) :
      Run trace db →
      Run (trace ++ [⟨around, request, db⟩])
        (serve deployment around db request).1

end AssessmentPlatform
