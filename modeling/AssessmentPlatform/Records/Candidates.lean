import AssessmentPlatform.Records.Invites
import AssessmentPlatform.Records.Statements

/-!
# The candidate routes

The public routes behind an invite's token.  Each composes the same few guards
in its own order, and commits more than once: the draw of a variant, the
beginning of a sitting and a submission are transactions of their own, and stay
when a later part of the request is refused.
-/

namespace AssessmentPlatform

open Rows

variable (deployment : Deployment) (around : Surroundings) (db : Database)

/-- What a request of several transactions leaves, and how it answers. -/
abbrev Handled (Value : Type) := Database × Except HTTPException Value

/-- Continue a request after a transaction, unless it was refused. -/
def Handled.andThen {Value Next : Type} (first : Handled Value)
    (next : Value → Database → Handled Next) : Handled Next :=
  match first.2 with
  | .ok value => next value first.1
  | .error refused => (first.1, .error refused)

/-- A read in a request: it refuses, or the request goes on. -/
def checked {Value Next : Type} (db : Database)
    (read : Except HTTPException Value)
    (next : Value → Handled Next) : Handled Next :=
  match read with
  | .ok value => next value
  | .error refused => (db, .error refused)

/-- The transaction that ends a request. -/
def lastly (db : Database) (last : Except HTTPException Database) :
    Handled Unit :=
  match last with
  | .ok after => (after, .ok ())
  | .error refused => (db, .error refused)

section Keeps

variable {Value Next : Type} {holds : Database → Prop} {db : Database}

/-- What holds before a check and after the rest of a request. -/
theorem checked_keeps {read : Except HTTPException Value}
    {next : Value → Handled Next} (start : holds db)
    (rest : ∀ value, read = .ok value → holds (next value).1) :
    holds (checked db read next).1 := by
  unfold checked
  split
  · next value => exact rest value rfl
  · exact start

/-- What holds after a transaction and after the rest of a request. -/
theorem Handled.andThen_keeps {first : Handled Value}
    {next : Value → Database → Handled Next} (start : holds first.1)
    (rest : ∀ value, first.2 = .ok value → holds (next value first.1).1) :
    holds (first.andThen next).1 := by
  unfold Handled.andThen
  split
  · next value passed => exact rest value passed
  · exact start

/-- What holds before the last transaction and after it. -/
theorem lastly_keeps {last : Except HTTPException Database} (start : holds db)
    (done : ∀ after, last = .ok after → holds after) :
    holds (lastly db last).1 := by
  unfold lastly
  split
  · next after => exact done after rfl
  · exact start

end Keeps

/-! ## The guards -/

/-- `_is_expired` -/
def isExpired (now : Time) (expiresAt : Option Time) : Bool :=
  expiresAt.any fun expiry => expiry < now

/-- `_has_attempt` -/
def hasAttempt (invite : Invite) (email : String) : Bool :=
  (db.attemptOf invite.id email).isSome

/-- `_load_invite_or_error`, for a known address. -/
def loadInviteOrError (token email : String) :
    Except HTTPException Invite :=
  match fetch Invite.token token db.invites with
  | none => throw ⟨404, "invalid invite token."⟩
  | some invite =>
      if invite.status ≠ .active then
        throw ⟨410, "this invite is no longer active."⟩
      else if isExpired around.now invite.expiresAt ∧
          ¬(invite.durationMinutes.isSome ∧ hasAttempt db invite email) then
        throw ⟨410, "this invite has expired."⟩
      else return invite

/-- Whether an address is one of the invite's recipients. -/
def invited (invite : Invite) (email : String) : Bool :=
  (invite.recipients.map deployment.auth.normalizeEmail).contains email

/-- `_check_invited` -/
def checkInvited (invite : Invite) (email : String) :
    Except HTTPException Unit :=
  if invited deployment invite email then return ()
  else throw ⟨403, "this assessment was not sent to that email address."⟩

/-- The gates that every candidate route begins with. -/
def admitCandidate (token email : String) : Except HTTPException Invite := do
  Accounts.checkLimiter around.toSurroundings
  let invite ← loadInviteOrError around db token email
  checkInvited deployment invite email
  return invite

/-- `_ALREADY_SUBMITTED_DETAIL` -/
def alreadySubmitted : HTTPException :=
  ⟨409, "your assessment has already been recorded for this email address."⟩

/-- `_check_not_already_submitted` -/
def checkNotAlreadySubmitted (invite : Invite) (email questionId : String) :
    Except HTTPException Unit :=
  if db.submissions.any fun row =>
      Store.ofSitting invite.id email row && row.questionId == questionId then
    throw alreadySubmitted
  else return ()

/-! ## The questions of a sitting -/

/-- The draw of a candidate for a slot, `key` of `_resolve_slot_variant`. -/
def drawOf (db : Database) (invite : Invite) (slot : AssessmentQuestion)
    (email : String) : Option CandidateSlotVariant :=
  db.slotVariants.find? fun row =>
    row.inviteId == invite.id && row.candidateEmail == email &&
      row.assessmentQuestionId == slot.id

/-- `_resolve_slot_variant`: the variant of a slot for this candidate, frozen
on the first call. -/
def resolveSlotVariant (db : Database) (invite : Invite)
    (slot : AssessmentQuestion) (setId email : String) : Handled Question :=
  let existing :=
    (drawOf db invite slot email).bind fun row =>
      fetch Question.id row.questionId db.questions
  match existing with
  | some question => (db, .ok question)
  | none =>
      let variants := db.variantsOf setId
      let cursor :=
        (db.slotVariants.filter fun row =>
          row.assessmentQuestionId == slot.id).length
      match variants[cursor % variants.length]? with
      | none =>
          (db, .error
            ⟨404, "a variant set in this assessment has no variants."⟩)
      | some chosen =>
          let drawn :=
            { db with
              slotVariants := db.slotVariants ++
                [⟨db.nextId, invite.id, email, slot.id, chosen.id⟩]
              nextId := db.nextId + 1 }
          if drawn.Constraints then (drawn, .ok chosen)
          else (db, .error internalError)

/-- The loop of `_invite_questions` over the slots of an assessment. -/
def slotQuestions (invite : Invite) (email : String) :
    List AssessmentQuestion → Database → Handled (List Question)
  | [], db => (db, .ok [])
  | slot :: rest, db =>
      match slot.variantSetId with
      | some setId =>
          (resolveSlotVariant db invite slot setId email).andThen
            fun question db =>
              (slotQuestions invite email rest db).andThen
                fun questions db => (db, .ok (question :: questions))
      | none =>
          let fixed :=
            slot.questionId.bind fun id => fetch Question.id id db.questions
          (slotQuestions invite email rest db).andThen
            fun questions db => (db, .ok (fixed.toList ++ questions))

/-- `_invite_questions`, for a known address. -/
def inviteQuestions (invite : Invite) (email : String) (db : Database) :
    Handled (List Question) :=
  match invite.assessmentId with
  | some assessmentId =>
      if (fetch Assessment.id assessmentId db.assessments).isNone then
        (db, .error ⟨404, "this assessment no longer exists."⟩)
      else
        (slotQuestions invite email (db.slotsOf assessmentId) db).andThen
          fun questions db =>
            if questions = [] then
              (db, .error ⟨404, "this assessment has no questions."⟩)
            else (db, .ok questions)
  | none =>
      match invite.questionId.bind fun id =>
          fetch Question.id id db.questions with
      | none =>
          (db, .error ⟨404, "the question for this invite no longer exists."⟩)
      | some question => (db, .ok [question])

/-- `_resolve_question` -/
def resolveQuestion (invite : Invite) (questionId : Option String)
    (email : String) (db : Database) : Handled Question :=
  (inviteQuestions invite email db).andThen fun questions db =>
    match questionId with
    | none =>
        match questions with
        | [question] => (db, .ok question)
        | _ =>
            (db, .error ⟨400, "question_id is required for a multi-question " ++
              "assessment."⟩)
    | some id =>
        match questions.find? fun question => question.id == id with
        | some question => (db, .ok question)
        | none =>
            (db, .error ⟨404, "that question is not part of this invite."⟩)

/-! ## Sittings and submissions -/

/-- How a refusal of the grading programs is answered. -/
def Refusal.toHTTP : Refusal → HTTPException
  | .invalidToken => ⟨404, "invalid invite token."⟩
  | .notPartOfInvite => ⟨404, "that question is not part of this invite."⟩
  | .alreadySubmitted => AssessmentPlatform.alreadySubmitted
  | .consentRequired =>
      ⟨422, "you must agree to the privacy notice and terms before starting."⟩
  | .unavailable =>
      ⟨503, "this assessment link is not available right now; " ++
        "please contact whoever invited you."⟩
  | .noOrganisation => ⟨500, "invite belongs to no organisation."⟩
  | .dateOutOfRange => internalError

/-- Run a program of the grading machinery as a part of a request. -/
def runRequest {Value : Type}
    (program : Prog (Except Refusal Value)) (db : Database) : Handled Value :=
  let (reply, after) := runProgram deployment around program db
  (after, reply.mapError Refusal.toHTTP)

/-- `_deadline_for`, as long as the deadline can be represented. -/
def deadlineFor (startedAt : Time) (durationMinutes : Option Int) :
    Option Time :=
  durationMinutes.map fun minutes => startedAt + minutes * 60 * second

/-- `_deadline_for`, which raises where the deadline leaves the years of a
`datetime`. -/
def computeDeadline (startedAt : Time) (durationMinutes : Option Int) :
    Except HTTPException (Option Time) :=
  let deadline := deadlineFor startedAt durationMinutes
  if deadline.all representable then return deadline else throw internalError

theorem computeDeadline_eq_ok {startedAt : Time}
    {durationMinutes : Option Int} {deadline : Option Time} :
    computeDeadline startedAt durationMinutes = .ok deadline ↔
      (deadlineFor startedAt durationMinutes).all representable ∧
        deadline = deadlineFor startedAt durationMinutes := by
  unfold computeDeadline
  dsimp only
  by_cases fits : (deadlineFor startedAt durationMinutes).all representable
  · rw [if_pos fits]
    constructor
    · exact fun answered => ⟨fits, (Except.ok.inj answered).symm⟩
    · rintro ⟨_, rfl⟩
      rfl
  · simp [fits]

/-- `_candidate_question_view` of a sitting: its questions, and the answered
deadline. -/
def candidateQuestionView (invite : Invite) (attempt : CandidateAttempt)
    (db : Database) : Handled (Option Time) :=
  (inviteQuestions invite attempt.candidateEmail db).andThen fun _ db =>
    (db, computeDeadline attempt.startedAt invite.durationMinutes)

/-- `CandidateStartIn` -/
structure CandidateStartIn where
  candidateEmail : String
  consent : Bool
  candidateName : Option String
  deriving DecidableEq, Repr

/-- The gate of `start_invite`: a quick screen is not entered again once its
question is submitted. -/
def checkReentry (invite : Invite) (email : String) :
    Except HTTPException Unit :=
  let single :=
    if invite.assessmentId.isNone then invite.questionId else none
  match single with
  | none => return ()
  | some questionId => checkNotAlreadySubmitted db invite email questionId

/-- `start_invite`, which answers the deadline of the sitting. -/
def startInvite (token : String) (body : CandidateStartIn) :
    Handled (Option Time) :=
  let email := deployment.auth.normalizeEmail body.candidateEmail
  checked db (admitCandidate deployment around db token email) fun invite =>
    checked db (checkReentry db invite email) fun _ =>
      (runRequest deployment around
        (startAttempt (db.platform deployment) invite email body.candidateName
          body.consent db.nextId) db).andThen
        fun attempt db => candidateQuestionView invite attempt db

/-- `_load_invite_for_candidate`, the gate of `candidate_run` and
`candidate_run_tests`; what these store is nothing but a draw. -/
def candidateRun (token email : String) (questionId : Option String) :
    Handled Unit :=
  let email := deployment.auth.normalizeEmail email
  checked db (admitCandidate deployment around db token email) fun invite =>
    (resolveQuestion invite questionId email db).andThen fun question db =>
      checked db (checkNotAlreadySubmitted db invite email question.id)
        fun _ => (db, .ok ())

/-- `CandidateSubmitIn` -/
structure CandidateSubmitIn where
  candidateName : String
  candidateEmail : String
  language : String
  code : String
  questionId : Option String
  consent : Bool
  deriving DecidableEq, Repr

/-- `candidate_submit`.  An address that is empty is no `EmailStr`. -/
def submit (token : String) (body : CandidateSubmitIn) : Handled String :=
  let email := deployment.auth.normalizeEmail body.candidateEmail
  if nonempty : email = "" then
    (db, .error ⟨422, "value is not a valid email address"⟩)
  else
    checked db (admitCandidate deployment around db token email) fun invite =>
      (resolveQuestion invite body.questionId email db).andThen
        fun question db =>
          runRequest deployment around
            (candidateSubmit (db.platform deployment)
              { inviteId := invite.id
                email := email
                email_nonempty := nonempty
                questionId := question.id
                candidateName := body.candidateName
                consent := body.consent
                language := body.language
                code := body.code
                submissionId := around.uuid 0
                attemptId := db.nextId }) db

/-! ## Integrity events, feedback and drafts -/

/-- `IntegrityEventIn` -/
structure IntegrityEventIn where
  kind : String
  offsetMs : Int
  durationMs : Option Int
  size : Option Int
  blocked : Bool
  deriving DecidableEq, Repr

/-- `IntegrityEventsIn` -/
structure IntegrityEventsIn where
  candidateEmail : String
  questionId : Option String
  events : List IntegrityEventIn
  deriving DecidableEq, Repr

/-- The milliseconds since the sitting began, as `candidate_integrity_events`
clamps them. -/
def elapsedMs (attempt : Option CandidateAttempt) : Int :=
  match attempt with
  | none => 0
  | some attempt => max 0 ((around.now - attempt.startedAt).tdiv 1000)

/-- The rows of a batch of events. -/
def eventRows (invite : Invite) (email : String) (questionId : Option String)
    (elapsed : Int) (first : Nat) (events : List IntegrityEventIn) :
    List IntegrityEvent :=
  events.zipIdx.map fun (event, index) =>
    { id := first + index
      inviteId := invite.id
      candidateEmail := email
      questionId := questionId
      kind := event.kind
      offsetMs := min event.offsetMs elapsed
      durationMs := event.durationMs
      size := event.size
      blocked := event.blocked }

/-- `candidate_integrity_events` -/
def candidateIntegrityEvents (token : String) (body : IntegrityEventsIn) :
    Except HTTPException Database := do
  let email := deployment.auth.normalizeEmail body.candidateEmail
  let invite ← admitCandidate deployment around db token email
  let elapsed := elapsedMs around (db.attemptOf invite.id email)
  Database.execute { db with
    events := db.events ++
      eventRows invite email body.questionId elapsed db.nextId body.events
    nextId := db.nextId + body.events.length }

/-- `CandidateFeedbackIn` -/
structure CandidateFeedbackIn where
  candidateEmail : String
  rating : Nat
  difficultyFair : String
  comment : String
  deriving DecidableEq, Repr

/-- `candidate_feedback` -/
def candidateFeedback (token : String) (body : CandidateFeedbackIn) :
    Except HTTPException Database := do
  let email := deployment.auth.normalizeEmail body.candidateEmail
  let invite ← admitCandidate deployment around db token email
  match db.attemptOf invite.id email with
  | none => throw nothingToCommentOn
  | some attempt =>
      if !(db.submissions.any (Store.ofSitting invite.id email)) ||
          invite.assessmentId.isNone then
        throw nothingToCommentOn
      match db.inviteOrg invite with
      | none => throw ⟨500, "invite belongs to no organisation."⟩
      | some orgId =>
          let recorded : Database :=
            { db with
              feedback := db.feedback ++
                [{ id := db.nextId
                   orgId := orgId
                   attemptId := attempt.id
                   rating := body.rating
                   difficultyFair := body.difficultyFair
                   comment := deployment.auth.strip body.comment }]
              nextId := db.nextId + 1 }
          if recorded.Constraints then return recorded
          else
            throw ⟨409, "Feedback for this assessment has already been " ++
              "recorded"⟩
where
  nothingToCommentOn : HTTPException :=
    ⟨404, "No completed assessment to give feedback on"⟩

/-- `CandidateDraftIn` -/
structure CandidateDraftIn where
  candidateEmail : String
  questionId : Option String
  code : String
  language : String
  deriving DecidableEq, Repr

/-- The upsert of `candidate_save_draft`. -/
def saveDraft (invite : Invite) (email questionId : String)
    (body : CandidateDraftIn) (db : Database) :
    Except HTTPException Database :=
  let stored :=
    db.drafts.find? fun row =>
      row.inviteId == invite.id && row.candidateEmail == email &&
        row.questionId == questionId
  match stored with
  | none =>
      Database.execute { db with
        drafts := db.drafts ++
          [⟨db.nextId, invite.id, email, questionId, body.code, body.language,
            around.now⟩]
        nextId := db.nextId + 1 }
  | some draft =>
      Database.execute { db with
        drafts :=
          save CandidateDraft.id
            { draft with
              code := body.code
              language := body.language
              updatedAt := around.now }
            db.drafts }

/-- `candidate_save_draft` -/
def candidateSaveDraft (token : String) (body : CandidateDraftIn) :
    Handled Unit :=
  let email := deployment.auth.normalizeEmail body.candidateEmail
  checked db (admitCandidate deployment around db token email) fun invite =>
    (resolveQuestion invite body.questionId email db).andThen
      fun question db =>
        lastly db (saveDraft around invite email question.id body db)

end AssessmentPlatform
