import AssessmentPlatform.Analytics.Overview
import AssessmentPlatform.Analytics.ReportedRisk

/-!
# The attempts grid

`_assessment_attempt_rows` puts the row of a sitting together from bulk queries
whose dictionaries are keyed by address, or by address and question, and not by
invite.  Two sittings of one address on one assessment can show up in each
other's rows.
-/

namespace AssessmentPlatform

open Rows Integrity

/-! ## Rows of the grid -/

/-- The `created_at` columns that no other modelled function reads. -/
structure CreatedAt where
  submission : String → Time
  feedback : Nat → Time

/-- `AttemptFeedbackOut` -/
structure AttemptFeedbackOut where
  rating : Nat
  difficultyFair : String
  comment : String
  createdAt : Time
  deriving DecidableEq, Repr

/-- `AssessmentAttemptQuestionOut` -/
structure AssessmentAttemptQuestionOut where
  questionId : Option String
  variantSetId : Option String
  variantLabel : Option String
  title : String
  submitted : Bool
  late : Bool
  submissionId : Option String
  verdict : Option String
  scorePct : Option Double
  deriving DecidableEq, Repr

/-- `AssessmentAttemptOut` -/
structure AssessmentAttemptOut where
  candidateName : String
  candidateEmail : String
  erased : Bool
  questions : List AssessmentAttemptQuestionOut
  passedCount : Nat
  totalCount : Nat
  avgScorePct : Option Double
  integritySignals : Option Nat
  integrityBlocked : Nat
  integrityRisk : Option RiskLevel
  feedback : Option AttemptFeedbackOut
  deriving DecidableEq, Repr

/-- What a dictionary holds under a key once it is filled row by row. -/
def lastOf {Row : Type} (rows : List Row) (isKey : Row → Bool) : Option Row :=
  (rows.filter isKey).getLast?

/-- `_attempt_feedback` -/
def attemptFeedback (created : CreatedAt) (row : CandidateFeedback) :
    AttemptFeedbackOut where
  rating := row.rating
  difficultyFair := row.difficultyFair
  comment := row.comment
  createdAt := created.feedback row.id

namespace Database

variable (created : CreatedAt) (db : Database)

/-- The ids of the invites of an assessment. -/
def assessmentInvites (assessmentId : String) : List Nat :=
  (db.invites.filter fun row => row.assessmentId == some assessmentId).map
    Invite.id

/-- The submissions behind the grid, `subs`. -/
def gridSubmissions (assessmentId : String) : List Submission :=
  db.submissions.filter fun row =>
    row.inviteId.any (db.assessmentInvites assessmentId).contains &&
      row.candidateEmail.isSome

/-- The integrity events behind the grid. -/
def gridEvents (assessmentId : String) : List IntegrityEvent :=
  db.events.filter fun row =>
    (db.assessmentInvites assessmentId).contains row.inviteId

/-- `monitored_invites` -/
def monitored (inviteId : Nat) : Bool :=
  (fetch Invite.id inviteId db.invites).any Invite.proctored

/-- `assigned`, at one sitting and slot. -/
def assigned (inviteId : Nat) (email : String) (slotId : Nat) :
    Option String :=
  (lastOf db.slotVariants fun row =>
    row.inviteId == inviteId && row.candidateEmail == email &&
      row.assessmentQuestionId == slotId).map CandidateSlotVariant.questionId

/-- `label_of`, over the variants of every set of the assessment. -/
def labelOf (slots : List AssessmentQuestion) (questionId : String) :
    Option String :=
  (lastOf (slots.flatMap fun slot =>
      slot.variantSetId.toList.flatMap db.variantsOf)
    fun variant => variant.id == questionId).map
      fun variant => variant.variantLabel.getD ""

/-- The title that a slot is shown under. -/
def slotTitle (slot : AssessmentQuestion) : String :=
  match slot.variantSetId with
  | some setId =>
      ((fetch VariantSet.id setId db.variantSets).map VariantSet.title).getD
        setId
  | none =>
      ((slot.questionId.bind fun id => fetch Question.id id db.questions).map
        Question.title).getD (slot.questionId.getD "")

end Database

/-- A key of the dictionaries of submissions. -/
def isPair (email questionId : String) (sub : Submission) : Bool :=
  sub.candidateEmail == some email && sub.questionId == questionId

/-- `graded`: results are entered only for submissions that have one. -/
def gradedOf (subs : List Submission) (results : List AssessmentResult)
    (email questionId : String) : Option AssessmentResult :=
  (lastOf subs fun sub =>
    isPair email questionId sub &&
      (Analytics.resultOf results sub.id).isSome).bind
        fun sub => Analytics.resultOf results sub.id

/-- The question of a cell, where it is true in a condition. -/
def named (questionId : Option String) : Option String :=
  questionId.filter (· != "")

/-- The cell of a slot, from what the dictionaries hold for its question. -/
def slotCell (subs : List Submission) (results : List AssessmentResult)
    (email : String) (questionId variantSetId variantLabel : Option String)
    (title : String) : AssessmentAttemptQuestionOut :=
  let result := (named questionId).bind (gradedOf subs results email)
  let sub := (named questionId).bind fun id => lastOf subs (isPair email id)
  { questionId := questionId
    variantSetId := variantSetId
    variantLabel := variantLabel
    title := title
    submitted := sub.isSome
    late := (sub.map Submission.late).getD false
    submissionId := sub.map Submission.id
    verdict := result.map AssessmentResult.verdict
    scorePct := result.map AssessmentResult.scorePct }

namespace Database

variable (created : CreatedAt) (db : Database)

/-- The question of a slot in a sitting: the one it names, or the variant that
was handed out. -/
def slotQuestionId (attempt : CandidateAttempt) (slot : AssessmentQuestion) :
    Option String :=
  match slot.variantSetId with
  | some _ => db.assigned attempt.inviteId attempt.candidateEmail slot.id
  | none => slot.questionId

/-- The label of a set slot's variant. -/
def slotLabel (slots : List AssessmentQuestion) (attempt : CandidateAttempt)
    (slot : AssessmentQuestion) : Option String :=
  slot.variantSetId.bind fun _ =>
    (named (db.slotQuestionId attempt slot)).bind (db.labelOf slots)

/-- The row of a sitting. -/
def attemptRow (assessmentId : String) (attempt : CandidateAttempt) :
    AssessmentAttemptOut :=
  let slots := db.slotsOf assessmentId
  let email := attempt.candidateEmail
  let questions := slots.map fun slot =>
    slotCell (db.gridSubmissions assessmentId) db.results email
      (db.slotQuestionId attempt slot) slot.variantSetId
      (db.slotLabel slots attempt slot) (db.slotTitle slot)
  let events := (db.gridEvents assessmentId).filter fun event =>
    event.candidateEmail == email
  let scores := questions.filterMap AssessmentAttemptQuestionOut.scorePct
  { candidateName :=
      match attempt.candidateName with
      | some name => if name = "" then email else name
      | none => email
    candidateEmail := email
    erased := attempt.erasedAt.isSome
    questions := questions
    passedCount := questions.countP fun cell => cell.verdict == some "PASS"
    totalCount := slots.length
    avgScorePct := Analytics.meanScore scores
    integritySignals :=
      if db.monitored attempt.inviteId then some events.length else none
    integrityBlocked := events.countP isBlockedPaste
    integrityRisk :=
      if db.monitored attempt.inviteId then
        some (riskLevel (riskScore events).1)
      else none
    feedback :=
      (lastOf db.feedback fun row => row.attemptId == attempt.id).map
        (attemptFeedback created) }

/-- The attempts behind the grid, by when they began. -/
def gridAttempts (assessmentId : String) : List CandidateAttempt :=
  (db.attempts.filter fun row =>
    (db.assessmentInvites assessmentId).contains row.inviteId).insertionSort
      fun first second => first.startedAt ≤ second.startedAt

/-- `_assessment_attempt_rows` -/
def assessmentAttemptRows (assessmentId : String) :
    List AssessmentAttemptOut :=
  (db.gridAttempts assessmentId).map (db.attemptRow created assessmentId)

/-- `_integrity_by_submission`, at one submission. -/
def integrityOf (sub : Submission) : Option Nat × Nat × Option RiskLevel :=
  match sub.inviteId, sub.candidateEmail with
  | some inviteId, some email =>
      if db.monitored inviteId then
        let events := db.sittingEvents inviteId email
        (some events.length, events.countP isBlockedPaste,
          some (riskLevel (riskScore events).1))
      else (none, 0, none)
  | _, _ => (none, 0, none)

end Database

/-! ## What a row depends on -/

variable {created : CreatedAt} {db other : Database} {assessmentId : String}
variable {attempt : CandidateAttempt}

namespace Database

/-- The submissions of a sitting. -/
def ownSubmissions (db : Database) (attempt : CandidateAttempt) :
    List Submission :=
  db.submissions.filter
    (Store.ofSitting attempt.inviteId attempt.candidateEmail)

/-- The submissions of the address on other invites of the assessment. -/
def foreignSubmissions (db : Database) (assessmentId : String)
    (attempt : CandidateAttempt) : List Submission :=
  (db.gridSubmissions assessmentId).filter fun sub =>
    sub.candidateEmail == some attempt.candidateEmail &&
      sub.inviteId != some attempt.inviteId

/-- The events of the address on other invites of the assessment. -/
def foreignEvents (db : Database) (assessmentId : String)
    (attempt : CandidateAttempt) : List IntegrityEvent :=
  (db.gridEvents assessmentId).filter fun event =>
    event.candidateEmail == attempt.candidateEmail &&
      event.inviteId != attempt.inviteId

end Database

/-- The address has left nothing on another invite of the assessment. -/
structure Alone (db : Database) (assessmentId : String)
    (attempt : CandidateAttempt) : Prop where
  stored : attempt ∈ db.gridAttempts assessmentId
  submissions : db.foreignSubmissions assessmentId attempt = []
  events : db.foreignEvents assessmentId attempt = []

/-- Two states with the same assessment, as it is shown, and the same rows of a
sitting. -/
structure SameSitting (db other : Database) (assessmentId : String)
    (attempt : CandidateAttempt) : Prop where
  slots : db.slotsOf assessmentId = other.slotsOf assessmentId
  title : ∀ slot ∈ db.slotsOf assessmentId,
    db.slotTitle slot = other.slotTitle slot
  variants : ∀ slot ∈ db.slotsOf assessmentId, ∀ setId ∈ slot.variantSetId,
    db.variantsOf setId = other.variantsOf setId
  monitored : db.monitored attempt.inviteId = other.monitored attempt.inviteId
  draws : ∀ slotId,
    db.assigned attempt.inviteId attempt.candidateEmail slotId =
      other.assigned attempt.inviteId attempt.candidateEmail slotId
  submissions : db.ownSubmissions attempt = other.ownSubmissions attempt
  results : ∀ sub ∈ db.ownSubmissions attempt,
    Analytics.resultOf db.results sub.id =
      Analytics.resultOf other.results sub.id
  events : db.sittingEvents attempt.inviteId attempt.candidateEmail =
    other.sittingEvents attempt.inviteId attempt.candidateEmail
  feedback :
    (db.feedback.filter fun row => row.attemptId == attempt.id) =
      other.feedback.filter fun row => row.attemptId == attempt.id

theorem mem_gridAttempts :
    attempt ∈ db.gridAttempts assessmentId ↔
      attempt ∈ db.attempts ∧
        attempt.inviteId ∈ db.assessmentInvites assessmentId := by
  simp [Database.gridAttempts]

theorem mem_gridSubmissions {sub : Submission} :
    sub ∈ db.gridSubmissions assessmentId ↔
      sub ∈ db.submissions ∧ sub.candidateEmail.isSome ∧
        ∃ inviteId ∈ sub.inviteId,
          inviteId ∈ db.assessmentInvites assessmentId := by
  simp only [Database.gridSubmissions, List.mem_filter, Bool.and_eq_true,
    Option.any_eq_true, List.contains_iff_mem, Option.mem_def]
  exact and_congr_right fun _ => and_comm

theorem ofSitting_iff {sub : Submission} {inviteId : Nat} {email : String} :
    Store.ofSitting inviteId email sub = true ↔
      sub.inviteId = some inviteId ∧ sub.candidateEmail = some email := by
  simp [Store.ofSitting]

/-- The submissions that the grid finds for an address that sat nothing else
of the assessment. -/
theorem Alone.filter_gridSubmissions (alone : Alone db assessmentId attempt)
    (isKey : Submission → Bool) :
    ((db.gridSubmissions assessmentId).filter fun sub =>
        sub.candidateEmail == some attempt.candidateEmail && isKey sub) =
      (db.ownSubmissions attempt).filter isKey := by
  have isOf := (mem_gridAttempts.mp alone.stored).2
  have none' := List.filter_eq_nil_iff.mp alone.submissions
  have mine : (db.gridSubmissions assessmentId).filter (fun sub =>
      sub.candidateEmail == some attempt.candidateEmail) =
        db.ownSubmissions attempt := by
    rw [Database.ownSubmissions, Database.gridSubmissions,
      List.filter_filter]
    apply List.filter_congr
    intro sub member
    rw [Bool.eq_iff_iff, ofSitting_iff]
    simp only [Bool.and_eq_true, beq_iff_eq, Option.any_eq_true,
      List.contains_iff_mem]
    constructor
    · intro ⟨isEmail, ⟨inviteId, isInvite, inAssessment⟩, isSome⟩
      refine ⟨?_, isEmail⟩
      have inGrid := mem_gridSubmissions.mpr
        ⟨member, isSome, inviteId, isInvite, inAssessment⟩
      have notForeign := none' sub inGrid
      simpa [isEmail] using notForeign
    · intro ⟨isInvite, isEmail⟩
      exact ⟨isEmail, ⟨_, isInvite, isOf⟩, by rw [isEmail]; rfl⟩
  rw [← mine, List.filter_filter]
  exact List.filter_congr fun sub _ => Bool.and_comm _ _

theorem Alone.filter_gridEvents (alone : Alone db assessmentId attempt) :
    ((db.gridEvents assessmentId).filter fun event =>
        event.candidateEmail == attempt.candidateEmail) =
      db.sittingEvents attempt.inviteId attempt.candidateEmail := by
  have isOf := (mem_gridAttempts.mp alone.stored).2
  have none' := List.filter_eq_nil_iff.mp alone.events
  rw [Database.sittingEvents, Database.gridEvents, List.filter_filter]
  apply List.filter_congr
  intro event member
  rw [Bool.eq_iff_iff]
  simp only [Bool.and_eq_true, beq_iff_eq, List.contains_iff_mem]
  constructor
  · rintro ⟨isEmail, inAssessment⟩
    have inGrid : event ∈ db.gridEvents assessmentId :=
      List.mem_filter.mpr ⟨member, List.contains_iff_mem.mpr inAssessment⟩
    have notForeign := none' event inGrid
    exact ⟨by simpa [isEmail] using notForeign, isEmail⟩
  · rintro ⟨isInvite, isEmail⟩
    exact ⟨isEmail, isInvite ▸ isOf⟩

/-- What the dictionaries hold for a sitting that is alone. -/
theorem Alone.lastOf_isPair (alone : Alone db assessmentId attempt)
    (questionId : String) :
    lastOf (db.gridSubmissions assessmentId)
        (isPair attempt.candidateEmail questionId) =
      lastOf (db.ownSubmissions attempt) (·.questionId == questionId) :=
  congrArg List.getLast?
    (alone.filter_gridSubmissions (·.questionId == questionId))

theorem Alone.gradedOf (alone : Alone db assessmentId attempt)
    (results : List AssessmentResult) (questionId : String) :
    AssessmentPlatform.gradedOf (db.gridSubmissions assessmentId) results
        attempt.candidateEmail questionId =
      (lastOf (db.ownSubmissions attempt) fun sub =>
        sub.questionId == questionId &&
          (Analytics.resultOf results sub.id).isSome).bind
            fun sub => Analytics.resultOf results sub.id := by
  have same := alone.filter_gridSubmissions fun sub =>
    sub.questionId == questionId &&
      (Analytics.resultOf results sub.id).isSome
  rw [AssessmentPlatform.gradedOf, lastOf, lastOf, ← same]
  congr 3
  funext sub
  simp [isPair, Bool.and_assoc]

/-- The label of a variant depends on the sets of the assessment only. -/
theorem SameSitting.labelOf (same : SameSitting db other assessmentId attempt)
    (questionId : String) :
    db.labelOf (db.slotsOf assessmentId) questionId =
      other.labelOf (other.slotsOf assessmentId) questionId := by
  have variants : (db.slotsOf assessmentId).flatMap
      (fun slot => slot.variantSetId.toList.flatMap db.variantsOf) =
        (db.slotsOf assessmentId).flatMap
          fun slot => slot.variantSetId.toList.flatMap other.variantsOf := by
    apply List.flatMap_congr
    intro slot member
    cases isSet : slot.variantSetId with
    | none => rfl
    | some setId => simp [same.variants slot member setId isSet]
  rw [Database.labelOf, Database.labelOf, variants, same.slots]

theorem mem_of_lastOf {Row : Type} {rows : List Row} {isKey : Row → Bool}
    {row : Row} (found : lastOf rows isKey = some row) :
    row ∈ rows ∧ isKey row = true :=
  List.mem_filter.mp (List.mem_of_getLast? found)

theorem SameSitting.slotQuestionId
    (same : SameSitting db other assessmentId attempt)
    (slot : AssessmentQuestion) :
    db.slotQuestionId attempt slot = other.slotQuestionId attempt slot := by
  unfold Database.slotQuestionId
  cases slot.variantSetId with
  | none => rfl
  | some setId => exact same.draws slot.id

/-- The result that is shown for a question. -/
theorem SameSitting.gradedOf
    (same : SameSitting db other assessmentId attempt)
    (alone : Alone db assessmentId attempt)
    (alone' : Alone other assessmentId attempt) (questionId : String) :
    AssessmentPlatform.gradedOf (db.gridSubmissions assessmentId) db.results
        attempt.candidateEmail questionId =
      AssessmentPlatform.gradedOf (other.gridSubmissions assessmentId)
        other.results attempt.candidateEmail questionId := by
  rw [alone.gradedOf, alone'.gradedOf, ← same.submissions]
  have keys : lastOf (db.ownSubmissions attempt) (fun sub =>
      sub.questionId == questionId &&
        (Analytics.resultOf db.results sub.id).isSome) =
        lastOf (db.ownSubmissions attempt) fun sub =>
          sub.questionId == questionId &&
            (Analytics.resultOf other.results sub.id).isSome := by
    refine congrArg List.getLast? (List.filter_congr fun sub member => ?_)
    rw [same.results sub member]
  rw [← keys]
  cases found : lastOf (db.ownSubmissions attempt) fun sub =>
      sub.questionId == questionId &&
        (Analytics.resultOf db.results sub.id).isSome with
  | none => rfl
  | some sub => exact same.results sub (mem_of_lastOf found).1

/-- A sitting whose address is alone on the assessment shows its own rows and
nothing else. -/
theorem SameSitting.attemptRow
    (same : SameSitting db other assessmentId attempt)
    (alone : Alone db assessmentId attempt)
    (alone' : Alone other assessmentId attempt) :
    db.attemptRow created assessmentId attempt =
      other.attemptRow created assessmentId attempt := by
  have cells : ((db.slotsOf assessmentId).map fun slot =>
      slotCell (db.gridSubmissions assessmentId) db.results
        attempt.candidateEmail (db.slotQuestionId attempt slot)
        slot.variantSetId
        (db.slotLabel (db.slotsOf assessmentId) attempt slot)
        (db.slotTitle slot)) =
      (other.slotsOf assessmentId).map fun slot =>
        slotCell (other.gridSubmissions assessmentId) other.results
          attempt.candidateEmail (other.slotQuestionId attempt slot)
          slot.variantSetId
          (other.slotLabel (other.slotsOf assessmentId) attempt slot)
          (other.slotTitle slot) := by
    rw [← same.slots]
    apply List.map_congr_left
    intro slot member
    have label : db.slotLabel (db.slotsOf assessmentId) attempt slot =
        other.slotLabel (db.slotsOf assessmentId) attempt slot := by
      have labels : db.labelOf (db.slotsOf assessmentId) =
          other.labelOf (db.slotsOf assessmentId) := by
        funext questionId
        rw [same.labelOf questionId, ← same.slots]
      unfold Database.slotLabel
      rw [same.slotQuestionId slot, labels]
    rw [label, same.slotQuestionId slot, same.title slot member]
    have graded := same.gradedOf alone alone'
    have found (questionId : String) := (alone.lastOf_isPair questionId).trans
      ((congrArg (lastOf · (·.questionId == questionId))
        same.submissions).trans (alone'.lastOf_isPair questionId).symm)
    unfold slotCell
    simp only [funext found, funext graded]
  unfold Database.attemptRow
  simp only [cells, ← same.slots, alone.filter_gridEvents,
    alone'.filter_gridEvents, same.events, same.monitored, lastOf,
    same.feedback]

/-- The counts and the level of a monitored sitting are those that its
submissions are listed with. -/
theorem Alone.integrityOf (alone : Alone db assessmentId attempt)
    (isMonitored : db.monitored attempt.inviteId = true)
    {sub : Submission} (isOf : sub ∈ db.ownSubmissions attempt) :
    db.integrityOf sub =
      ((db.attemptRow created assessmentId attempt).integritySignals,
        (db.attemptRow created assessmentId attempt).integrityBlocked,
        (db.attemptRow created assessmentId attempt).integrityRisk) := by
  obtain ⟨isInvite, isEmail⟩ := ofSitting_iff.mp (List.mem_filter.mp isOf).2
  simp only [Database.integrityOf, Database.attemptRow, isInvite, isEmail,
    isMonitored, if_true, alone.filter_gridEvents]

/-! ## What a row shows of other sittings -/

/-- The number of signals is the sitting's own exactly when the address has
caused none on another invite. -/
theorem integritySignals_iff
    (isOf : attempt.inviteId ∈ db.assessmentInvites assessmentId)
    (isMonitored : db.monitored attempt.inviteId = true) :
    (db.attemptRow created assessmentId attempt).integritySignals =
        some (db.sittingEvents attempt.inviteId
          attempt.candidateEmail).length ↔
      db.foreignEvents assessmentId attempt = [] := by
  have parts := List.length_eq_length_filter_add
    (l := (db.gridEvents assessmentId).filter fun event =>
      event.candidateEmail == attempt.candidateEmail)
    fun event => event.inviteId == attempt.inviteId
  have own : ((db.gridEvents assessmentId).filter fun event =>
      event.candidateEmail == attempt.candidateEmail).filter
        (fun event => event.inviteId == attempt.inviteId) =
      db.sittingEvents attempt.inviteId attempt.candidateEmail := by
    rw [Database.sittingEvents, Database.gridEvents, List.filter_filter,
      List.filter_filter]
    apply List.filter_congr
    intro event _
    rw [Bool.eq_iff_iff]
    simp only [Bool.and_eq_true, beq_iff_eq, List.contains_iff_mem]
    constructor
    · exact And.left
    · intro mine
      exact ⟨mine, mine.1 ▸ isOf⟩
  have foreign : ((db.gridEvents assessmentId).filter fun event =>
      event.candidateEmail == attempt.candidateEmail).filter
        (fun event => !(event.inviteId == attempt.inviteId)) =
      db.foreignEvents assessmentId attempt := by
    rw [Database.foreignEvents, List.filter_filter]
    exact List.filter_congr fun event _ => Bool.and_comm _ _
  rw [own, foreign] at parts
  simp only [Database.attemptRow, isMonitored, if_true, Option.some.injEq]
  rw [parts, ← List.length_eq_zero_iff]
  omega

/-- A sitting has one submission of a question. -/
theorem ownSubmissions_eq (constraints : db.Constraints)
    {sub same : Submission} (isOf : sub ∈ db.ownSubmissions attempt)
    (sameOf : same ∈ db.ownSubmissions attempt)
    (question : sub.questionId = same.questionId) : sub = same := by
  obtain ⟨isRow, ofSitting⟩ := List.mem_filter.mp isOf
  obtain ⟨sameRow, sameSitting⟩ := List.mem_filter.mp sameOf
  obtain ⟨isInvite, isEmail⟩ := ofSitting_iff.mp ofSitting
  obtain ⟨sameInvite, sameEmail⟩ := ofSitting_iff.mp sameSitting
  have unique := constraints.uniqueKeys.submissionCandidate
  have key (row : Submission) (invite : row.inviteId = some attempt.inviteId)
      (email : row.candidateEmail = some attempt.candidateEmail) :
      (row.inviteId.bind fun inviteId =>
        row.candidateEmail.map (inviteId, ·, row.questionId)) =
          some (attempt.inviteId, attempt.candidateEmail, row.questionId) := by
    simp [invite, email]
  exact unique.eq isRow sameRow (key sub isInvite isEmail)
    (question ▸ key same sameInvite sameEmail)

/-- A cell shows the sitting's own submission exactly when no other of the
address on the assessment has been entered under the question after it. -/
theorem submissionId_iff (constraints : db.Constraints)
    (isOf : attempt.inviteId ∈ db.assessmentInvites assessmentId)
    (questionId : String) :
    (lastOf (db.gridSubmissions assessmentId)
          (isPair attempt.candidateEmail questionId)).map Submission.id =
        (lastOf (db.ownSubmissions attempt)
          (·.questionId == questionId)).map Submission.id ↔
      ∀ sub ∈ lastOf (db.gridSubmissions assessmentId)
          (isPair attempt.candidateEmail questionId),
        sub.inviteId = some attempt.inviteId := by
  have toGrid {sub : Submission} (own : sub ∈ db.ownSubmissions attempt) :
      sub ∈ db.gridSubmissions assessmentId := by
    obtain ⟨isRow, ofSitting⟩ := List.mem_filter.mp own
    obtain ⟨isInvite, isEmail⟩ := ofSitting_iff.mp ofSitting
    exact mem_gridSubmissions.mpr
      ⟨isRow, by rw [isEmail]; rfl, attempt.inviteId, isInvite, isOf⟩
  constructor
  · intro same sub found
    rw [Option.mem_def.mp found] at same
    obtain ⟨own, isOwn, sameId⟩ := Option.map_eq_some_iff.mp same.symm
    have inOwn := (mem_of_lastOf isOwn).1
    have inGrid := (mem_of_lastOf found).1
    obtain ⟨isRow, ofSitting⟩ := List.mem_filter.mp inOwn
    have isSame := constraints.uniqueKeys.submission.eq isRow
      (mem_gridSubmissions.mp inGrid).1 sameId
    exact isSame ▸ (ofSitting_iff.mp ofSitting).1
  · intro isOwn
    cases found : lastOf (db.gridSubmissions assessmentId)
        (isPair attempt.candidateEmail questionId) with
    | none =>
        cases own : lastOf (db.ownSubmissions attempt)
            (·.questionId == questionId) with
        | none => rfl
        | some sub =>
            obtain ⟨inOwn, isQuestion⟩ := mem_of_lastOf own
            have nothing := List.filter_eq_nil_iff.mp
              (List.getLast?_eq_none_iff.mp found) sub (toGrid inOwn)
            obtain ⟨_, isEmail⟩ :=
              ofSitting_iff.mp (List.mem_filter.mp inOwn).2
            simp [isPair, isEmail, beq_iff_eq.mp isQuestion] at nothing
    | some sub =>
        obtain ⟨inGrid, isKey⟩ := mem_of_lastOf found
        simp only [isPair, Bool.and_eq_true, beq_iff_eq] at isKey
        have inOwn : sub ∈ db.ownSubmissions attempt :=
          List.mem_filter.mpr ⟨(mem_gridSubmissions.mp inGrid).1,
            ofSitting_iff.mpr ⟨isOwn sub found, isKey.1⟩⟩
        cases own : lastOf (db.ownSubmissions attempt)
            (·.questionId == questionId) with
        | none =>
            have nothing := List.filter_eq_nil_iff.mp
              (List.getLast?_eq_none_iff.mp own) sub inOwn
            simp [isKey.2] at nothing
        | some same =>
            obtain ⟨sameOwn, sameQuestion⟩ := mem_of_lastOf own
            have isSame := ownSubmissions_eq constraints inOwn sameOwn
              (isKey.2.trans (beq_iff_eq.mp sameQuestion).symm)
            rw [isSame]

/-- The grid has a row for every sitting.  The row of one that is alone on its
assessment is a function of the sitting's own rows, and agrees with the list of
submissions.  Otherwise the signals are the sitting's own exactly when the
address has caused none on another invite, and a cell shows its own submission
exactly when no other one has replaced it. -/
theorem grid_row_local {deployment : Deployment} {trace : List Served}
    (run : Run deployment trace db) (created : CreatedAt)
    (stored : attempt ∈ db.gridAttempts assessmentId) :
    db.attemptRow created assessmentId attempt ∈
      db.assessmentAttemptRows created assessmentId ∧
    (Alone db assessmentId attempt →
      (∀ other, Alone other assessmentId attempt →
        SameSitting db other assessmentId attempt →
          db.attemptRow created assessmentId attempt =
            other.attemptRow created assessmentId attempt) ∧
      (db.monitored attempt.inviteId = true →
        ∀ sub ∈ db.ownSubmissions attempt,
          db.integrityOf sub =
            ((db.attemptRow created assessmentId attempt).integritySignals,
              (db.attemptRow created assessmentId attempt).integrityBlocked,
              (db.attemptRow created assessmentId attempt).integrityRisk))) ∧
    (db.monitored attempt.inviteId = true →
      ((db.attemptRow created assessmentId attempt).integritySignals =
          some (db.sittingEvents attempt.inviteId
            attempt.candidateEmail).length ↔
        db.foreignEvents assessmentId attempt = [])) ∧
    ∀ cell ∈ (db.attemptRow created assessmentId attempt).questions,
      ∀ questionId ∈ named cell.questionId,
        cell.submissionId =
            (lastOf (db.ownSubmissions attempt)
              (·.questionId == questionId)).map Submission.id ↔
          ∀ sub ∈ lastOf (db.gridSubmissions assessmentId)
              (isPair attempt.candidateEmail questionId),
            sub.inviteId = some attempt.inviteId := by
  have isOf := (mem_gridAttempts.mp stored).2
  refine ⟨List.mem_map_of_mem stored, ?_, integritySignals_iff isOf, ?_⟩
  · intro alone
    constructor
    · intro other alone' same
      exact same.attemptRow alone alone'
    · intro isMonitored sub isOf
      exact alone.integrityOf isMonitored isOf
  · intro cell member questionId isQuestion
    obtain ⟨slot, _, rfl⟩ := List.mem_map.mp member
    have shown : (slotCell (db.gridSubmissions assessmentId) db.results
        attempt.candidateEmail (db.slotQuestionId attempt slot)
        slot.variantSetId (db.slotLabel (db.slotsOf assessmentId) attempt slot)
        (db.slotTitle slot)).submissionId =
          (lastOf (db.gridSubmissions assessmentId)
            (isPair attempt.candidateEmail questionId)).map Submission.id := by
      simp only [slotCell] at isQuestion ⊢
      rw [Option.mem_def.mp isQuestion, Option.bind_some]
    rw [shown]
    exact submissionId_iff run.constraints isOf questionId

open Scenario in
/-- The candidate is invited to a proctored assessment twice, sits it behind
the first invite, and pastes behind the second. -/
def invitedTwice : List Asked :=
  [registers, createsQuestion 'b' "qa", createsQuestion 'c' "qb",
    asks 0 'd' (.createAssessment { assessmentIn with proctored := true }),
    invites,
    asks 1 'h'
      (.createAssessmentInvite "ab" ⟨["c@x"], candidate_invited, none⟩),
    starts,
    behind "h" 3 'i'
      (.events ⟨"c@x", none, [⟨"paste_external", 0, none, some 5, true⟩]⟩)]

open Scenario in
/-- The paste is shown as a signal of the sitting that had none. -/
theorem grid_row_local_twice :
    ∃ attempt ∈ (play invitedTwice).2.attempts,
      ((play invitedTwice).2.sittingEvents attempt.inviteId
          attempt.candidateEmail).length = 0 ∧
        ((play invitedTwice).2.attemptRow ⟨fun _ => 0, fun _ => 0⟩ "ab"
          attempt).integritySignals ≠ some 0 := by
  have sitting : ∃ attempt ∈ (play invitedTwice).2.attempts,
      ((play invitedTwice).2.sittingEvents attempt.inviteId
          attempt.candidateEmail).length = 0 ∧
        attempt ∈ (play invitedTwice).2.gridAttempts "ab" ∧
        (play invitedTwice).2.monitored attempt.inviteId = true ∧
        (play invitedTwice).2.foreignEvents "ab" attempt ≠ [] := by decide
  obtain ⟨attempt, member, none', inGrid, isMonitored, foreign⟩ := sitting
  have counted := (grid_row_local (run_play invitedTwice)
    ⟨fun _ => 0, fun _ => 0⟩ inGrid).2.2.1 isMonitored
  rw [none'] at counted
  exact ⟨attempt, member, none', fun shown => foreign (counted.mp shown)⟩

end AssessmentPlatform
