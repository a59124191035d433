import AssessmentPlatform.Records.Session

/-!
# The question library: questions, variant sets and assessments

The routes that author, edit and delete what an organisation assesses with.
Columns that no modelled route reads, such as prompts, the archive flags and the
test cases' contents, are left out.
-/

namespace AssessmentPlatform

open Rows

variable (deployment : Deployment) (around : Surroundings) (db : Database)

/-! ## Request bodies -/

/-- `_QuestionFields`, of the fields kept here; of the test cases, their
categories. -/
structure QuestionFields where
  title : String
  durationMinutes : Option Int
  testCases : List String
  deriving DecidableEq, Repr

/-- `QuestionCreate` -/
structure QuestionCreate extends QuestionFields where
  id : Option String
  deriving DecidableEq, Repr

/-- `VariantCreate` -/
structure VariantCreate extends QuestionFields where
  label : Option String
  deriving DecidableEq, Repr

/-- `VariantSetCreate` -/
structure VariantSetCreate where
  id : Option String
  title : String
  variants : List VariantCreate
  variants_length : 2 ≤ variants.length ∧ variants.length ≤ 8
  deriving DecidableEq, Repr

/-- Python's `bool` of an optional string. -/
def given (value : Option String) : Bool :=
  value.any (· != "")

/-- `AssessmentSlotIn`: a fixed question or a variant set. -/
structure AssessmentSlotIn where
  questionId : Option String
  variantSetId : Option String
  exactly_one : given questionId ≠ given variantSetId
  deriving DecidableEq, Repr

/-- `AssessmentCreate` and `AssessmentUpdate`. -/
structure AssessmentIn where
  id : Option String
  title : String
  durationMinutes : Option Int
  proctored : Bool
  slots : List AssessmentSlotIn
  slots_nonempty : slots ≠ []
  deriving DecidableEq, Repr

/-! ## Ownership -/

namespace Database

/-- `_owned_question` -/
def ownedQuestion (questionId : String) (org : Membership) :
    Except HTTPException Question :=
  match fetch Question.id questionId db.questions with
  | none => throw ⟨404, s!"no question with id '{questionId}'."⟩
  | some question =>
      if question.orgId ≠ org.orgId then
        throw ⟨403, "not your organisation's question."⟩
      else return question

/-- `_owned_submission` -/
def ownedSubmission (submissionId : String) (org : Membership) :
    Except HTTPException Submission :=
  match fetch Submission.id submissionId db.submissions with
  | none => throw ⟨404, s!"no submission with id '{submissionId}'."⟩
  | some sub => do
      let _ ← db.ownedQuestion sub.questionId org
      return sub

/-- `_owned_variant_set` -/
def ownedVariantSet (setId : String) (org : Membership) :
    Except HTTPException VariantSet :=
  match fetch VariantSet.id setId db.variantSets with
  | none => throw (missing setId)
  | some set =>
      if set.orgId ≠ org.orgId then throw (missing setId) else return set
where
  missing (setId : String) : HTTPException :=
    ⟨404, s!"no variant set with id '{setId}'."⟩

/-- `_owned_assessment` -/
def ownedAssessment (assessmentId : String) (org : Membership) :
    Except HTTPException Assessment :=
  match fetch Assessment.id assessmentId db.assessments with
  | none => throw ⟨404, s!"no assessment with id '{assessmentId}'."⟩
  | some assessment =>
      if assessment.orgId ≠ org.orgId then
        throw ⟨403, "not your organisation's assessment."⟩
      else return assessment

section Reads

variable {db} {org : Membership} {id : String}

theorem ownedQuestion_eq_ok {question : Question} :
    db.ownedQuestion id org = .ok question ↔
      fetch Question.id id db.questions = some question ∧
        question.orgId = org.orgId := by
  unfold ownedQuestion
  cases fetch Question.id id db.questions with
  | none => simp
  | some found =>
      simp only [ne_eq, Refusals.ite_throw_eq_ok, not_not,
        Refusals.pure_eq_ok, Option.some.injEq]
      constructor
      · rintro ⟨owned, rfl⟩
        exact ⟨rfl, owned⟩
      · rintro ⟨rfl, owned⟩
        exact ⟨owned, rfl⟩

theorem ownedSubmission_eq_ok {sub : Submission} :
    db.ownedSubmission id org = .ok sub ↔
      fetch Submission.id id db.submissions = some sub ∧
        ∃ question, fetch Question.id sub.questionId db.questions =
          some question ∧ question.orgId = org.orgId := by
  unfold ownedSubmission
  cases fetch Submission.id id db.submissions with
  | none => simp
  | some found =>
      simp only [Refusals.bind_eq_ok, ownedQuestion_eq_ok,
        Refusals.pure_eq_ok, Option.some.injEq]
      constructor
      · rintro ⟨question, owned, rfl⟩
        exact ⟨rfl, question, owned⟩
      · rintro ⟨rfl, question, owned⟩
        exact ⟨question, owned, rfl⟩

theorem ownedVariantSet_eq_ok {set : VariantSet} :
    db.ownedVariantSet id org = .ok set ↔
      fetch VariantSet.id id db.variantSets = some set ∧
        set.orgId = org.orgId := by
  unfold ownedVariantSet
  cases fetch VariantSet.id id db.variantSets with
  | none => simp
  | some found =>
      simp only [ne_eq, Refusals.ite_throw_eq_ok, not_not,
        Refusals.pure_eq_ok, Option.some.injEq]
      constructor
      · rintro ⟨owned, rfl⟩
        exact ⟨rfl, owned⟩
      · rintro ⟨rfl, owned⟩
        exact ⟨owned, rfl⟩

theorem ownedAssessment_eq_ok {assessment : Assessment} :
    db.ownedAssessment id org = .ok assessment ↔
      fetch Assessment.id id db.assessments = some assessment ∧
        assessment.orgId = org.orgId := by
  unfold ownedAssessment
  cases fetch Assessment.id id db.assessments with
  | none => simp
  | some found =>
      simp only [ne_eq, Refusals.ite_throw_eq_ok, not_not,
        Refusals.pure_eq_ok, Option.some.injEq]
      constructor
      · rintro ⟨owned, rfl⟩
        exact ⟨rfl, owned⟩
      · rintro ⟨rfl, owned⟩
        exact ⟨owned, rfl⟩

end Reads

end Database

/-! ## Questions -/

/-- `MIN_CORRECTNESS_CASES` -/
def minCorrectnessCases : Nat := 4

/-- `case_floor_violations` -/
def caseFloorViolations (categories : List String) : List String :=
  let correctness := categories.count "correctness"
  (if "performance" ∈ categories then []
    else ["needs at least one 'performance' test case"]) ++
  (if correctness < minCorrectnessCases then
    [s!"needs at least {minCorrectnessCases} 'correctness' test cases " ++
      s!"(has {correctness})"]
    else [])

/-- `_enforce_case_floor` -/
def enforceCaseFloor (testCases : List String) : Except HTTPException Unit :=
  let problems := caseFloorViolations testCases
  if problems ≠ [] then
    throw ⟨422, "question " ++ "; ".intercalate problems ++ "."⟩
  else return ()

/-- Rows for the test cases of a question, under fresh keys. -/
def testCaseRows (questionId : String) (first count : Nat) :
    List QuestionTestCase :=
  (List.range count).map fun index => ⟨first + index, questionId⟩

/-- `session.add` of a question with its test cases. -/
def addQuestion (db : Database) (question : Question) (testCases : Nat) :
    Database :=
  { db with
    questions := db.questions ++ [question]
    testCases :=
      db.testCases ++ testCaseRows question.id db.nextId testCases
    nextId := db.nextId + testCases }

/-- Whether a question has a given id. -/
def questionExists (id : String) : Bool :=
  (fetch Question.id id db.questions).isSome

/-- The id of a new question: the one that was sent, or a generated one. -/
def newQuestionId (body : QuestionCreate) : Except HTTPException String :=
  let explicitId := deployment.auth.strip (body.id.getD "")
  if explicitId ≠ "" then
    if questionExists db explicitId then
      throw ⟨409, s!"question '{explicitId}' already exists."⟩
    else return explicitId
  else
    return generateId deployment.auth around body.title 0 (questionExists db)

/-- `create_question` -/
def createQuestion (caller : Nat) (body : QuestionCreate) :
    Except HTTPException Database := do
  let current ← db.currentInterviewer caller
  let org ← db.currentMembership caller
  let id ← newQuestionId deployment around db body
  enforceCaseFloor body.testCases
  let question : Question :=
    { id := id
      ownerId := some current.id
      orgId := org.orgId
      title := body.title
      variantSetId := none
      variantLabel := none
      durationMinutes := body.durationMinutes }
  (addQuestion db question body.testCases.length).execute

/-- `update_question` -/
def updateQuestion (caller : Nat) (questionId : String)
    (body : QuestionFields) : Except HTTPException Database := do
  let org ← db.currentMembership caller
  let question ← db.ownedQuestion questionId org
  enforceCaseFloor body.testCases
  Database.execute { db with
    questions :=
      save Question.id
        { question with
          title := body.title
          durationMinutes := body.durationMinutes }
        db.questions
    testCases :=
      deleteWhere (fun row => row.questionId == questionId) db.testCases ++
        testCaseRows questionId db.nextId body.testCases.length
    nextId := db.nextId + body.testCases.length }

/-- `archive_question` and `unarchive_question`, whose column is left out. -/
def archiveQuestion (caller : Nat) (questionId : String) :
    Except HTTPException Database := do
  let org ← db.currentMembership caller
  let _ ← db.ownedQuestion questionId org
  return db

/-- `delete_question` -/
def deleteQuestion (caller : Nat) (questionId : String) :
    Except HTTPException Database := do
  let org ← db.currentMembership caller
  let _ ← db.ownedQuestion questionId org
  let submissionCount :=
    (db.submissions.filter fun row => row.questionId == questionId).length
  if submissionCount ≠ 0 then
    throw ⟨409, s!"cannot delete question '{questionId}': " ++
      s!"{submissionCount} submission(s) are recorded against it. " ++
      "Revoke its invites instead."⟩
  let slotAssessments :=
    (db.slots.filter fun row => row.questionId == some questionId).map
      AssessmentQuestion.assessmentId
  if slotAssessments ≠ [] then
    let named := ", ".intercalate (sortedNames slotAssessments)
    throw ⟨409, s!"cannot delete question '{questionId}': it is a slot in " ++
      s!"assessment(s) {named}. Remove it from the assessment first."⟩
  let assigned :=
    (db.slotVariants.filter fun row => row.questionId == questionId).length
  if assigned ≠ 0 then
    throw ⟨409, s!"cannot delete question '{questionId}': it is a variant " ++
      s!"already assigned to {assigned} candidate sitting(s)."⟩
  let inviteIds :=
    (db.invites.filter fun row => row.questionId == some questionId).map
      Invite.id
  let activity :=
    (db.attempts.filter fun row => inviteIds.contains row.inviteId).length +
      (db.events.filter fun row =>
        inviteIds.contains row.inviteId ||
          row.questionId == some questionId).length
  if activity ≠ 0 then
    throw ⟨409, s!"cannot delete question '{questionId}': candidate " ++
      "activity is recorded against it. Revoke its invites instead."⟩
  Database.execute { db with
    drafts := deleteWhere (fun row => row.questionId == questionId) db.drafts
    testCases :=
      deleteWhere (fun row => row.questionId == questionId) db.testCases
    invites :=
      deleteWhere (fun row => row.questionId == some questionId) db.invites
    questions := deleteWhere (fun row => row.id == questionId) db.questions }
where
  /-- `sorted(set(ids))` -/
  sortedNames (ids : List String) : List String :=
    ids.dedup.insertionSort fun first second => first ≤ second

/-! ## Variant sets -/

/-- `v.label or (_VARIANT_LABELS[i] if i < len(_VARIANT_LABELS) else …)` -/
def variantLabel (label : Option String) (index : Nat) : String :=
  let letter :=
    match "ABCDEFGH".toList[index]? with
    | some char => String.singleton char
    | none => toString (index + 1)
  if given label then label.getD letter else letter

/-- The loop of `create_variant_set`: one question for each variant. -/
def addVariants (set : VariantSet) :
    Nat → List VariantCreate → Database → Except HTTPException Database
  | _, [], db => return db
  | index, variant :: rest, db => do
      enforceCaseFloor variant.testCases
      let title := if variant.title = "" then "variant" else variant.title
      let id :=
        generateId deployment.auth around title (index + 1) (questionExists db)
      let question : Question :=
        { id := id
          ownerId := set.ownerId
          orgId := set.orgId
          title := variant.title
          variantSetId := some set.id
          variantLabel := some (variantLabel variant.label index)
          durationMinutes := variant.durationMinutes }
      addVariants set (index + 1) rest
        (addQuestion db question variant.testCases.length)

/-- Whether a variant set has a given id. -/
def variantSetExists (id : String) : Bool :=
  (fetch VariantSet.id id db.variantSets).isSome

/-- `create_variant_set` -/
def createVariantSet (caller : Nat) (body : VariantSetCreate) :
    Except HTTPException Database := do
  let current ← db.currentInterviewer caller
  let org ← db.currentMembership caller
  let explicitId := deployment.auth.strip (body.id.getD "")
  let setId :=
    if explicitId ≠ "" then explicitId
    else generateId deployment.auth around body.title 0 (variantSetExists db)
  if variantSetExists db setId then
    throw ⟨409, s!"variant set '{setId}' already exists."⟩
  let set : VariantSet := ⟨setId, some current.id, org.orgId, body.title⟩
  let added ← addVariants deployment around set 0 body.variants
    { db with variantSets := db.variantSets ++ [set] }
  added.execute

/-! ## Assessments -/

/-- The identity of a slot: its fixed question or its variant set. -/
abbrev SlotSignature := Option String × Option String

/-- The identity of a stored slot. -/
def AssessmentQuestion.signature (slot : AssessmentQuestion) :
    SlotSignature :=
  (slot.questionId, slot.variantSetId)

/-- The identity of a requested slot. -/
def AssessmentSlotIn.signature (slot : AssessmentSlotIn) : SlotSignature :=
  (slot.questionId, slot.variantSetId)

/-- The checks of `_membership_rows` on one slot, and the row it becomes. -/
def membershipRow (org : Membership) (assessmentId : String)
    (slot : AssessmentSlotIn) (index : Nat) :
    Except HTTPException AssessmentQuestion :=
  match slot.questionId with
  | some questionId => do
      let _ ← db.ownedQuestion questionId org
      return ⟨db.nextId + index, assessmentId, some questionId, none, index⟩
  | none => do
      let setId := slot.variantSetId.getD ""
      let _ ← db.ownedVariantSet setId org
      return ⟨db.nextId + index, assessmentId, none, some setId, index⟩

/-- `_membership_rows` -/
def membershipRows (org : Membership) (assessmentId : String)
    (slots : List AssessmentSlotIn) :
    Except HTTPException (List AssessmentQuestion) := do
  if ¬(slots.filterMap AssessmentSlotIn.questionId).Nodup then
    throw ⟨400, "a question may appear at most once."⟩
  if ¬(slots.filterMap AssessmentSlotIn.variantSetId).Nodup then
    throw ⟨400, "a variant set may appear at most once."⟩
  slots.zipIdx.mapM fun (slot, index) =>
    membershipRow db org assessmentId slot index

/-- Whether an assessment has a given id. -/
def assessmentExists (id : String) : Bool :=
  (fetch Assessment.id id db.assessments).isSome

/-- The id of a new assessment: the one that was sent, or a generated one. -/
def newAssessmentId (body : AssessmentIn) : Except HTTPException String :=
  let explicitId := deployment.auth.strip (body.id.getD "")
  if explicitId ≠ "" then
    if assessmentExists db explicitId then
      throw ⟨409, s!"assessment '{explicitId}' already exists."⟩
    else return explicitId
  else
    return generateId deployment.auth around body.title 0 (assessmentExists db)

/-- `create_assessment` -/
def createAssessment (caller : Nat) (body : AssessmentIn) :
    Except HTTPException Database := do
  let current ← db.currentInterviewer caller
  let org ← db.currentMembership caller
  let organization ← db.organization org.orgId
  let id ← newAssessmentId deployment around db body
  let slots ← membershipRows db org id body.slots
  let assessment : Assessment :=
    { id := id
      ownerId := some current.id
      orgId := org.orgId
      title := body.title
      durationMinutes := body.durationMinutes
      logoSha := organization.logoSha
      proctored := body.proctored }
  Database.execute { db with
    assessments := db.assessments ++ [assessment]
    slots := db.slots ++ slots
    nextId := db.nextId + slots.length }

/-- `_assessment_has_invite` -/
def assessmentHasInvite (assessmentId : String) : Bool :=
  db.invites.any fun row => row.assessmentId == some assessmentId

/-- `update_assessment` -/
def updateAssessment (caller : Nat) (assessmentId : String)
    (body : AssessmentIn) : Except HTTPException Database := do
  let org ← db.currentMembership caller
  let assessment ← db.ownedAssessment assessmentId org
  let changed :=
    body.slots.map AssessmentSlotIn.signature ≠
      (db.slotsOf assessmentId).map AssessmentQuestion.signature
  if changed ∧ assessmentHasInvite db assessmentId then
    throw ⟨409, "this assessment's question set can't change: it has " ++
      "already been sent as an invite. Create a new assessment instead."⟩
  let edited :=
    { db with
      assessments :=
        save Assessment.id
          { assessment with
            title := body.title
            durationMinutes := body.durationMinutes
            proctored := body.proctored }
          db.assessments }
  if changed then
    let cleared ← Database.execute { edited with
      slots := deleteWhere (fun row => row.assessmentId == assessmentId)
        edited.slots }
    let slots ← membershipRows cleared org assessmentId body.slots
    Database.execute { cleared with
      slots := cleared.slots ++ slots
      nextId := cleared.nextId + slots.length }
  else edited.execute

/-- `archive_assessment` and `unarchive_assessment`, whose column is left
out. -/
def archiveAssessment (caller : Nat) (assessmentId : String) :
    Except HTTPException Database := do
  let org ← db.currentMembership caller
  let _ ← db.ownedAssessment assessmentId org
  return db

/-- `delete_assessment` -/
def deleteAssessment (caller : Nat) (assessmentId : String) :
    Except HTTPException Database := do
  let org ← db.currentMembership caller
  let _ ← db.ownedAssessment assessmentId org
  let inviteCount :=
    (db.invites.filter fun row =>
      row.assessmentId == some assessmentId).length
  if inviteCount ≠ 0 then
    throw ⟨409, s!"cannot delete assessment '{assessmentId}': {inviteCount} " ++
      "invite(s) point at it. Archive it instead."⟩
  Database.execute { db with
    slots := deleteWhere (fun row => row.assessmentId == assessmentId) db.slots
    assessments :=
      deleteWhere (fun row => row.id == assessmentId) db.assessments }

end AssessmentPlatform
