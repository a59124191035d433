import AssessmentPlatform.Records.Ids

/-!
# References stay within one organisation

The schema only says that a reference names a row; that the row is one of the
same organisation is what the guards of the routes keep.
-/

namespace AssessmentPlatform

open Rows

variable {deployment : Deployment} {served : Served} {scope : Option Nat}
variable {db after left base : Database} {orgId : Nat} {id : String}

/-! ## The invariant -/

/-- What an invite is for belongs to an organisation. -/
def BelongsTo (db : Database) (invite : Invite) (orgId : Nat) : Prop :=
  (∀ question ∈ db.questions,
    invite.questionId = some question.id → question.orgId = orgId) ∧
  ∀ assessment ∈ db.assessments,
    invite.assessmentId = some assessment.id → assessment.orgId = orgId

/-- The references of some rows stay within one organisation of a database. -/
structure TenancyOf (rows db : Database) : Prop where
  questionNamed : ∀ question ∈ rows.questions, question.id ≠ ""
  questionSet : ∀ question ∈ rows.questions, ∀ set ∈ db.variantSets,
    question.variantSetId = some set.id → question.orgId = set.orgId
  slotOne : ∀ slot ∈ rows.slots,
    slot.questionId.isSome = slot.variantSetId.isNone
  slotQuestion : ∀ slot ∈ rows.slots, ∀ assessment ∈ db.assessments,
    slot.assessmentId = assessment.id → ∀ question ∈ db.questions,
      slot.questionId = some question.id → question.orgId = assessment.orgId
  slotSet : ∀ slot ∈ rows.slots, ∀ assessment ∈ db.assessments,
    slot.assessmentId = assessment.id → ∀ set ∈ db.variantSets,
      slot.variantSetId = some set.id → set.orgId = assessment.orgId
  inviteOne : ∀ invite ∈ rows.invites,
    invite.questionId.isSome = invite.assessmentId.isNone
  inviteSet : ∀ invite ∈ rows.invites, ∀ set ∈ db.variantSets,
    invite.variantSetId = some set.id → invite.questionId.isSome ∧
      BelongsTo db invite set.orgId
  drawSlot : ∀ row ∈ rows.slotVariants, ∀ invite ∈ db.invites,
    invite.id = row.inviteId → ∀ slot ∈ db.slots,
      slot.id = row.assessmentQuestionId →
        invite.assessmentId = some slot.assessmentId
  drawVariant : ∀ row ∈ rows.slotVariants, ∀ slot ∈ db.slots,
    slot.id = row.assessmentQuestionId → ∀ question ∈ db.questions,
      question.id = row.questionId →
        slot.variantSetId.isSome ∧ question.variantSetId = slot.variantSetId
  draft : ∀ draft ∈ rows.drafts, ∀ invite ∈ db.invites,
    invite.id = draft.inviteId → ∀ question ∈ db.questions,
      question.id = draft.questionId → BelongsTo db invite question.orgId
  submission : ∀ row ∈ rows.submissions, ∀ invite ∈ db.invites,
    row.inviteId = some invite.id → ∀ question ∈ db.questions,
      question.id = row.questionId → BelongsTo db invite question.orgId
  feedback : ∀ row ∈ rows.feedback, ∀ attempt ∈ db.attempts,
    attempt.id = row.attemptId → ∀ invite ∈ db.invites,
      invite.id = attempt.inviteId → BelongsTo db invite row.orgId

/-- References between rows stay within one organisation. -/
abbrev Tenancy (db : Database) : Prop :=
  TenancyOf db db

/-! ## Changes that only lose rows -/

/-- The columns of a question that references go through. -/
def Question.identity (row : Question) : String × Nat × Option String :=
  (row.id, row.orgId, row.variantSetId)

/-- The columns of an invite that references go through. -/
def Invite.identity (row : Invite) :
    Nat × Option String × Option String × Option String :=
  (row.id, row.questionId, row.assessmentId, row.variantSetId)

/-- No references are added between two states. -/
structure Derives (db after : Database) : Prop where
  question : Derived Question.identity db.questions after.questions
  set : Derived (fun row => (row.id, row.orgId)) db.variantSets
    after.variantSets
  assessment : Derived (fun row => (row.id, row.orgId)) db.assessments
    after.assessments
  slot : Derived (fun row => row) db.slots after.slots
  invite : Derived Invite.identity db.invites after.invites
  attempt : Derived (fun row => (row.id, row.inviteId)) db.attempts
    after.attempts
  slotVariant : Derived
    (fun row => (row.inviteId, row.assessmentQuestionId, row.questionId))
    db.slotVariants after.slotVariants
  draft : Derived (fun row => (row.inviteId, row.questionId)) db.drafts
    after.drafts
  submission : Derived (fun row => (row.inviteId, row.questionId))
    db.submissions after.submissions
  feedback : Derived (fun row => (row.orgId, row.attemptId)) db.feedback
    after.feedback

theorem Derives.refl (db : Database) : Derives db db where
  question := .refl _
  set := .refl _
  assessment := .refl _
  slot := .refl _
  invite := .refl _
  attempt := .refl _
  slotVariant := .refl _
  draft := .refl _
  submission := .refl _
  feedback := .refl _

theorem Derives.trans {middle : Database} (first : Derives db middle)
    (second : Derives middle after) : Derives db after where
  question := first.question.trans second.question
  set := first.set.trans second.set
  assessment := first.assessment.trans second.assessment
  slot := first.slot.trans second.slot
  invite := first.invite.trans second.invite
  attempt := first.attempt.trans second.attempt
  slotVariant := first.slotVariant.trans second.slotVariant
  draft := first.draft.trans second.draft
  submission := first.submission.trans second.submission
  feedback := first.feedback.trans second.feedback

theorem BelongsTo.derived (derives : Derives db after) {was invite : Invite}
    (belongs : BelongsTo db was orgId)
    (same : was.identity = invite.identity) :
    BelongsTo after invite orgId := by
  simp only [Invite.identity, Prod.mk.injEq] at same
  obtain ⟨_, sameQuestion, sameAssessment, _⟩ := same
  constructor
  · intro question member isQuestion
    obtain ⟨old, isOld, kept⟩ := derives.question question member
    simp only [Question.identity, Prod.mk.injEq] at kept
    rw [← kept.2.1]
    exact belongs.1 old isOld (by rw [sameQuestion, isQuestion, kept.1])
  · intro assessment member isAssessment
    obtain ⟨old, isOld, kept⟩ := derives.assessment assessment member
    simp only [Prod.mk.injEq] at kept
    rw [← kept.2]
    exact belongs.2 old isOld
      (by rw [sameAssessment, isAssessment, kept.1])

theorem Tenancy.derived (tenancy : Tenancy db) (derives : Derives db after) :
    Tenancy after where
  questionNamed := by
    intro question isQuestion
    obtain ⟨old, isOld, kept⟩ := derives.question question isQuestion
    simp only [Question.identity, Prod.mk.injEq] at kept
    rw [← kept.1]
    exact tenancy.questionNamed old isOld
  questionSet := by
    intro question isQuestion set isSet named
    obtain ⟨oldQuestion, isOld, kept⟩ := derives.question question isQuestion
    obtain ⟨oldSet, isOldSet, keptSet⟩ := derives.set set isSet
    simp only [Question.identity, Prod.mk.injEq] at kept keptSet
    rw [← kept.2.1, ← keptSet.2]
    exact tenancy.questionSet oldQuestion isOld oldSet isOldSet
      (by rw [kept.2.2, named, keptSet.1])
  slotOne := by
    intro slot isSlot
    obtain ⟨old, isOld, rfl⟩ := derives.slot slot isSlot
    exact tenancy.slotOne old isOld
  slotQuestion := by
    intro slot isSlot assessment isAssessment here question isQuestion named
    obtain ⟨old, isOld, rfl⟩ := derives.slot slot isSlot
    obtain ⟨oldAssessment, isOldAssessment, keptAssessment⟩ :=
      derives.assessment assessment isAssessment
    obtain ⟨oldQuestion, isOldQuestion, kept⟩ :=
      derives.question question isQuestion
    simp only [Question.identity, Prod.mk.injEq] at kept keptAssessment
    rw [← kept.2.1, ← keptAssessment.2]
    exact tenancy.slotQuestion old isOld oldAssessment isOldAssessment
      (by rw [here, keptAssessment.1]) oldQuestion isOldQuestion
      (by rw [named, kept.1])
  slotSet := by
    intro slot isSlot assessment isAssessment here set isSet named
    obtain ⟨old, isOld, rfl⟩ := derives.slot slot isSlot
    obtain ⟨oldAssessment, isOldAssessment, keptAssessment⟩ :=
      derives.assessment assessment isAssessment
    obtain ⟨oldSet, isOldSet, kept⟩ := derives.set set isSet
    simp only [Prod.mk.injEq] at kept keptAssessment
    rw [← kept.2, ← keptAssessment.2]
    exact tenancy.slotSet old isOld oldAssessment isOldAssessment
      (by rw [here, keptAssessment.1]) oldSet isOldSet (by rw [named, kept.1])
  inviteOne := by
    intro invite isInvite
    obtain ⟨old, isOld, same⟩ := derives.invite invite isInvite
    simp only [Invite.identity, Prod.mk.injEq] at same
    rw [← same.2.1, ← same.2.2.1]
    exact tenancy.inviteOne old isOld
  inviteSet := by
    intro invite isInvite set isSet named
    obtain ⟨old, isOld, same⟩ := derives.invite invite isInvite
    obtain ⟨oldSet, isOldSet, kept⟩ := derives.set set isSet
    have columns := same
    simp only [Invite.identity, Prod.mk.injEq] at columns kept
    obtain ⟨isSingle, belongs⟩ := tenancy.inviteSet old isOld oldSet isOldSet
      (by rw [columns.2.2.2, named, kept.1])
    rw [columns.2.1] at isSingle
    rw [← kept.2]
    exact ⟨isSingle, belongs.derived derives same⟩
  drawSlot := by
    intro row isRow invite isInvite here slot isSlot there
    obtain ⟨oldRow, isOldRow, keptRow⟩ := derives.slotVariant row isRow
    obtain ⟨old, isOld, same⟩ := derives.invite invite isInvite
    obtain ⟨oldSlot, isOldSlot, rfl⟩ := derives.slot slot isSlot
    simp only [Invite.identity, Prod.mk.injEq] at same keptRow
    rw [← same.2.2.1]
    exact tenancy.drawSlot oldRow isOldRow old isOld
      (by rw [same.1, here, keptRow.1]) oldSlot isOldSlot
      (by rw [there, keptRow.2.1])
  drawVariant := by
    intro row isRow slot isSlot there question isQuestion named
    obtain ⟨oldRow, isOldRow, keptRow⟩ := derives.slotVariant row isRow
    obtain ⟨oldSlot, isOldSlot, rfl⟩ := derives.slot slot isSlot
    obtain ⟨oldQuestion, isOldQuestion, kept⟩ :=
      derives.question question isQuestion
    simp only [Question.identity, Prod.mk.injEq] at kept keptRow
    rw [← kept.2.2]
    exact tenancy.drawVariant oldRow isOldRow oldSlot isOldSlot
      (by rw [there, keptRow.2.1]) oldQuestion isOldQuestion
      (by rw [kept.1, named, keptRow.2.2])
  draft := by
    intro row isRow invite isInvite here question isQuestion named
    obtain ⟨oldRow, isOldRow, keptRow⟩ := derives.draft row isRow
    obtain ⟨old, isOld, same⟩ := derives.invite invite isInvite
    obtain ⟨oldQuestion, isOldQuestion, kept⟩ :=
      derives.question question isQuestion
    have columns := same
    simp only [Question.identity, Invite.identity,
      Prod.mk.injEq] at kept columns keptRow
    rw [← kept.2.1]
    exact (tenancy.draft oldRow isOldRow old isOld
      (by rw [columns.1, here, keptRow.1]) oldQuestion isOldQuestion
      (by rw [kept.1, named, keptRow.2])).derived derives same
  submission := by
    intro row isRow invite isInvite here question isQuestion named
    obtain ⟨oldRow, isOldRow, keptRow⟩ := derives.submission row isRow
    obtain ⟨old, isOld, same⟩ := derives.invite invite isInvite
    obtain ⟨oldQuestion, isOldQuestion, kept⟩ :=
      derives.question question isQuestion
    have columns := same
    simp only [Question.identity, Invite.identity,
      Prod.mk.injEq] at kept columns keptRow
    rw [← kept.2.1]
    exact (tenancy.submission oldRow isOldRow old isOld
      (by rw [keptRow.1, here, columns.1]) oldQuestion isOldQuestion
      (by rw [kept.1, named, keptRow.2])).derived derives same
  feedback := by
    intro row isRow attempt isAttempt here invite isInvite there
    obtain ⟨oldRow, isOldRow, keptRow⟩ := derives.feedback row isRow
    obtain ⟨oldAttempt, isOldAttempt, kept⟩ :=
      derives.attempt attempt isAttempt
    obtain ⟨old, isOld, same⟩ := derives.invite invite isInvite
    have columns := same
    simp only [Invite.identity, Prod.mk.injEq] at kept columns keptRow
    rw [← keptRow.1]
    exact (tenancy.feedback oldRow isOldRow oldAttempt isOldAttempt
      (by rw [kept.1, here, keptRow.2]) old isOld
      (by rw [columns.1, there, kept.2])).derived derives same

/-! ## Changes that add rows -/

/-- Rows that were there, or have keys that no row had. -/
def OldOrNew {Row Key : Type} (key : Row → Key) (old new : List Row) : Prop :=
  ∀ row ∈ new, row ∈ old ∨ ∀ was ∈ old, key was ≠ key row

theorem OldOrNew.refl {Row Key : Type} {key : Row → Key} (rows : List Row) :
    OldOrNew key rows rows :=
  fun _ member => Or.inl member

theorem OldOrNew.append {Row Key : Type} {key : Row → Key}
    {rows added : List Row} (keyed : Keyed key (rows ++ added)) :
    OldOrNew key rows (rows ++ added) := by
  intro row member
  rcases List.mem_append.mp member with old | new
  · exact Or.inl old
  · exact Or.inr fun was isWas => keyed.ne_of_append isWas new

theorem OldOrNew.old {Row Target Key : Type} {key : Target → Key}
    {column : Row → Option Key} {rows : List Row} {old new : List Target}
    {row : Row} {target : Target} (extended : OldOrNew key old new)
    (refers : Refers column rows key old) (member : row ∈ rows)
    (isTarget : target ∈ new) (named : column row = some (key target)) :
    target ∈ old := by
  rcases extended target isTarget with isOld | fresh
  · exact isOld
  · obtain ⟨was, isWas, same⟩ := refers row member _ named
    exact absurd same (fresh was isWas)

/-- Whatever an old row may refer to is old. -/
structure Extends (db after : Database) : Prop where
  question : OldOrNew Question.id db.questions after.questions
  set : OldOrNew VariantSet.id db.variantSets after.variantSets
  assessment : OldOrNew Assessment.id db.assessments after.assessments
  slot : OldOrNew AssessmentQuestion.id db.slots after.slots
  invite : OldOrNew Invite.id db.invites after.invites
  attempt : OldOrNew CandidateAttempt.id db.attempts after.attempts

theorem Extends.refl (db : Database) : Extends db db where
  question := .refl _
  set := .refl _
  assessment := .refl _
  slot := .refl _
  invite := .refl _
  attempt := .refl _

theorem BelongsTo.extended (extends' : Extends db after)
    (keys : db.ForeignKeys) {invite : Invite} (isInvite : invite ∈ db.invites)
    (belongs : BelongsTo db invite orgId) : BelongsTo after invite orgId := by
  constructor
  · intro question member isQuestion
    apply belongs.1 question _ isQuestion
    exact extends'.question.old keys.inviteQuestion isInvite member isQuestion
  · intro assessment member isAssessment
    apply belongs.2 assessment _ isAssessment
    exact extends'.assessment.old keys.inviteAssessment isInvite member
      isAssessment

/-- The old references stay within their organisations. -/
theorem TenancyOf.extended (tenancy : Tenancy db)
    (extends' : Extends db after) (keys : db.ForeignKeys) :
    TenancyOf db after where
  questionNamed := tenancy.questionNamed
  questionSet question isQuestion set isSet named :=
    tenancy.questionSet question isQuestion set
      (extends'.set.old keys.questionSet isQuestion isSet named) named
  slotOne := tenancy.slotOne
  slotQuestion slot isSlot assessment isAssessment here question isQuestion
      named :=
    tenancy.slotQuestion slot isSlot assessment
      (extends'.assessment.old keys.slotAssessment isSlot isAssessment
        (congrArg some here)) here question
      (extends'.question.old keys.slotQuestion isSlot isQuestion named) named
  slotSet slot isSlot assessment isAssessment here set isSet named :=
    tenancy.slotSet slot isSlot assessment
      (extends'.assessment.old keys.slotAssessment isSlot isAssessment
        (congrArg some here)) here set
      (extends'.set.old keys.slotSet isSlot isSet named) named
  inviteOne := tenancy.inviteOne
  inviteSet invite isInvite set isSet named := by
    obtain ⟨isSingle, belongs⟩ := tenancy.inviteSet invite isInvite set
      (extends'.set.old keys.inviteSet isInvite isSet named) named
    exact ⟨isSingle, belongs.extended extends' keys isInvite⟩
  drawSlot row isRow invite isInvite here slot isSlot there :=
    tenancy.drawSlot row isRow invite
      (extends'.invite.old keys.slotVariantInvite isRow isInvite
        (congrArg some here.symm)) here slot
      (extends'.slot.old keys.slotVariantSlot isRow isSlot
        (congrArg some there.symm)) there
  drawVariant row isRow slot isSlot there question isQuestion named :=
    tenancy.drawVariant row isRow slot
      (extends'.slot.old keys.slotVariantSlot isRow isSlot
        (congrArg some there.symm)) there question
      (extends'.question.old keys.slotVariantQuestion isRow isQuestion
        (congrArg some named.symm)) named
  draft row isRow invite isInvite here question isQuestion named := by
    have wasInvite := extends'.invite.old keys.draftInvite isRow isInvite
      (congrArg some here.symm)
    have belongs := tenancy.draft row isRow invite wasInvite here question
      (extends'.question.old keys.draftQuestion isRow isQuestion
        (congrArg some named.symm)) named
    exact belongs.extended extends' keys wasInvite
  submission row isRow invite isInvite here question isQuestion named := by
    have wasInvite := extends'.invite.old keys.submissionInvite isRow isInvite
      here
    have belongs := tenancy.submission row isRow invite wasInvite here question
      (extends'.question.old keys.submissionQuestion isRow isQuestion
        (congrArg some named.symm)) named
    exact belongs.extended extends' keys wasInvite
  feedback row isRow attempt isAttempt here invite isInvite there := by
    have wasAttempt := extends'.attempt.old keys.feedbackAttempt isRow isAttempt
      (congrArg some here.symm)
    have wasInvite := extends'.invite.old keys.attemptInvite wasAttempt isInvite
      (congrArg some there.symm)
    have belongs := tenancy.feedback row isRow attempt wasAttempt here invite
      wasInvite there
    exact belongs.extended extends' keys wasInvite

theorem TenancyOf.extend (tenancy : Tenancy db) (keys : db.ForeignKeys)
    (extends' : Extends db after) (rest : TenancyOf db after → Tenancy after) :
    Tenancy after :=
  rest (TenancyOf.extended tenancy extends' keys)

/-! ## Every change -/

theorem SlotRows.questionOrg {assessmentId : String}
    {slots : List AssessmentQuestion} {slot : AssessmentQuestion}
    {question : Question} (rows : SlotRows db orgId assessmentId slots)
    (keyed : Keyed Question.id db.questions) (isSlot : slot ∈ slots)
    (isQuestion : question ∈ db.questions)
    (named : slot.questionId = some question.id) : question.orgId = orgId := by
  obtain ⟨found, isFound, same, inOrg⟩ := rows.question slot isSlot _ named
  rw [keyed.eq isQuestion isFound same.symm]
  exact inOrg

theorem SlotRows.setOrg {assessmentId : String}
    {slots : List AssessmentQuestion} {slot : AssessmentQuestion}
    {set : VariantSet} (rows : SlotRows db orgId assessmentId slots)
    (keyed : Keyed VariantSet.id db.variantSets) (isSlot : slot ∈ slots)
    (isSet : set ∈ db.variantSets)
    (named : slot.variantSetId = some set.id) : set.orgId = orgId := by
  obtain ⟨found, isFound, same, inOrg⟩ := rows.set slot isSlot _ named
  rw [keyed.eq isSet isFound same.symm]
  exact inOrg

theorem SlotRows.oldOrNew {assessmentId : String}
    {slots : List AssessmentQuestion}
    (rows : SlotRows db orgId assessmentId slots)
    (below : Below AssessmentQuestion.id db.slots db.nextId)
    {matched : AssessmentQuestion → Bool} :
    OldOrNew AssessmentQuestion.id db.slots
      (deleteWhere matched db.slots ++ slots) := by
  intro slot member
  rcases List.mem_append.mp member with isOld | isNew
  · exact Or.inl (mem_deleteWhere.mp isOld).1
  · right
    intro was isWas same
    have isKey : slot.id ∈ slots.map AssessmentQuestion.id :=
      List.mem_map_of_mem isNew
    rw [rows.id, List.mem_range'_1] at isKey
    have isBelow := below was isWas
    omega

/-- What an invite that is minted points at is of the member's
organisation. -/
theorem InviteTarget.belongs {invite : Invite}
    (target : InviteTarget db orgId invite) (tenancy : Tenancy db)
    (constraints : db.Constraints) : BelongsTo db invite orgId := by
  have unique := constraints.uniqueKeys
  cases target with
  | question question isQuestion inOrg isFor noAssessment =>
      constructor
      · intro other isOther named
        have same := Option.some.inj (named.symm.trans isFor)
        rw [unique.question.eq isOther isQuestion same]
        exact inOrg
      · intro other _ named
        rw [noAssessment] at named
        cases named
  | variant question set isQuestion isSet inOrg isVariant isFor noAssessment =>
      constructor
      · intro other isOther named
        have same := Option.some.inj (named.symm.trans isFor)
        rw [unique.question.eq isOther isQuestion same,
          tenancy.questionSet question isQuestion set isSet isVariant]
        exact inOrg
      · intro other _ named
        rw [noAssessment] at named
        cases named
  | assessment assessment isAssessment inOrg _ noQuestion isFor =>
      constructor
      · intro other _ named
        rw [noQuestion] at named
        cases named
      · intro other isOther named
        have same := Option.some.inj (named.symm.trans isFor)
        rw [unique.assessment.eq isOther isAssessment same]
        exact inOrg

theorem InviteTarget.one {invite : Invite}
    (target : InviteTarget db orgId invite) :
    invite.questionId.isSome = invite.assessmentId.isNone := by
  cases target with
  | question _ _ _ isFor noAssessment => rw [isFor, noAssessment]; rfl
  | variant _ _ _ _ _ _ isFor noAssessment => rw [isFor, noAssessment]; rfl
  | assessment _ _ _ _ noQuestion isFor => rw [noQuestion, isFor]; rfl

/-- The set that an invite records is the one its question is drawn from. -/
theorem InviteTarget.set {invite : Invite} {set : VariantSet}
    (target : InviteTarget db orgId invite)
    (keyed : Keyed VariantSet.id db.variantSets)
    (isSet : set ∈ db.variantSets)
    (named : invite.variantSetId = some set.id) :
    invite.questionId.isSome ∧ set.orgId = orgId := by
  cases target with
  | question _ _ _ _ _ noSet =>
      rw [noSet] at named
      cases named
  | variant _ found _ isFound inOrg _ isFor _ isVariant =>
      have same := Option.some.inj (named.symm.trans isVariant)
      rw [keyed.eq isSet isFound same, isFor]
      exact ⟨rfl, inOrg⟩
  | assessment _ _ _ _ _ _ noSet =>
      rw [noSet] at named
      cases named

theorem derives_purged (db : Database) (orgId : Nat) :
    Derives db (db.purged orgId) where
  question := derived_deleteWhere _
  set := derived_deleteWhere _
  assessment := derived_deleteWhere _
  slot := derived_deleteWhere _
  invite := derived_deleteWhere _
  attempt := derived_deleteWhere _
  slotVariant := derived_deleteWhere _
  draft := derived_deleteWhere _
  submission := derived_deleteWhere _
  feedback := derived_deleteWhere _

theorem Enters.derives {account : Interviewer} {gaveUp : Option Nat}
    (enters : Enters db account gaveUp base) : Derives db base := by
  cases enters with
  | newcomer => exact { Derives.refl db with }
  | seatless => exact .refl db
  | leaving _ _ gaveUp =>
      obtain ⟨rfl, _⟩ := leaveEmptyOrg_eq_ok gaveUp
      exact derives_purged db _

theorem Database.Left.derives {interviewerId : Nat}
    (leaving : Database.Left db interviewerId left) : Derives db left := by
  cases leaving with
  | seatless => exact .refl db
  | shared => exact { Derives.refl db with }
  | last => exact derives_purged db _

theorem derives_disown (db : Database) (interviewerId : Nat) :
    Derives db (db.disown interviewerId) :=
  { Derives.refl db with
    question := derived_updateWhere fun _ => rfl
    set := derived_updateWhere fun _ => rfl
    assessment := derived_updateWhere fun _ => rfl
    invite := derived_updateWhere fun _ => rfl }

theorem derives_erase (now : Time) (pseudonym email : String)
    (inviteIds : List Nat) (submissionIds : List String) (db : Database) :
    Derives db (erase now pseudonym email inviteIds submissionIds db) :=
  { Derives.refl db with
    submission := derived_updateWhere fun _ => rfl
    feedback := derived_deleteWhere _
    attempt := derived_updateWhere fun _ => rfl
    slotVariant := derived_updateWhere fun _ => rfl
    draft := derived_deleteWhere _
    invite := derived_updateWhere fun _ => rfl }

/-- The question of a slot that is drawn or fixed is of the organisation of the
slot's assessment. -/
theorem slotQuestion_org {slot : AssessmentQuestion} {assessment : Assessment}
    {question : Question} {inviteId : Nat} {email : String}
    (tenancy : Tenancy db) (keys : db.ForeignKeys) (isSlot : slot ∈ db.slots)
    (isAssessment : assessment ∈ db.assessments)
    (here : slot.assessmentId = assessment.id)
    (isQuestion : question ∈ db.questions)
    (presented : db.slotQuestion inviteId email slot = question.id) :
    question.orgId = assessment.orgId := by
  unfold Database.slotQuestion at presented
  cases isSet : slot.variantSetId with
  | none =>
      have isFixed := tenancy.slotOne slot isSlot
      rw [isSet, Option.isNone_none] at isFixed
      obtain ⟨fixed, named⟩ := Option.isSome_iff_exists.mp isFixed
      simp only [isSet, named, Option.getD_some] at presented
      exact tenancy.slotQuestion slot isSlot assessment isAssessment here
        question isQuestion (named.trans (congrArg some presented))
  | some setId =>
      simp only [isSet] at presented
      cases found : db.slotVariants.find? fun row =>
          row.inviteId == inviteId && row.candidateEmail == email &&
            row.assessmentQuestionId == slot.id with
      | none =>
          rw [found] at presented
          exact absurd presented.symm
            (tenancy.questionNamed question isQuestion)
      | some row =>
          rw [found] at presented
          have matched := List.find?_some found
          simp only [Bool.and_eq_true, beq_iff_eq] at matched
          obtain ⟨_, sameSet⟩ := tenancy.drawVariant row
            (List.mem_of_find?_eq_some found) slot isSlot matched.2.symm
            question isQuestion presented.symm
          rw [isSet] at sameSet
          obtain ⟨set, isMember, rfl⟩ :=
            keys.slotSet slot isSlot setId isSet
          rw [tenancy.questionSet question isQuestion set isMember sameSet]
          exact tenancy.slotSet slot isSlot assessment isAssessment here set
            isMember isSet

/-- What a question that an invite presents says about the invite. -/
theorem presented_belongs {invite : Invite} {email : String}
    {question : Question} (tenancy : Tenancy db) (constraints : db.Constraints)
    (isInvite : invite ∈ db.invites) (isQuestion : question ∈ db.questions)
    (presented : question.id ∈
      (db.platform deployment).inviteQuestions invite email) :
    BelongsTo db invite question.orgId := by
  unfold Platform.inviteQuestions at presented
  cases isAssessment : invite.assessmentId with
  | none =>
      simp only [isAssessment, Option.mem_toList] at presented
      constructor
      · intro other isOther named
        rw [constraints.uniqueKeys.question.eq isOther isQuestion]
        exact Option.some.inj (named.symm.trans presented)
      · intro assessment _ named
        rw [isAssessment] at named
        cases named
  | some assessmentId =>
      simp only [isAssessment, List.mem_map] at presented
      obtain ⟨slot, member, presented⟩ := presented
      obtain ⟨isSlot, sameAssessment⟩ := mem_slotsOf.mp member
      have single := tenancy.inviteOne invite isInvite
      rw [isAssessment, Option.isNone_some] at single
      constructor
      · intro other _ named
        rw [named] at single
        cases single
      · intro assessment isMember named
        rw [isAssessment] at named
        obtain rfl := Option.some.inj named
        exact (slotQuestion_org tenancy constraints.foreignKeys isSlot isMember
          sameAssessment isQuestion presented).symm

theorem inviteOrg_belongs {invite : Invite} (tenancy : Tenancy db)
    (constraints : db.Constraints) (isInvite : invite ∈ db.invites)
    (isOrg : db.inviteOrg invite = some orgId) :
    BelongsTo db invite orgId := by
  have single := tenancy.inviteOne invite isInvite
  unfold Database.inviteOrg at isOrg
  constructor
  · intro question isQuestion named
    have noAssessment : invite.assessmentId = none := by
      simpa [named] using single
    rw [noAssessment, named] at isOrg
    simpa [Database.questionOrg,
      constraints.uniqueKeys.question.fetch_eq isQuestion rfl] using isOrg
  · intro assessment isAssessment named
    rw [named] at isOrg
    simpa [Database.assessmentOrg,
      constraints.uniqueKeys.assessment.fetch_eq isAssessment rfl] using isOrg

theorem Change.tenancy (change : Change deployment served scope db after)
    (constraints : db.Constraints) (next : after.Constraints)
    (below : IdsBelow db db.nextId) (tenancy : Tenancy db) :
    Tenancy after := by
  have keys := constraints.foreignKeys
  have unique := next.uniqueKeys
  cases change with
  | founded _ enters =>
      exact tenancy.derived { enters.derives with }
  | joined enters =>
      exact tenancy.derived { enters.derives with }
  | accountDeleted deleted =>
      obtain ⟨left, leaving, rfl⟩ := Database.purgeAccount_left deleted
      exact tenancy.derived
        { leaving.derives.trans (derives_disown left _) with }
  | questionAdded question testCases inOrg noSet named =>
      have extended : Extends db (addQuestion db question testCases) :=
        { Extends.refl db with question := .append unique.question }
      have old := TenancyOf.extended tenancy extended keys
      refine { old with questionNamed := ?_, questionSet := ?_ }
      · intro other member
        rcases List.mem_append.mp member with isOld | isNew
        · exact old.questionNamed other isOld
        · obtain rfl := List.mem_singleton.mp isNew
          exact named
      · intro other member set isSet isNamed
        rcases List.mem_append.mp member with isOld | isNew
        · exact old.questionSet other isOld set isSet isNamed
        · obtain rfl := List.mem_singleton.mp isNew
          rw [noSet] at isNamed
          cases isNamed
  | setAdded set questions testCases nextId inOrg _ isQuestions =>
      refine TenancyOf.extend tenancy keys
        { Extends.refl db with
          question := .append unique.question
          set := .append unique.variantSet } fun old => ?_
      refine { old with questionNamed := ?_, questionSet := ?_ }
      · intro other member
        rcases List.mem_append.mp member with isOld | isNew
        · exact old.questionNamed other isOld
        · exact (isQuestions other isNew).2.2
      · intro other member found isSet isNamed
        rcases List.mem_append.mp member with isOld | isNew
        · exact old.questionSet other isOld found isSet isNamed
        · obtain ⟨isOrg, isSetId, _⟩ := isQuestions other isNew
          have same : found = set := by
            apply unique.variantSet.eq isSet
            · exact List.mem_append_right _ List.mem_cons_self
            · exact Option.some.inj (isNamed.symm.trans isSetId)
          rw [same, isOrg, inOrg]
  | questionEdited _ _ _ isQuestion _ =>
      exact tenancy.derived
        { Derives.refl db with question := derived_save isQuestion rfl }
  | questionDeleted =>
      exact tenancy.derived
        { Derives.refl db with
          question := derived_deleteWhere _
          invite := derived_deleteWhere _
          draft := derived_deleteWhere _ }
  | assessmentEdited _ _ _ isAssessment _ =>
      exact tenancy.derived
        { Derives.refl db with assessment := derived_save isAssessment rfl }
  | assessmentDeleted =>
      exact tenancy.derived
        { Derives.refl db with
          slot := derived_deleteWhere _
          assessment := derived_deleteWhere _ }
  | inviteRevoked isInvite =>
      exact tenancy.derived
        { Derives.refl db with invite := derived_save isInvite rfl }
  | named =>
      exact tenancy.derived
        { Derives.refl db with attempt := derived_updateWhere fun _ => rfl }
  | draftEdited _ _ _ _ isDraft =>
      exact tenancy.derived
        { Derives.refl db with draft := derived_save isDraft rfl }
  | regraded _ _ keeps =>
      exact tenancy.derived
        { Derives.refl db with
          submission := derived_updateWhere fun row => by
            rw [keeps.inviteId, keeps.questionId] }
  | stamped _ _ keeps =>
      exact tenancy.derived
        { Derives.refl db with
          attempt := derived_updateWhere fun row => by
            rw [keeps.id, keeps.inviteId] }
  | erased => exact tenancy.derived (derives_erase _ _ _ _ _ db)
  | recipientsDropped _ _ keeps =>
      exact tenancy.derived
        { Derives.refl db with
          invite := derived_updateWhere fun row => by
            obtain ⟨_, _, same⟩ := keeps.rest row
            rw [same]
            rfl }
  | assessmentAdded assessment slots inOrg rows _ =>
      refine TenancyOf.extend tenancy keys
        { Extends.refl db with
          assessment := .append unique.assessment
          slot := .append unique.slot } fun old => ?_
      have isNew : assessment ∈ db.assessments ++ [assessment] :=
        List.mem_append_right _ List.mem_cons_self
      refine { old with slotOne := ?_, slotQuestion := ?_, slotSet := ?_ }
      · intro slot member
        rcases List.mem_append.mp member with isOld | isSlot
        · exact old.slotOne slot isOld
        · exact rows.one slot isSlot
      · intro slot member other isOther here question isQuestion named
        rcases List.mem_append.mp member with isOld | isSlot
        · exact old.slotQuestion slot isOld other isOther here question
            isQuestion named
        · obtain rfl := unique.assessment.eq isOther isNew
            (here.symm.trans (rows.assessment slot isSlot))
          rw [inOrg]
          exact rows.questionOrg unique.question isSlot isQuestion named
      · intro slot member other isOther here set isSet named
        rcases List.mem_append.mp member with isOld | isSlot
        · exact old.slotSet slot isOld other isOther here set isSet named
        · obtain rfl := unique.assessment.eq isOther isNew
            (here.symm.trans (rows.assessment slot isSlot))
          rw [inOrg]
          exact rows.setOrg unique.variantSet isSlot isSet named
  | @slotsReplaced _ _ assessment title _ _ slots isAssessment inOrg
      uninvited rows _ =>
      have middle : Tenancy { db with
          slots := deleteWhere (fun row => row.assessmentId == assessment.id)
            db.slots ++ slots } := by
        refine TenancyOf.extend tenancy keys
          { Extends.refl db with slot := rows.oldOrNew below.slot }
          fun old => ?_
        refine { old with slotOne := ?_, slotQuestion := ?_, slotSet := ?_ }
        · intro slot member
          rcases List.mem_append.mp member with isOld | isSlot
          · exact old.slotOne slot (mem_deleteWhere.mp isOld).1
          · exact rows.one slot isSlot
        · intro slot member other isOther here question isQuestion named
          rcases List.mem_append.mp member with isOld | isSlot
          · exact old.slotQuestion slot (mem_deleteWhere.mp isOld).1 other
              isOther here question isQuestion named
          · obtain rfl := constraints.uniqueKeys.assessment.eq isOther
              isAssessment (here.symm.trans (rows.assessment slot isSlot))
            rw [inOrg]
            exact rows.questionOrg unique.question isSlot isQuestion named
        · intro slot member other isOther here set isSet named
          rcases List.mem_append.mp member with isOld | isSlot
          · exact old.slotSet slot (mem_deleteWhere.mp isOld).1 other isOther
              here set isSet named
          · obtain rfl := constraints.uniqueKeys.assessment.eq isOther
              isAssessment (here.symm.trans (rows.assessment slot isSlot))
            rw [inOrg]
            exact rows.setOrg unique.variantSet isSlot isSet named
      exact middle.derived
        { Derives.refl _ with assessment := derived_save isAssessment rfl }
  | invitesAdded invites isNext targets =>
      refine TenancyOf.extend tenancy keys
        { Extends.refl db with invite := .append unique.invite } fun old => ?_
      refine { old with inviteOne := ?_, inviteSet := ?_ }
      · intro invite member
        rcases List.mem_append.mp member with isOld | isNew
        · exact old.inviteOne invite isOld
        · exact (targets invite isNew).2.1.one
      · intro invite member set isSet named
        rcases List.mem_append.mp member with isOld | isNew
        · exact old.inviteSet invite isOld set isSet named
        · have target := (targets invite isNew).2.1
          obtain ⟨isSingle, inOrg⟩ := target.set unique.variantSet isSet named
          rw [inOrg]
          exact ⟨isSingle, target.belongs tenancy constraints⟩
  | @drawn _ invite email slot setId question _ isInvite isSlot isAssessment
      isSet isQuestion isVariant =>
      refine { tenancy with drawSlot := ?_, drawVariant := ?_ }
      · intro row member other isOther here found isFound there
        rcases List.mem_append.mp member with isOld | isNew
        · exact tenancy.drawSlot row isOld other isOther here found isFound
            there
        · obtain rfl := List.mem_singleton.mp isNew
          obtain rfl := unique.invite.eq isOther isInvite here
          obtain rfl := unique.slot.eq isFound isSlot there
          exact isAssessment
      · intro row member found isFound there other isOther named
        rcases List.mem_append.mp member with isOld | isNew
        · exact tenancy.drawVariant row isOld found isFound there other isOther
            named
        · obtain rfl := List.mem_singleton.mp isNew
          obtain rfl := unique.slot.eq isFound isSlot there
          obtain rfl := unique.question.eq isOther isQuestion named
          rw [isSet, isVariant]
          exact ⟨rfl, rfl⟩
  | started =>
      exact TenancyOf.extend tenancy keys
        { Extends.refl db with attempt := .append unique.attempt }
        fun old => { old with }
  | submitted attempt sub _ isInvite isFor _ _ _ _ presented =>
      refine { tenancy with submission := ?_ }
      intro row member other isOther here question isQuestion named
      rcases List.mem_append.mp member with isOld | isNew
      · exact tenancy.submission row isOld other isOther here question
          isQuestion named
      · obtain rfl := List.mem_singleton.mp isNew
        obtain rfl := unique.invite.eq isOther isInvite
          (Option.some.inj (here.symm.trans isFor))
        rw [← named] at presented
        have belongs : BelongsTo db other question.orgId :=
          presented_belongs tenancy constraints isInvite isQuestion presented
        exact belongs
  | submittedDirectly sub _ _ _ noInvite =>
      refine { tenancy with submission := ?_ }
      intro row member other isOther here
      rcases List.mem_append.mp member with isOld | isNew
      · exact tenancy.submission row isOld other isOther here
      · obtain rfl := List.mem_singleton.mp isNew
        rw [noInvite] at here
        cases here
  | feedbackGiven feedback _ isInvite isAttempt _ isFor _ named isOrg =>
      refine { tenancy with feedback := ?_ }
      intro row member found isFound here other isOther there
      rcases List.mem_append.mp member with isOld | isNew
      · exact tenancy.feedback row isOld found isFound here other isOther there
      · obtain rfl := List.mem_singleton.mp isNew
        obtain rfl := unique.attempt.eq isFound isAttempt (here.trans named)
        obtain rfl := unique.invite.eq isOther isInvite (there.trans isFor)
        have belongs : BelongsTo db other row.orgId :=
          inviteOrg_belongs tenancy constraints isInvite isOrg
        exact belongs
  | draftAdded draft _ isInvite _ isFor presented =>
      refine { tenancy with draft := ?_ }
      intro row member other isOther here question isQuestion named
      rcases List.mem_append.mp member with isOld | isNew
      · exact tenancy.draft row isOld other isOther here question isQuestion
          named
      · obtain rfl := List.mem_singleton.mp isNew
        obtain rfl := unique.invite.eq isOther isInvite (here.trans isFor)
        rw [← named] at presented
        have belongs : BelongsTo db other question.orgId :=
          presented_belongs tenancy constraints isInvite isQuestion presented
        exact belongs
  | _ => exact { tenancy with }

theorem tenancy_empty : Tenancy .empty := by
  constructor <;> intro row member <;> cases member

/-! ## Runs -/

/-- What holds in every state between two transactions of a run. -/
structure Sound (db : Database) : Prop where
  constraints : db.Constraints
  ids : IdsBelow db db.nextId
  tenancy : Tenancy db

theorem sound_empty : Sound .empty :=
  ⟨constraints_empty, idsBelow_empty, tenancy_empty⟩

theorem Change.sound (change : Change deployment served scope db after)
    (sound : Sound db) (next : after.Constraints) : Sound after where
  constraints := next
  ids := change.idsBelow sound.ids
  tenancy := change.tenancy sound.constraints next sound.ids sound.tenancy

theorem Run.sound {trace : List Served} (run : Run deployment trace db) :
    Sound db :=
  run.keeps Sound sound_empty fun change _ next sound =>
    change.sound sound next

/-- Requests find what the runs have kept. -/
theorem Run.sound_before {trace : List Served}
    (run : Run deployment trace db) (member : served ∈ trace) :
    Sound served.before := by
  induction run with
  | start => cases member
  | @step trace db around request run inductionHypothesis =>
      rcases List.mem_append.mp member with isEarlier | isLast
      · exact inductionHypothesis isEarlier
      · obtain rfl := List.mem_singleton.mp isLast
        exact run.sound

/-- What the transactions of allowed requests keep in a sound state holds in
every state of a run of such requests. -/
theorem Run.keepsAllowed (allowed : Served → Prop) (holds : Database → Prop)
    {trace : List Served} (run : Run deployment trace db)
    (asked : ∀ served ∈ trace, allowed served) (start : holds .empty)
    (kept : ∀ {served scope state next}, allowed served →
      Change deployment served scope state next →
        Sound state → Sound next → holds state → holds next) :
    holds db := by
  induction run with
  | start => exact start
  | @step trace db around request run inductionHypothesis =>
      have transactions : Transactions deployment ⟨around, request, db⟩ db
          (serve deployment around db request).1 :=
        serve_transactions run.constraints
      have isAllowed : allowed ⟨around, request, db⟩ :=
        asked _ (List.mem_append_right _ List.mem_cons_self)
      have before : holds db := inductionHypothesis fun served member =>
        asked served (List.mem_append_left _ member)
      have both := transactions.keeps (fun state => Sound state ∧ holds state)
        run.constraints
        (fun change _ next held =>
          ⟨change.sound held.1 next,
            kept isAllowed change held.1 (change.sound held.1 next) held.2⟩)
        ⟨run.sound, before⟩
      exact both.2.2

/-- What every transaction keeps in a sound state holds in every state of a
run. -/
theorem Run.keepsSound (holds : Database → Prop) {trace : List Served}
    (run : Run deployment trace db) (start : holds .empty)
    (kept : ∀ {served scope state next},
      Change deployment served scope state next →
        Sound state → Sound next → holds state → holds next) :
    holds db :=
  run.keepsAllowed (fun _ => True) holds (fun _ _ => trivial) start
    fun _ => kept

/-- The same, from a request of the run on. -/
theorem Run.sinceSound (holds : Database → Prop) {trace : List Served}
    (run : Run deployment trace db) (member : served ∈ trace)
    (start : holds served.before)
    (kept : ∀ {served scope state next},
      Change deployment served scope state next →
        Sound state → Sound next → holds state → holds next) :
    holds db := by
  have both := run.since (fun db => Sound db ∧ holds db) member
    ⟨run.sound_before member, start⟩ fun change _ next held =>
      ⟨change.sound held.1 next,
        kept change held.1 (change.sound held.1 next) held.2⟩
  exact both.2

end AssessmentPlatform
