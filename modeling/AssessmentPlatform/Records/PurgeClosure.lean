import AssessmentPlatform.Records.Sample
import AssessmentPlatform.Records.Slices
import Mathlib.Tactic.IntervalCases

/-!
# The purge closes over the foreign keys

Where every reference stays within one organisation, a table is reached by the
cascade no later than the tables that it refers to, and a row goes with whatever
it refers to: no DELETE of the cascade is refused.
-/

namespace AssessmentPlatform

open Rows Refusals Database

variable {deployment : Deployment} {served : Served} {scope : Option Nat}
variable {db after : Database} {orgId : Nat}

/-! ## Cascades -/

section Cascade

variable {Row Target Key : Type} {rows : List Row} {targets : List Target}

/-- The rows of a table that a cascade may have reached. -/
def cutWhen (reached : Bool) (owned : Row → Bool) (rows : List Row) :
    List Row :=
  if reached then deleteWhere owned rows else rows

theorem cutWhen_sublist (reached : Bool) (owned : Row → Bool)
    (rows : List Row) : (cutWhen reached owned rows).Sublist rows := by
  unfold cutWhen
  split
  · exact List.filter_sublist
  · exact List.Sublist.refl rows

/-- References survive a cascade that reaches the referring rows first and takes
them along. -/
theorem Refers.cut {column : Row → Option Key} {key : Target → Key}
    {early late : Bool} {owned : Row → Bool} {ownedTarget : Target → Bool}
    (refers : Refers column rows key targets) (order : late → early)
    (closed : ∀ row ∈ rows, ∀ target ∈ targets,
      column row = some (key target) → ownedTarget target → owned row) :
    Refers column (cutWhen early owned rows) key
      (cutWhen late ownedTarget targets) := by
  intro row member wanted names
  have isRow := (cutWhen_sublist early owned rows).subset member
  obtain ⟨target, isTarget, rfl⟩ := refers row isRow wanted names
  refine ⟨target, ?_, rfl⟩
  unfold cutWhen
  split
  · next isLate =>
    apply mem_deleteWhere.mpr ⟨isTarget, _⟩
    intro isOwned
    simp only [cutWhen, order isLate, if_true, mem_deleteWhere] at member
    exact member.2 (closed row isRow target isTarget names isOwned)
  · exact isTarget

theorem Keyed.cut {key : Row → Key} (keyed : Keyed key rows) (reached : Bool)
    (owned : Row → Bool) : Keyed key (cutWhen reached owned rows) :=
  keyed.sublist ((cutWhen_sublist reached owned rows).map key)

theorem Unique.cut {key : Row → Option Key} (unique : Unique key rows)
    (reached : Bool) (owned : Row → Bool) :
    Unique key (cutWhen reached owned rows) :=
  unique.sublist ((cutWhen_sublist reached owned rows).filterMap key)

end Cascade

/-- Statements that are not refused reach the last of their states. -/
theorem foldlM_execute {steps : List (Database → Database)}
    (states : Nat → Database)
    (one : ∀ index (inside : index < steps.length),
      steps[index] (states index) = states (index + 1))
    (holds : ∀ index, (states index).Constraints) :
    steps.foldlM (fun db step => (step db).execute) (states 0) =
      .ok (states steps.length) := by
  induction steps generalizing states with
  | nil => rfl
  | cons step rest inductionHypothesis =>
      have first : step (states 0) = states 1 := one 0 (by simp)
      have executed : (step (states 0)).execute = .ok (states 1) := by
        rw [first]
        exact execute_eq_ok.mpr ⟨holds 1, rfl⟩
      rw [List.foldlM_cons, executed]
      apply inductionHypothesis fun index => states (index + 1)
      · intro index inside
        exact one (index + 1) (by simpa using inside)
      · intro index
        exact holds (index + 1)

/-- The database when the first statements of `_purge_org` have run. -/
def Database.cut (db : Database) (orgId reached : Nat) : Database where
  results := cutWhen (0 < reached)
    (fun row => db.ownsSubmission orgId row.submissionId) db.results
  submissions := cutWhen (1 < reached)
    (fun row => db.ownsSubmission orgId row.id) db.submissions
  feedback := cutWhen (2 < reached) (fun row => row.orgId == orgId) db.feedback
  attempts := cutWhen (3 < reached)
    (fun row => db.ownsInvite orgId row.inviteId) db.attempts
  slotVariants := cutWhen (4 < reached)
    (fun row => db.ownsInvite orgId row.inviteId) db.slotVariants
  events := cutWhen (5 < reached)
    (fun row => db.ownsInvite orgId row.inviteId) db.events
  drafts := cutWhen (6 < reached)
    (fun row => db.ownsInvite orgId row.inviteId) db.drafts
  invites := cutWhen (7 < reached)
    (fun row => db.ownsInvite orgId row.id) db.invites
  slots := cutWhen (8 < reached)
    (fun row => db.ownsAssessment orgId row.assessmentId) db.slots
  assessments := cutWhen (9 < reached) (fun row => row.orgId == orgId)
    db.assessments
  testCases := cutWhen (10 < reached)
    (fun row => db.ownsQuestion orgId row.questionId) db.testCases
  questions := cutWhen (11 < reached) (fun row => row.orgId == orgId)
    db.questions
  variantSets := cutWhen (12 < reached) (fun row => row.orgId == orgId)
    db.variantSets
  orgInvites := cutWhen (13 < reached) (fun row => row.orgId == orgId)
    db.orgInvites
  usage := cutWhen (14 < reached) (fun row => row.orgId == orgId) db.usage
  assets := cutWhen (15 < reached) (fun row => row.orgId == orgId) db.assets
  memberships := cutWhen (16 < reached) (fun row => row.orgId == orgId)
    db.memberships
  organizations := cutWhen (17 < reached) (fun row => row.id == orgId)
    db.organizations
  interviewers := db.interviewers
  nextId := db.nextId

theorem purgeSteps_cut (index : Nat)
    (inside : index < (purgeSteps orgId).length) :
    (purgeSteps orgId)[index] (db.cut orgId index) =
      db.cut orgId (index + 1) := by
  have bound : index < 18 := inside
  interval_cases index <;> rfl

/-! ## What is owned goes together -/

/-- The questions that integrity events name belong to the organisations of
their invites. -/
def EventsConfined (db : Database) : Prop :=
  ∀ row ∈ db.events, ∀ invite ∈ db.invites, invite.id = row.inviteId →
    ∀ question ∈ db.questions, row.questionId = some question.id →
      BelongsTo db invite question.orgId

section Owned

variable (sound : Sound db)

include sound

theorem ownsInvite_of_target {invite : Invite} (member : invite ∈ db.invites)
    (target : db.targets orgId invite) : db.ownsInvite orgId invite.id :=
  (ownsInvite_iff_targets sound.constraints.uniqueKeys member).mpr target

theorem ownsInvite_of_draw_slot {row : CandidateSlotVariant}
    {slot : AssessmentQuestion} (member : row ∈ db.slotVariants)
    (isSlot : slot ∈ db.slots) (names : slot.id = row.assessmentQuestionId)
    (owned : db.ownsAssessment orgId slot.assessmentId) :
    db.ownsInvite orgId row.inviteId := by
  obtain ⟨invite, isInvite, isKey⟩ :=
    sound.constraints.foreignKeys.slotVariantInvite row member _ rfl
  have isFor := sound.tenancy.drawSlot row member invite isInvite isKey slot
    isSlot names
  rw [← isKey]
  apply ownsInvite_of_target sound isInvite
  simp [targets, isFor, owned]

theorem ownsAssessment_of_slot_question {slot : AssessmentQuestion}
    {question : Question} (isSlot : slot ∈ db.slots)
    (isQuestion : question ∈ db.questions)
    (names : slot.questionId = some question.id)
    (isOrg : question.orgId = orgId) :
    db.ownsAssessment orgId slot.assessmentId := by
  obtain ⟨assessment, isAssessment, isKey⟩ :=
    sound.constraints.foreignKeys.slotAssessment slot isSlot _ rfl
  have same := sound.tenancy.slotQuestion slot isSlot assessment isAssessment
    isKey.symm question isQuestion names
  rw [← isKey]
  exact ownsAssessment_of_mem isAssessment (same.symm.trans isOrg)

theorem ownsAssessment_of_slot_set {slot : AssessmentQuestion}
    {set : VariantSet} (isSlot : slot ∈ db.slots)
    (isSet : set ∈ db.variantSets) (names : slot.variantSetId = some set.id)
    (isOrg : set.orgId = orgId) :
    db.ownsAssessment orgId slot.assessmentId := by
  obtain ⟨assessment, isAssessment, isKey⟩ :=
    sound.constraints.foreignKeys.slotAssessment slot isSlot _ rfl
  have same := sound.tenancy.slotSet slot isSlot assessment isAssessment
    isKey.symm set isSet names
  rw [← isKey]
  exact ownsAssessment_of_mem isAssessment (same.symm.trans isOrg)

theorem ownsInvite_of_draw_question {row : CandidateSlotVariant}
    {question : Question} (member : row ∈ db.slotVariants)
    (isQuestion : question ∈ db.questions) (names : question.id = row.questionId)
    (isOrg : question.orgId = orgId) : db.ownsInvite orgId row.inviteId := by
  obtain ⟨slot, isSlot, isKey⟩ :=
    sound.constraints.foreignKeys.slotVariantSlot row member _ rfl
  obtain ⟨hasSet, inSet⟩ := sound.tenancy.drawVariant row member slot isSlot
    isKey question isQuestion names
  obtain ⟨setId, isSetId⟩ := Option.isSome_iff_exists.mp hasSet
  obtain ⟨set, isSet, rfl⟩ :=
    sound.constraints.foreignKeys.slotSet slot isSlot setId isSetId
  have same := sound.tenancy.questionSet question isQuestion set isSet
    (inSet.trans isSetId)
  apply ownsInvite_of_draw_slot sound member isSlot isKey
  exact ownsAssessment_of_slot_set sound isSlot isSet isSetId
    (same.symm.trans isOrg)

theorem ownsInvite_of_draft {row : CandidateDraft} {question : Question}
    (member : row ∈ db.drafts) (isQuestion : question ∈ db.questions)
    (names : question.id = row.questionId) :
    db.ownsInvite question.orgId row.inviteId := by
  obtain ⟨invite, isInvite, isKey⟩ :=
    sound.constraints.foreignKeys.draftInvite row member _ rfl
  rw [← isKey]
  exact ownsInvite_of_belongs sound isInvite
    (sound.tenancy.draft row member invite isInvite isKey question isQuestion
      names)

theorem ownsInvite_of_event (confined : EventsConfined db)
    {row : IntegrityEvent} {question : Question} (member : row ∈ db.events)
    (isQuestion : question ∈ db.questions)
    (names : row.questionId = some question.id) :
    db.ownsInvite question.orgId row.inviteId := by
  obtain ⟨invite, isInvite, isKey⟩ :=
    sound.constraints.foreignKeys.eventInvite row member _ rfl
  rw [← isKey]
  exact ownsInvite_of_belongs sound isInvite
    (confined row member invite isInvite isKey question isQuestion names)

theorem uniqueKeys_cut (reached : Nat) : (db.cut orgId reached).UniqueKeys := by
  have unique := sound.constraints.uniqueKeys
  exact {
    organization := Keyed.cut unique.organization _ _
    stripeCustomer := Unique.cut unique.stripeCustomer _ _
    usage := Keyed.cut unique.usage _ _
    asset := Keyed.cut unique.asset _ _
    assetSha := Keyed.cut unique.assetSha _ _
    interviewer := unique.interviewer
    interviewerEmail := unique.interviewerEmail
    membership := Keyed.cut unique.membership _ _
    membershipInterviewer := Keyed.cut unique.membershipInterviewer _ _
    orgInvite := Keyed.cut unique.orgInvite _ _
    orgInviteToken := Keyed.cut unique.orgInviteToken _ _
    variantSet := Keyed.cut unique.variantSet _ _
    question := Keyed.cut unique.question _ _
    testCase := Keyed.cut unique.testCase _ _
    assessment := Keyed.cut unique.assessment _ _
    slot := Keyed.cut unique.slot _ _
    slotQuestion := Unique.cut unique.slotQuestion _ _
    invite := Keyed.cut unique.invite _ _
    inviteToken := Keyed.cut unique.inviteToken _ _
    attempt := Keyed.cut unique.attempt _ _
    attemptCandidate := Keyed.cut unique.attemptCandidate _ _
    slotVariant := Keyed.cut unique.slotVariant _ _
    slotVariantCandidate := Keyed.cut unique.slotVariantCandidate _ _
    event := Keyed.cut unique.event _ _
    draft := Keyed.cut unique.draft _ _
    draftCandidate := Keyed.cut unique.draftCandidate _ _
    feedback := Keyed.cut unique.feedback _ _
    feedbackAttempt := Keyed.cut unique.feedbackAttempt _ _
    submission := Keyed.cut unique.submission _ _
    submissionCandidate := Unique.cut unique.submissionCandidate _ _
    result := Keyed.cut unique.result _ _ }

theorem foreignKeys_cut (confined : EventsConfined db) (reached : Nat) :
    (db.cut orgId reached).ForeignKeys := by
  have refers := sound.constraints.foreignKeys
  have order {early late : Nat} (before : early ≤ late) :
      decide (late < reached) → decide (early < reached) := by
    simpa using Nat.lt_of_le_of_lt before
  exact {
    usageOrg := Refers.cut refers.usageOrg (order (by decide)) (by simp_all)
    assetOrg := Refers.cut refers.assetOrg (order (by decide)) (by simp_all)
    membershipOrg :=
      Refers.cut refers.membershipOrg (order (by decide)) (by simp_all)
    orgInviteOrg :=
      Refers.cut refers.orgInviteOrg (order (by decide)) (by simp_all)
    variantSetOrg :=
      Refers.cut refers.variantSetOrg (order (by decide)) (by simp_all)
    questionOrg :=
      Refers.cut refers.questionOrg (order (by decide)) (by simp_all)
    assessmentOrg :=
      Refers.cut refers.assessmentOrg (order (by decide)) (by simp_all)
    feedbackOrg :=
      Refers.cut refers.feedbackOrg (order (by decide)) (by simp_all)
    membershipInterviewer :=
      Refers.of_sublist refers.membershipInterviewer (cutWhen_sublist _ _ _)
    membershipInvitedBy :=
      Refers.of_sublist refers.membershipInvitedBy (cutWhen_sublist _ _ _)
    orgInviteInvitedBy :=
      Refers.of_sublist refers.orgInviteInvitedBy (cutWhen_sublist _ _ _)
    variantSetOwner :=
      Refers.of_sublist refers.variantSetOwner (cutWhen_sublist _ _ _)
    questionOwner :=
      Refers.of_sublist refers.questionOwner (cutWhen_sublist _ _ _)
    assessmentOwner :=
      Refers.of_sublist refers.assessmentOwner (cutWhen_sublist _ _ _)
    inviteCreatedBy :=
      Refers.of_sublist refers.inviteCreatedBy (cutWhen_sublist _ _ _)
    questionSet := by
      apply Refers.cut refers.questionSet (order (by decide))
      intro question member set isSet names isOrg
      have same := sound.tenancy.questionSet question member set isSet names
      simpa [same] using isOrg
    testCaseQuestion := by
      apply Refers.cut refers.testCaseQuestion (order (by decide))
      intro row _ question isQuestion names isOrg
      rw [Option.some.inj names]
      exact ownsQuestion_of_mem isQuestion (beq_iff_eq.mp isOrg)
    slotAssessment := by
      apply Refers.cut refers.slotAssessment (order (by decide))
      intro slot _ assessment isAssessment names isOrg
      rw [Option.some.inj names]
      exact ownsAssessment_of_mem isAssessment (beq_iff_eq.mp isOrg)
    slotQuestion := by
      apply Refers.cut refers.slotQuestion (order (by decide))
      intro slot isSlot question isQuestion names isOrg
      exact ownsAssessment_of_slot_question sound isSlot isQuestion names
        (beq_iff_eq.mp isOrg)
    slotSet := by
      apply Refers.cut refers.slotSet (order (by decide))
      intro slot isSlot set isSet names isOrg
      exact ownsAssessment_of_slot_set sound isSlot isSet names
        (beq_iff_eq.mp isOrg)
    inviteQuestion := by
      apply Refers.cut refers.inviteQuestion (order (by decide))
      intro invite isInvite question isQuestion names isOrg
      apply ownsInvite_of_target sound isInvite
      simp [targets, names,
        ownsQuestion_of_mem isQuestion (beq_iff_eq.mp isOrg)]
    inviteAssessment := by
      apply Refers.cut refers.inviteAssessment (order (by decide))
      intro invite isInvite assessment isAssessment names isOrg
      apply ownsInvite_of_target sound isInvite
      simp [targets, names,
        ownsAssessment_of_mem isAssessment (beq_iff_eq.mp isOrg)]
    inviteSet := by
      apply Refers.cut refers.inviteSet (order (by decide))
      intro invite isInvite set isSet names isOrg
      obtain ⟨_, belongs⟩ :=
        sound.tenancy.inviteSet invite isInvite set isSet names
      rw [beq_iff_eq.mp isOrg] at belongs
      exact ownsInvite_of_belongs sound isInvite belongs
    attemptInvite := by
      apply Refers.cut refers.attemptInvite (order (by decide))
      intro row _ invite _ names owned
      rw [Option.some.inj names]
      exact owned
    slotVariantInvite := by
      apply Refers.cut refers.slotVariantInvite (order (by decide))
      intro row _ invite _ names owned
      rw [Option.some.inj names]
      exact owned
    slotVariantSlot := by
      apply Refers.cut refers.slotVariantSlot (order (by decide))
      intro row member slot isSlot names owned
      exact ownsInvite_of_draw_slot sound member isSlot
        (Option.some.inj names).symm owned
    slotVariantQuestion := by
      apply Refers.cut refers.slotVariantQuestion (order (by decide))
      intro row member question isQuestion names isOrg
      exact ownsInvite_of_draw_question sound member isQuestion
        (Option.some.inj names).symm (beq_iff_eq.mp isOrg)
    eventInvite := by
      apply Refers.cut refers.eventInvite (order (by decide))
      intro row _ invite _ names owned
      rw [Option.some.inj names]
      exact owned
    eventQuestion := by
      apply Refers.cut refers.eventQuestion (order (by decide))
      intro row member question isQuestion names isOrg
      rw [← beq_iff_eq.mp isOrg]
      exact ownsInvite_of_event sound confined member isQuestion names
    draftInvite := by
      apply Refers.cut refers.draftInvite (order (by decide))
      intro row _ invite _ names owned
      rw [Option.some.inj names]
      exact owned
    draftQuestion := by
      apply Refers.cut refers.draftQuestion (order (by decide))
      intro row member question isQuestion names isOrg
      rw [← beq_iff_eq.mp isOrg]
      exact ownsInvite_of_draft sound member isQuestion
        (Option.some.inj names).symm
    feedbackAttempt := by
      apply Refers.cut refers.feedbackAttempt (order (by decide))
      intro row member attempt isAttempt names owned
      have inOrg := ownsInvite_of_feedback sound member isAttempt
        (Option.some.inj names).symm
      rw [ownsInvite_iff sound] at inOrg owned
      rw [inOrg] at owned
      exact beq_iff_eq.mpr (Option.some.inj owned)
    submissionQuestion := by
      apply Refers.cut refers.submissionQuestion (order (by decide))
      intro row member question isQuestion names isOrg
      rw [ownsSubmission_iff_collects sound.constraints.uniqueKeys member]
      simp [collects, Option.some.inj names,
        ownsQuestion_of_mem isQuestion (beq_iff_eq.mp isOrg)]
    submissionInvite := by
      apply Refers.cut refers.submissionInvite (order (by decide))
      intro row member invite _ names owned
      rw [ownsSubmission_iff_collects sound.constraints.uniqueKeys member]
      simp [collects, names, owned]
    resultSubmission := by
      apply Refers.cut refers.resultSubmission (order (by decide))
      intro row _ submission _ names owned
      rw [Option.some.inj names]
      exact owned }

end Owned

/-! ## Events stay in the organisation -/

/-- A batch of integrity events that passes the gate names a question of the
invite's own organisation, or none. -/
def Served.NamesOwnQuestion (deployment : Deployment) (served : Served) :
    Prop :=
  ∀ token body invite,
    served.request = .candidate token (.events body) →
    fetch Invite.token token served.before.invites = some invite →
    Gate deployment served invite
      (deployment.auth.normalizeEmail body.candidateEmail) →
    body.events ≠ [] →
    ∀ question ∈ served.before.questions,
      body.questionId = some question.id →
        served.before.inviteOrg invite = some question.orgId

/-- Every row comes from an earlier one, with the same columns, or has a key
that no earlier one had. -/
def Follows {Row Key Value : Type} (key : Row → Key) (columns : Row → Value)
    (old new : List Row) : Prop :=
  ∀ row ∈ new, (∃ was ∈ old, columns was = columns row) ∨
    ∀ was ∈ old, key was ≠ key row

theorem Derived.follows {Row Key Value : Type} {key : Row → Key}
    {columns : Row → Value} {old new : List Row}
    (derived : Derived columns old new) : Follows key columns old new :=
  fun row member => Or.inl (derived row member)

theorem Follows.append {Row Key Value : Type} {key : Row → Key}
    {columns : Row → Value} {rows added : List Row}
    (keyed : Keyed key (rows ++ added)) :
    Follows key columns rows (rows ++ added) := by
  intro row member
  rcases List.mem_append.mp member with old | new
  · exact Or.inl ⟨row, old, rfl⟩
  · exact Or.inr fun was isWas => keyed.ne_of_append isWas new

/-- Whatever rows refer to is what it was, or is new. -/
structure Steady (db after : Database) : Prop where
  question : Follows Question.id Question.identity db.questions after.questions
  assessment : Follows Assessment.id (fun row => (row.id, row.orgId))
    db.assessments after.assessments
  invite : Follows Invite.id Invite.identity db.invites after.invites

theorem Derives.steady (derives : Derives db after) : Steady db after where
  question := Derived.follows derives.question
  assessment := Derived.follows derives.assessment
  invite := Derived.follows derives.invite

theorem Steady.refl (db : Database) : Steady db db :=
  (Derives.refl db).steady

/-- Every transaction leaves the organisations behind the references. -/
theorem Change.steady (change : Change deployment served scope db after)
    (next : after.Constraints) : Steady db after := by
  have unique := next.uniqueKeys
  cases change with
  | founded _ enters => exact { enters.derives.steady with }
  | joined enters => exact { enters.derives.steady with }
  | accountDeleted deleted =>
      obtain ⟨left, leaving, rfl⟩ := purgeAccount_left deleted
      exact { (leaving.derives.trans (derives_disown left _)).steady with }
  | questionAdded =>
      exact { Steady.refl db with question := Follows.append unique.question }
  | setAdded =>
      exact { Steady.refl db with question := Follows.append unique.question }
  | questionEdited _ _ _ isQuestion =>
      exact { Steady.refl db with
        question := Derived.follows (derived_save isQuestion rfl) }
  | questionDeleted =>
      exact { Steady.refl db with
        question := Derived.follows (derived_deleteWhere _)
        invite := Derived.follows (derived_deleteWhere _) }
  | assessmentAdded =>
      exact { Steady.refl db with
        assessment := Follows.append unique.assessment }
  | assessmentEdited _ _ _ isAssessment =>
      exact { Steady.refl db with
        assessment := Derived.follows (derived_save isAssessment rfl) }
  | slotsReplaced _ _ _ _ isAssessment =>
      exact { Steady.refl db with
        assessment := Derived.follows (derived_save isAssessment rfl) }
  | assessmentDeleted =>
      exact { Steady.refl db with
        assessment := Derived.follows (derived_deleteWhere _) }
  | invitesAdded =>
      exact { Steady.refl db with invite := Follows.append unique.invite }
  | inviteRevoked isInvite =>
      exact { Steady.refl db with
        invite := Derived.follows (derived_save isInvite rfl) }
  | erased => exact (derives_erase _ _ _ _ _ db).steady
  | recipientsDropped matched change keeps =>
      exact { Steady.refl db with
        invite := Derived.follows (derived_updateWhere fun row => by
          obtain ⟨_, _, same⟩ := keeps.rest row
          rw [same]
          rfl) }
  | _ => exact { Steady.refl db with }

theorem BelongsTo.steady (steady : Steady db after) (keys : db.ForeignKeys)
    {was invite : Invite} (isWas : was ∈ db.invites)
    (same : was.identity = invite.identity) (belongs : BelongsTo db was orgId) :
    BelongsTo after invite orgId := by
  simp only [Invite.identity, Prod.mk.injEq] at same
  obtain ⟨_, sameQuestion, sameAssessment, _⟩ := same
  constructor
  · intro question member named
    rw [← sameQuestion] at named
    rcases steady.question question member with ⟨old, isOld, kept⟩ | fresh
    · simp only [Question.identity, Prod.mk.injEq] at kept
      rw [← kept.2.1]
      exact belongs.1 old isOld (by rw [named, kept.1])
    · obtain ⟨old, isOld, isKey⟩ := keys.inviteQuestion was isWas _ named
      exact absurd isKey (fresh old isOld)
  · intro assessment member named
    rw [← sameAssessment] at named
    rcases steady.assessment assessment member with ⟨old, isOld, kept⟩ | fresh
    · simp only [Prod.mk.injEq] at kept
      rw [← kept.2]
      exact belongs.2 old isOld (by rw [named, kept.1])
    · obtain ⟨old, isOld, isKey⟩ := keys.inviteAssessment was isWas _ named
      exact absurd isKey (fresh old isOld)

/-- The events that were there stay confined. -/
theorem EventsConfined.steady (confined : EventsConfined db)
    (keys : db.ForeignKeys) (steady : Steady db after)
    (events : Derived (fun row => (row.inviteId, row.questionId)) db.events
      after.events) : EventsConfined after := by
  intro row member invite isInvite isKey question isQuestion named
  obtain ⟨old, isOld, same⟩ := events row member
  simp only [Prod.mk.injEq] at same
  obtain ⟨sameInvite, sameQuestion⟩ := same
  rw [← sameInvite] at isKey
  rw [← sameQuestion] at named
  rcases steady.invite invite isInvite with ⟨was, isWas, kept⟩ | fresh
  · rcases steady.question question isQuestion with
      ⟨oldQuestion, isOldQuestion, keptQuestion⟩ | fresh
    · have columns := kept
      simp only [Invite.identity, Question.identity,
        Prod.mk.injEq] at columns keptQuestion
      rw [← keptQuestion.2.1]
      exact BelongsTo.steady steady keys isWas kept
        (confined old isOld was isWas (columns.1.trans isKey) oldQuestion
          isOldQuestion (by rw [named, keptQuestion.1]))
    · obtain ⟨found, isFound, same⟩ := keys.eventQuestion old isOld _ named
      exact absurd same (fresh found isFound)
  · obtain ⟨found, isFound, same⟩ := keys.eventInvite old isOld _ rfl
    exact absurd (same.trans isKey.symm) (fresh found isFound)

/-- An event that a request brings. -/
theorem mem_eventRows {invite : Invite} {email : String}
    {questionId : Option String} {elapsed : Int} {first : Nat}
    {events : List IntegrityEventIn} {row : IntegrityEvent}
    (member : row ∈ eventRows invite email questionId elapsed first events) :
    row.inviteId = invite.id ∧ row.questionId = questionId ∧ events ≠ [] := by
  obtain ⟨⟨event, index⟩, isEvent, rfl⟩ := List.mem_map.mp member
  refine ⟨rfl, rfl, ?_⟩
  rintro rfl
  cases isEvent

theorem Enters.events {account : Interviewer} {gaveUp : Option Nat}
    {base : Database} (enters : Enters db account gaveUp base) :
    Derived (fun row => (row.inviteId, row.questionId)) db.events
      base.events := by
  cases enters with
  | newcomer => exact .refl _
  | seatless => exact .refl _
  | leaving _ _ gaveUp =>
      obtain ⟨rfl, _⟩ := leaveEmptyOrg_eq_ok gaveUp
      exact derived_deleteWhere _

theorem Database.Left.events {interviewerId : Nat} {left : Database}
    (leaving : Left db interviewerId left) :
    Derived (fun row => (row.inviteId, row.questionId)) db.events
      left.events := by
  cases leaving with
  | seatless => exact .refl _
  | shared => exact .refl _
  | last => exact derived_deleteWhere _

theorem Change.eventsConfined
    (change : Change deployment served scope db after)
    (names : served.NamesOwnQuestion deployment) (sound : Sound db)
    (next : after.Constraints) (confined : EventsConfined db) :
    EventsConfined after := by
  have keys := sound.constraints.foreignKeys
  have steady := change.steady next
  cases change with
  | founded _ enters => exact confined.steady keys steady enters.events
  | joined enters => exact confined.steady keys steady enters.events
  | accountDeleted deleted =>
      obtain ⟨left, leaving, rfl⟩ := purgeAccount_left deleted
      exact confined.steady keys steady leaving.events
  | erased => exact confined.steady keys steady (derived_updateWhere fun _ => rfl)
  | @eventsRecorded _ invite email token body elapsed asked isBefore found gate
      isInvite =>
      subst isBefore
      intro row member other isOther isKey question isQuestion named
      rcases List.mem_append.mp member with old | isNew
      · exact confined row old other isOther isKey question isQuestion named
      · obtain ⟨onInvite, onQuestion, nonempty⟩ := mem_eventRows isNew
        obtain rfl := next.uniqueKeys.invite.eq isOther isInvite
          (isKey.trans onInvite)
        obtain ⟨request, isRequest, isEmail⟩ := gate.asked
        rw [asked] at isRequest
        cases isRequest
        subst isEmail
        have inOrg := names _ body other asked found gate nonempty question
          isQuestion (onQuestion.symm.trans named)
        have belongs : BelongsTo served.before other question.orgId :=
          inviteOrg_belongs sound.tenancy sound.constraints isInvite inOrg
        exact belongs
  | _ => exact confined.steady keys steady (.refl _)

theorem Run.eventsConfined {trace : List Served}
    (run : Run deployment trace db)
    (names : ∀ served ∈ trace, served.NamesOwnQuestion deployment) :
    EventsConfined db :=
  run.keepsAllowed _ EventsConfined names (fun _ member => nomatch member)
    fun names change sound next confined =>
      change.eventsConfined names sound next.constraints confined

/-! ## The purges -/

/-- The organisation's purge runs to its end. -/
theorem purgeOrg_eq_ok (sound : Sound db) (confined : EventsConfined db)
    (orgId : Nat) : db.purgeOrg orgId = .ok (db.purged orgId) := by
  apply foldlM_execute (db.cut orgId) purgeSteps_cut
  intro index
  exact ⟨uniqueKeys_cut sound index, foreignKeys_cut sound confined index⟩

theorem constraints_purged (sound : Sound db) (confined : EventsConfined db)
    (orgId : Nat) : (db.purged orgId).Constraints := by
  have last : db.cut orgId 18 = db.purged orgId := rfl
  rw [← last]
  exact ⟨uniqueKeys_cut sound 18, foreignKeys_cut sound confined 18⟩

/-- No row of an organisation, as it stood, is left. -/
structure Cleared (orgId : Nat) (db after : Database) : Prop where
  organizations : ∀ row ∈ after.organizations, row.id ≠ orgId
  usage : ∀ row ∈ after.usage, row.orgId ≠ orgId
  assets : ∀ row ∈ after.assets, row.orgId ≠ orgId
  memberships : ∀ row ∈ after.memberships, row.orgId ≠ orgId
  orgInvites : ∀ row ∈ after.orgInvites, row.orgId ≠ orgId
  variantSets : ∀ row ∈ after.variantSets, row.orgId ≠ orgId
  questions : ∀ row ∈ after.questions, row.orgId ≠ orgId
  testCases : ∀ row ∈ after.testCases, ¬db.ownsQuestion orgId row.questionId
  assessments : ∀ row ∈ after.assessments, row.orgId ≠ orgId
  slots : ∀ row ∈ after.slots, ¬db.ownsAssessment orgId row.assessmentId
  invites : ∀ row ∈ after.invites, ¬db.ownsInvite orgId row.id
  attempts : ∀ row ∈ after.attempts, ¬db.ownsInvite orgId row.inviteId
  slotVariants : ∀ row ∈ after.slotVariants, ¬db.ownsInvite orgId row.inviteId
  events : ∀ row ∈ after.events, ¬db.ownsInvite orgId row.inviteId
  drafts : ∀ row ∈ after.drafts, ¬db.ownsInvite orgId row.inviteId
  feedback : ∀ row ∈ after.feedback, row.orgId ≠ orgId
  submissions : ∀ row ∈ after.submissions, ¬db.ownsSubmission orgId row.id
  results : ∀ row ∈ after.results, ¬db.ownsSubmission orgId row.submissionId

theorem cleared_purged (db : Database) (orgId : Nat) :
    Cleared orgId db (db.purged orgId) := by
  constructor <;> intro row member <;>
    simpa using (mem_deleteWhere.mp member).2

/-! ## Accounts -/

theorem uniqueKeys_disown (unique : db.UniqueKeys) (interviewerId : Nat) :
    (db.disown interviewerId).UniqueKeys where
  __ := unique
  membership := unique.membership.updateWhere fun _ => rfl
  membershipInterviewer :=
    unique.membershipInterviewer.updateWhere fun _ => rfl
  orgInvite := unique.orgInvite.updateWhere fun _ => rfl
  orgInviteToken := unique.orgInviteToken.updateWhere fun _ => rfl
  variantSet := unique.variantSet.updateWhere fun _ => rfl
  question := unique.question.updateWhere fun _ => rfl
  assessment := unique.assessment.updateWhere fun _ => rfl
  invite := unique.invite.updateWhere fun _ => rfl
  inviteToken := unique.inviteToken.updateWhere fun _ => rfl

theorem foreignKeys_disown (refers : db.ForeignKeys) (interviewerId : Nat) :
    (db.disown interviewerId).ForeignKeys where
  __ := refers
  membershipOrg := Refers.updateWhere refers.membershipOrg fun _ => Or.inr rfl
  membershipInterviewer :=
    Refers.updateWhere refers.membershipInterviewer fun _ => Or.inr rfl
  membershipInvitedBy :=
    Refers.updateWhere refers.membershipInvitedBy fun _ => Or.inl rfl
  orgInviteOrg := Refers.updateWhere refers.orgInviteOrg fun _ => Or.inr rfl
  orgInviteInvitedBy :=
    Refers.updateWhere refers.orgInviteInvitedBy fun _ => Or.inl rfl
  variantSetOwner :=
    Refers.updateWhere refers.variantSetOwner fun _ => Or.inl rfl
  variantSetOrg := Refers.updateWhere refers.variantSetOrg fun _ => Or.inr rfl
  questionOwner := Refers.updateWhere refers.questionOwner fun _ => Or.inl rfl
  questionOrg := Refers.updateWhere refers.questionOrg fun _ => Or.inr rfl
  questionSet :=
    Refers.updateTargets
      (Refers.updateWhere refers.questionSet fun _ => Or.inr rfl) fun _ => rfl
  testCaseQuestion := Refers.updateTargets refers.testCaseQuestion fun _ => rfl
  assessmentOwner :=
    Refers.updateWhere refers.assessmentOwner fun _ => Or.inl rfl
  assessmentOrg := Refers.updateWhere refers.assessmentOrg fun _ => Or.inr rfl
  slotAssessment := Refers.updateTargets refers.slotAssessment fun _ => rfl
  slotQuestion := Refers.updateTargets refers.slotQuestion fun _ => rfl
  slotSet := Refers.updateTargets refers.slotSet fun _ => rfl
  inviteQuestion :=
    Refers.updateTargets
      (Refers.updateWhere refers.inviteQuestion fun _ => Or.inr rfl)
      fun _ => rfl
  inviteAssessment :=
    Refers.updateTargets
      (Refers.updateWhere refers.inviteAssessment fun _ => Or.inr rfl)
      fun _ => rfl
  inviteSet :=
    Refers.updateTargets
      (Refers.updateWhere refers.inviteSet fun _ => Or.inr rfl) fun _ => rfl
  inviteCreatedBy :=
    Refers.updateWhere refers.inviteCreatedBy fun _ => Or.inl rfl
  attemptInvite := Refers.updateTargets refers.attemptInvite fun _ => rfl
  slotVariantInvite := Refers.updateTargets refers.slotVariantInvite fun _ => rfl
  slotVariantQuestion :=
    Refers.updateTargets refers.slotVariantQuestion fun _ => rfl
  eventInvite := Refers.updateTargets refers.eventInvite fun _ => rfl
  eventQuestion := Refers.updateTargets refers.eventQuestion fun _ => rfl
  draftInvite := Refers.updateTargets refers.draftInvite fun _ => rfl
  draftQuestion := Refers.updateTargets refers.draftQuestion fun _ => rfl
  submissionQuestion :=
    Refers.updateTargets refers.submissionQuestion fun _ => rfl
  submissionInvite := Refers.updateTargets refers.submissionInvite fun _ => rfl

/-- What is cut out of a column is not in it. -/
theorem ne_of_cut {Row : Type} {column : Row → Option Nat}
    {change : Row → Row} {rows : List Row} {row : Row} {interviewerId : Nat}
    (member :
      row ∈ updateWhere (fun row => column row == some interviewerId) change
        rows)
    (cut : ∀ row, column (change row) = none) :
    column row ≠ some interviewerId := by
  rcases mem_updateWhere.mp member with ⟨old, _, _, rfl⟩ | ⟨_, unmatched⟩
  · rw [cut]
    exact nofun
  · simpa using unmatched

/-- An account that has left, and that nothing names any more, can be
deleted. -/
theorem constraints_deleted {interviewerId : Nat}
    (constraints : db.Constraints)
    (seatless : ∀ row ∈ db.memberships, row.interviewerId ≠ interviewerId) :
    Constraints { db.disown interviewerId with
      interviewers :=
        deleteWhere (fun row => row.id == interviewerId)
          (db.disown interviewerId).interviewers } := by
  have unique := uniqueKeys_disown constraints.uniqueKeys interviewerId
  have refers := foreignKeys_disown constraints.foreignKeys interviewerId
  have unnamed {Row : Type} {column : Row → Option Nat} {rows : List Row}
      (cut : ∀ row ∈ rows, column row ≠ some interviewerId) :
      ∀ row ∈ rows, ∀ target ∈ db.interviewers,
        column row = some target.id → ¬(target.id == interviewerId) := by
    intro row member target _ names isTarget
    rw [beq_iff_eq.mp isTarget] at names
    exact cut row member names
  refine ⟨{ unique with
    interviewer := unique.interviewer.deleteWhere
    interviewerEmail := unique.interviewerEmail.deleteWhere }, { refers with
    membershipInterviewer := Refers.deleteTargets refers.membershipInterviewer
      (unnamed ?_)
    membershipInvitedBy := Refers.deleteTargets refers.membershipInvitedBy
      (unnamed fun _ member => ne_of_cut member fun _ => rfl)
    orgInviteInvitedBy := Refers.deleteTargets refers.orgInviteInvitedBy
      (unnamed fun _ member => ne_of_cut member fun _ => rfl)
    variantSetOwner := Refers.deleteTargets refers.variantSetOwner
      (unnamed fun _ member => ne_of_cut member fun _ => rfl)
    questionOwner := Refers.deleteTargets refers.questionOwner
      (unnamed fun _ member => ne_of_cut member fun _ => rfl)
    assessmentOwner := Refers.deleteTargets refers.assessmentOwner
      (unnamed fun _ member => ne_of_cut member fun _ => rfl)
    inviteCreatedBy := Refers.deleteTargets refers.inviteCreatedBy
      (unnamed fun _ member => ne_of_cut member fun _ => rfl) }⟩
  intro row member isSeat
  obtain ⟨old, isOld, rfl⟩ := mem_of_mem_updateWhere member
  apply seatless old isOld
  split at isSeat <;> exact Option.some.inj isSeat

theorem Cleared.disown (cleared : Cleared orgId db after)
    (interviewerId : Nat) : Cleared orgId db (after.disown interviewerId) where
  __ := cleared
  memberships := by
    intro row member
    obtain ⟨old, isOld, rfl⟩ := mem_of_mem_updateWhere member
    have isOther := cleared.memberships old isOld
    split <;> exact isOther
  orgInvites := by
    intro row member
    obtain ⟨old, isOld, rfl⟩ := mem_of_mem_updateWhere member
    have isOther := cleared.orgInvites old isOld
    split <;> exact isOther
  variantSets := by
    intro row member
    obtain ⟨old, isOld, rfl⟩ := mem_of_mem_updateWhere member
    have isOther := cleared.variantSets old isOld
    split <;> exact isOther
  questions := by
    intro row member
    obtain ⟨old, isOld, rfl⟩ := mem_of_mem_updateWhere member
    have isOther := cleared.questions old isOld
    split <;> exact isOther
  assessments := by
    intro row member
    obtain ⟨old, isOld, rfl⟩ := mem_of_mem_updateWhere member
    have isOther := cleared.assessments old isOld
    split <;> exact isOther
  invites := by
    intro row member
    obtain ⟨old, isOld, rfl⟩ := mem_of_mem_updateWhere member
    have isOther := cleared.invites old isOld
    split <;> exact isOther

theorem constraints_unseated (constraints : db.Constraints)
    (matched : Membership → Bool) :
    Constraints { db with
      memberships := deleteWhere matched db.memberships } where
  uniqueKeys :=
    { constraints.uniqueKeys with
      membership := constraints.uniqueKeys.membership.deleteWhere
      membershipInterviewer :=
        constraints.uniqueKeys.membershipInterviewer.deleteWhere }
  foreignKeys :=
    { constraints.foreignKeys with
      membershipOrg :=
        Refers.of_sublist constraints.foreignKeys.membershipOrg
          List.filter_sublist
      membershipInterviewer :=
        Refers.of_sublist constraints.foreignKeys.membershipInterviewer
          List.filter_sublist
      membershipInvitedBy :=
        Refers.of_sublist constraints.foreignKeys.membershipInvitedBy
          List.filter_sublist }

/-- Whether an account may leave: it is not the last admin of others. -/
def MayLeave (db : Database) (interviewerId : Nat) : Prop :=
  ∀ membership, db.membershipFor interviewerId = some membership →
    (∃ row ∈ db.memberships, row.orgId = membership.orgId ∧
      row.interviewerId ≠ interviewerId) →
    lastAdminGuard db membership.orgId interviewerId = .ok ()

/-- The first part of an account's purge runs to its end: the account has no
seat any more, and the organisation of a last member is gone. -/
theorem leaveOrg_succeeds (sound : Sound db) (confined : EventsConfined db)
    {interviewerId : Nat} (mayLeave : MayLeave db interviewerId) :
    ∃ left, db.leaveOrg interviewerId = .ok left ∧ left.Constraints ∧
      (∀ row ∈ left.memberships, row.interviewerId ≠ interviewerId) ∧
      ∀ membership, db.membershipFor interviewerId = some membership →
        (∀ row ∈ db.memberships, row.orgId = membership.orgId →
          row.interviewerId = interviewerId) →
        Cleared membership.orgId db left := by
  unfold leaveOrg
  cases seat : db.membershipFor interviewerId with
  | none =>
      refine ⟨db, rfl, sound.constraints, ?_, nofun⟩
      exact fetch_eq_none.mp seat
  | some membership =>
      have unique := sound.constraints.uniqueKeys.membershipInterviewer
      by_cases others : ∃ row ∈ db.memberships,
          row.orgId = membership.orgId ∧ row.interviewerId ≠ interviewerId
      · have guarded := mayLeave membership seat others
        have constraints := constraints_unseated sound.constraints
          fun row => row.interviewerId == interviewerId
        refine ⟨_, ?_, constraints, ?_, ?_⟩
        · simp only
          rw [if_pos (by simpa using others), guarded]
          exact execute_eq_ok.mpr ⟨constraints, rfl⟩
        · intro row member
          simpa using (mem_deleteWhere.mp member).2
        · intro other isSeat alone
          obtain rfl := Option.some.inj isSeat
          obtain ⟨row, member, inOrg, isOther⟩ := others
          exact absurd (alone row member inOrg) isOther
      · refine ⟨db.purged membership.orgId, ?_,
          constraints_purged sound confined _, ?_, ?_⟩
        · simp only
          rw [if_neg (by simpa using others)]
          exact purgeOrg_eq_ok sound confined _
        · intro row member isAccount
          obtain ⟨isRow, elsewhere⟩ := mem_deleteWhere.mp member
          have same := unique.eq isRow (mem_of_membershipFor seat)
            (isAccount.trans (interviewerId_of_membershipFor seat).symm)
          exact elsewhere (beq_iff_eq.mpr (congrArg Membership.orgId same))
        · intro other isSeat _
          obtain rfl := Option.some.inj isSeat
          exact cleared_purged db _

theorem purgeAccount_succeeds (sound : Sound db) (confined : EventsConfined db)
    {interviewerId : Nat} (mayLeave : MayLeave db interviewerId) :
    ∃ after, db.purgeAccount interviewerId = .ok after ∧ after.Constraints ∧
      (∀ row ∈ after.interviewers, row.id ≠ interviewerId) ∧
      ∀ membership, db.membershipFor interviewerId = some membership →
        (∀ row ∈ db.memberships, row.orgId = membership.orgId →
          row.interviewerId = interviewerId) →
        Cleared membership.orgId db after := by
  obtain ⟨left, leaves, constraints, seatless, cleared⟩ :=
    leaveOrg_succeeds sound confined mayLeave
  have disowned : (left.disown interviewerId).execute =
      .ok (left.disown interviewerId) :=
    execute_eq_ok.mpr ⟨⟨uniqueKeys_disown constraints.uniqueKeys _,
      foreignKeys_disown constraints.foreignKeys _⟩, rfl⟩
  have deleted := constraints_deleted constraints seatless
  refine ⟨_, ?_, deleted, ?_, ?_⟩
  · unfold purgeAccount
    rw [leaves]
    change ((left.disown interviewerId).execute >>= _) = _
    rw [disowned]
    exact execute_eq_ok.mpr ⟨deleted, rfl⟩
  · intro row member
    simpa using (mem_deleteWhere.mp member).2
  · intro membership seat alone
    exact { (cleared membership seat alone).disown interviewerId with }

/-- The purge closes over the foreign keys: as long as integrity events name
questions of their own organisations, the purges of organisations and of
accounts that may leave run to their ends, delete every row of the organisation,
break no reference, and leave the rows of the other organisations. -/
theorem purges_close {trace : List Served} (run : Run deployment trace db)
    (names : ∀ served ∈ trace, served.NamesOwnQuestion deployment) :
    (∀ orgId, ∃ after, db.purgeOrg orgId = .ok after ∧ after.Constraints ∧
      Cleared orgId db after ∧
      ∀ otherId, orgId ≠ otherId →
        after.slice otherId = db.slice otherId) ∧
    ∀ interviewerId, MayLeave db interviewerId →
      ∃ after, db.purgeAccount interviewerId = .ok after ∧
        after.Constraints ∧
        (∀ row ∈ after.interviewers, row.id ≠ interviewerId) ∧
        (∀ membership, db.membershipFor interviewerId = some membership →
          (∀ row ∈ db.memberships, row.orgId = membership.orgId →
            row.interviewerId = interviewerId) →
          Cleared membership.orgId db after) := by
  have sound := run.sound
  have confined := run.eventsConfined names
  constructor
  · intro orgId
    exact ⟨db.purged orgId, purgeOrg_eq_ok sound confined orgId,
      constraints_purged sound confined orgId, cleared_purged db orgId,
      fun otherId other => (sameSlice_purged sound other).slice_eq⟩
  · intro interviewerId mayLeave
    exact purgeAccount_succeeds sound confined mayLeave

/-- Whether a request brings integrity events for a question. -/
def ApiRequest.namesQuestion : ApiRequest → Bool
  | .candidate _ (.events body) => body.questionId.isSome
  | _ => false

theorem namesOwnQuestion_of_not_named
    (unnamed : served.request.namesQuestion = false) :
    served.NamesOwnQuestion deployment := by
  intro token body invite asked _ _ _ question _ named
  rw [asked] at unnamed
  simp [ApiRequest.namesQuestion, named] at unnamed

namespace Scenario

/-- A second organisation with a question of its own. -/
def besideAnother : List Asked :=
  invited ++ [(surroundings 1 'g',
      .register ⟨"b@x", "long enough pw", "Bob", none, none⟩),
    (surroundings 1 'h',
      .member 17 (.createQuestion ⟨⟨"qz", none, testCases⟩, some "qz"⟩))]

/-- The candidate leaves the window, with a question open or with none. -/
def leavesWindow (questionId : Option String) : Asked :=
  behind "e" 3 'i' (.events
    ⟨"c@x", questionId, [⟨"tab_blur", 10, none, none, false⟩]⟩)

end Scenario

open Scenario in
/-- Where a candidate has left the window with no question open, the second
organisation can be deleted. -/
theorem purges_close_beside_another :
    ∃ after,
      (play (besideAnother ++ [leavesWindow none])).2.purgeOrg 18 = .ok after ∧
        after.Constraints ∧
        Cleared 18 (play (besideAnother ++ [leavesWindow none])).2 after := by
  have closes := purges_close
    (run_play (besideAnother ++ [leavesWindow none])) fun served member => by
      apply namesOwnQuestion_of_not_named
      have unnamed : ∀ served ∈ (play (besideAnother ++ [leavesWindow none])).1,
          served.request.namesQuestion = false := by
        decide
      exact unnamed served member
  obtain ⟨after, purged, constraints, cleared, _⟩ := closes.1 18
  exact ⟨after, purged, constraints, cleared⟩

open Scenario in
/-- An event of one organisation that names a question of another one: neither
the other organisation nor its only member can be deleted any more. -/
theorem purge_refused_by_event :
    ∃ trace db, Run Scenario.deployment trace db ∧ MayLeave db 17 ∧
      db.purgeOrg 18 = .error internalError ∧
      db.purgeAccount 17 = .error internalError := by
  refine ⟨_, _, run_play (besideAnother ++ [leavesWindow (some "qz")]), ?_, ?_,
    ?_⟩
  · intro membership seat others
    have isSeat : membership = ⟨19, 18, 17, .admin, none⟩ :=
      Option.some.inj (seat.symm.trans (by decide))
    subst isSeat
    exact absurd others (by decide)
  · decide
  · decide

end AssessmentPlatform
