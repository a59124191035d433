import AssessmentPlatform.Records.Tenancy

/-!
# What belongs to an organisation

The slice of an organisation: its rows, and the rows that hang off its
questions, assessments and invites.  References stay within one organisation, so
no row is in two slices.
-/

namespace AssessmentPlatform

open Rows

variable {db after : Database} {orgId otherId : Nat}

namespace Database

section Ownership

variable (db : Database) (orgId : Nat)

/-- Whether an invite is for a question or an assessment of an organisation. -/
def targets (row : Invite) : Bool :=
  row.questionId.any (db.ownsQuestion orgId) ||
    row.assessmentId.any (db.ownsAssessment orgId)

/-- Whether a submission is on a question or an invite of an organisation. -/
def collects (row : Submission) : Bool :=
  db.ownsQuestion orgId row.questionId ||
    row.inviteId.any (db.ownsInvite orgId)

/-- The rows of an organisation. -/
def slice : Database where
  organizations := db.organizations.filter fun row => row.id == orgId
  usage := db.usage.filter fun row => row.orgId == orgId
  assets := db.assets.filter fun row => row.orgId == orgId
  interviewers := []
  memberships := db.memberships.filter fun row => row.orgId == orgId
  orgInvites := db.orgInvites.filter fun row => row.orgId == orgId
  variantSets := db.variantSets.filter fun row => row.orgId == orgId
  questions := db.questions.filter fun row => row.orgId == orgId
  testCases := db.testCases.filter fun row =>
    db.ownsQuestion orgId row.questionId
  assessments := db.assessments.filter fun row => row.orgId == orgId
  slots := db.slots.filter fun row => db.ownsAssessment orgId row.assessmentId
  invites := db.invites.filter (db.targets orgId)
  attempts := db.attempts.filter fun row => db.ownsInvite orgId row.inviteId
  slotVariants := db.slotVariants.filter fun row =>
    db.ownsInvite orgId row.inviteId
  events := db.events.filter fun row => db.ownsInvite orgId row.inviteId
  drafts := db.drafts.filter fun row => db.ownsInvite orgId row.inviteId
  feedback := db.feedback.filter fun row => row.orgId == orgId
  submissions := db.submissions.filter (db.collects orgId)
  results := db.results.filter fun row =>
    db.ownsSubmission orgId row.submissionId
  nextId := 0

end Ownership

/-! ## Ownership is read off the slice -/

theorem ownsQuestion_of_slice
    (same : after.questions.filter (fun row => row.orgId == orgId) =
      db.questions.filter fun row => row.orgId == orgId) :
    after.ownsQuestion orgId = db.ownsQuestion orgId := by
  funext id
  have any (state : Database) : state.ownsQuestion orgId id =
      (state.questions.filter fun row => row.orgId == orgId).any
        fun row => row.id == id := by
    simp only [ownsQuestion, List.any_filter, Bool.and_comm]
  rw [any, any, same]

theorem ownsAssessment_of_slice
    (same : after.assessments.filter (fun row => row.orgId == orgId) =
      db.assessments.filter fun row => row.orgId == orgId) :
    after.ownsAssessment orgId = db.ownsAssessment orgId := by
  funext id
  have any (state : Database) : state.ownsAssessment orgId id =
      (state.assessments.filter fun row => row.orgId == orgId).any
        fun row => row.id == id := by
    simp only [ownsAssessment, List.any_filter, Bool.and_comm]
  rw [any, any, same]

theorem ownsInvite_of_slice (targets : after.targets orgId = db.targets orgId)
    (same : after.invites.filter (db.targets orgId) =
      db.invites.filter (db.targets orgId)) :
    after.ownsInvite orgId = db.ownsInvite orgId := by
  funext id
  have any (state : Database) : state.ownsInvite orgId id =
      (state.invites.filter (state.targets orgId)).any
        fun row => row.id == id := by
    simp only [ownsInvite, Database.targets, List.any_filter, Bool.and_comm]
  rw [any, any, targets, same]

theorem ownsSubmission_of_slice
    (collects : after.collects orgId = db.collects orgId)
    (same : after.submissions.filter (db.collects orgId) =
      db.submissions.filter (db.collects orgId)) :
    after.ownsSubmission orgId = db.ownsSubmission orgId := by
  funext id
  have any (state : Database) : state.ownsSubmission orgId id =
      (state.submissions.filter (state.collects orgId)).any
        fun row => row.id == id := by
    simp only [ownsSubmission, Database.collects, List.any_filter, Bool.and_comm]
  rw [any, any, collects, same]

/-- Every table has the same rows of an organisation, by the ownership of the
earlier state. -/
structure SameSlice (orgId : Nat) (db after : Database) : Prop where
  organizations :
    after.organizations.filter (fun row => row.id == orgId) =
      db.organizations.filter fun row => row.id == orgId
  usage : after.usage.filter (fun row => row.orgId == orgId) =
    db.usage.filter fun row => row.orgId == orgId
  assets : after.assets.filter (fun row => row.orgId == orgId) =
    db.assets.filter fun row => row.orgId == orgId
  memberships : after.memberships.filter (fun row => row.orgId == orgId) =
    db.memberships.filter fun row => row.orgId == orgId
  orgInvites : after.orgInvites.filter (fun row => row.orgId == orgId) =
    db.orgInvites.filter fun row => row.orgId == orgId
  variantSets : after.variantSets.filter (fun row => row.orgId == orgId) =
    db.variantSets.filter fun row => row.orgId == orgId
  questions : after.questions.filter (fun row => row.orgId == orgId) =
    db.questions.filter fun row => row.orgId == orgId
  testCases :
    after.testCases.filter (fun row => db.ownsQuestion orgId row.questionId) =
      db.testCases.filter fun row => db.ownsQuestion orgId row.questionId
  assessments : after.assessments.filter (fun row => row.orgId == orgId) =
    db.assessments.filter fun row => row.orgId == orgId
  slots :
    after.slots.filter (fun row => db.ownsAssessment orgId row.assessmentId) =
      db.slots.filter fun row => db.ownsAssessment orgId row.assessmentId
  invites : after.invites.filter (db.targets orgId) =
    db.invites.filter (db.targets orgId)
  attempts :
    after.attempts.filter (fun row => db.ownsInvite orgId row.inviteId) =
      db.attempts.filter fun row => db.ownsInvite orgId row.inviteId
  slotVariants :
    after.slotVariants.filter (fun row => db.ownsInvite orgId row.inviteId) =
      db.slotVariants.filter fun row => db.ownsInvite orgId row.inviteId
  events : after.events.filter (fun row => db.ownsInvite orgId row.inviteId) =
    db.events.filter fun row => db.ownsInvite orgId row.inviteId
  drafts : after.drafts.filter (fun row => db.ownsInvite orgId row.inviteId) =
    db.drafts.filter fun row => db.ownsInvite orgId row.inviteId
  feedback : after.feedback.filter (fun row => row.orgId == orgId) =
    db.feedback.filter fun row => row.orgId == orgId
  submissions : after.submissions.filter (db.collects orgId) =
    db.submissions.filter (db.collects orgId)
  results :
    after.results.filter (fun row => db.ownsSubmission orgId row.submissionId) =
      db.results.filter fun row => db.ownsSubmission orgId row.submissionId

theorem SameSlice.refl (orgId : Nat) (db : Database) :
    SameSlice orgId db db := by
  constructor <;> rfl

theorem SameSlice.slice_eq (same : SameSlice orgId db after) :
    after.slice orgId = db.slice orgId := by
  have questions := ownsQuestion_of_slice same.questions
  have assessments := ownsAssessment_of_slice same.assessments
  have targets : after.targets orgId = db.targets orgId := by
    unfold Database.targets
    rw [questions, assessments]
  have invites := ownsInvite_of_slice targets same.invites
  have collects : after.collects orgId = db.collects orgId := by
    unfold Database.collects
    rw [questions, invites]
  have submissions := ownsSubmission_of_slice collects same.submissions
  unfold slice
  rw [questions, assessments, targets, invites, collects, submissions,
    same.organizations, same.usage, same.assets, same.memberships,
    same.orgInvites, same.variantSets, same.questions, same.testCases,
    same.assessments, same.slots, same.invites, same.attempts,
    same.slotVariants, same.events, same.drafts, same.feedback,
    same.submissions, same.results]

/-! ## One owner -/

section Owners

/-- The organisation of an invite, by its key. -/
def inviteOwner (db : Database) (id : Nat) : Option Nat :=
  (fetch Invite.id id db.invites).bind db.inviteOrg

/-- The organisation of a submission, by its key. -/
def submissionOwner (db : Database) (id : String) : Option Nat :=
  (fetch Submission.id id db.submissions).bind fun row =>
    db.questionOrg row.questionId

theorem ownsQuestion_iff (keys : db.UniqueKeys) {id : String} :
    db.ownsQuestion orgId id ↔ db.questionOrg id = some orgId := by
  simp only [ownsQuestion, List.any_eq_true, Bool.and_eq_true, beq_iff_eq,
    questionOrg, Option.map_eq_some_iff]
  constructor
  · rintro ⟨row, member, isKey, isOrg⟩
    exact ⟨row, keys.question.fetch_eq member isKey, isOrg⟩
  · rintro ⟨row, found, isOrg⟩
    exact ⟨row, mem_of_fetch found, key_of_fetch found, isOrg⟩

theorem ownsAssessment_iff (keys : db.UniqueKeys) {id : String} :
    db.ownsAssessment orgId id ↔ db.assessmentOrg id = some orgId := by
  simp only [ownsAssessment, List.any_eq_true, Bool.and_eq_true, beq_iff_eq,
    assessmentOrg, Option.map_eq_some_iff]
  constructor
  · rintro ⟨row, member, isKey, isOrg⟩
    exact ⟨row, keys.assessment.fetch_eq member isKey, isOrg⟩
  · rintro ⟨row, found, isOrg⟩
    exact ⟨row, mem_of_fetch found, key_of_fetch found, isOrg⟩

theorem targets_iff (keys : db.UniqueKeys) {row : Invite}
    (single : row.questionId.isSome = row.assessmentId.isNone) :
    db.targets orgId row ↔ db.inviteOrg row = some orgId := by
  unfold targets inviteOrg
  cases isQuestion : row.questionId with
  | none =>
      cases isAssessment : row.assessmentId with
      | none => simp
      | some id => simpa using ownsAssessment_iff keys
  | some questionId =>
      cases isAssessment : row.assessmentId with
      | none => simpa using ownsQuestion_iff keys
      | some id => simp [isQuestion, isAssessment] at single

theorem ownsInvite_iff (sound : Sound db) {id : Nat} :
    db.ownsInvite orgId id ↔ db.inviteOwner id = some orgId := by
  have keys := sound.constraints.uniqueKeys
  simp only [ownsInvite, List.any_eq_true, Bool.and_eq_true, beq_iff_eq,
    inviteOwner, Option.bind_eq_some_iff]
  constructor
  · rintro ⟨row, member, isKey, isTarget⟩
    have single := sound.tenancy.inviteOne row member
    exact ⟨row, keys.invite.fetch_eq member isKey,
      (targets_iff keys single).mp isTarget⟩
  · rintro ⟨row, found, isOrg⟩
    have single := sound.tenancy.inviteOne row (mem_of_fetch found)
    exact ⟨row, mem_of_fetch found, key_of_fetch found,
      (targets_iff keys single).mpr isOrg⟩

theorem inviteOwner_eq (keys : db.UniqueKeys) {invite : Invite}
    (member : invite ∈ db.invites) :
    db.inviteOwner invite.id = db.inviteOrg invite := by
  simp [inviteOwner, keys.invite.fetch_eq member rfl]

/-- An invite belongs to the organisation behind it. -/
theorem inviteOrg_of_belongs (sound : Sound db) {invite : Invite}
    (member : invite ∈ db.invites) (belongs : BelongsTo db invite orgId) :
    db.inviteOrg invite = some orgId := by
  have keys := sound.constraints.uniqueKeys
  have refers := sound.constraints.foreignKeys
  have single := sound.tenancy.inviteOne invite member
  unfold inviteOrg
  cases isQuestion : invite.questionId with
  | none =>
      cases isAssessment : invite.assessmentId with
      | none => simp [isQuestion, isAssessment] at single
      | some id =>
          obtain ⟨assessment, isRow, rfl⟩ :=
            refers.inviteAssessment invite member id isAssessment
          simp [assessmentOrg, keys.assessment.fetch_eq isRow rfl,
            belongs.2 assessment isRow isAssessment]
  | some id =>
      cases isAssessment : invite.assessmentId with
      | some _ => simp [isQuestion, isAssessment] at single
      | none =>
          obtain ⟨question, isRow, rfl⟩ :=
            refers.inviteQuestion invite member id isQuestion
          simp [questionOrg, keys.question.fetch_eq isRow rfl,
            belongs.1 question isRow isQuestion]

/-- A submission by an invite is in the organisation of the invite. -/
theorem submission_owner (sound : Sound db) {row : Submission}
    {inviteId : Nat} (member : row ∈ db.submissions)
    (named : row.inviteId = some inviteId) :
    db.inviteOwner inviteId = db.questionOrg row.questionId := by
  have keys := sound.constraints.uniqueKeys
  obtain ⟨question, isQuestion, isKey⟩ :=
    sound.constraints.foreignKeys.submissionQuestion row member _ rfl
  obtain ⟨invite, isInvite, rfl⟩ :=
    sound.constraints.foreignKeys.submissionInvite row member _ named
  have belongs := sound.tenancy.submission row member invite isInvite named
    question isQuestion isKey
  rw [inviteOwner_eq keys isInvite, inviteOrg_of_belongs sound isInvite belongs,
    ← isKey, questionOrg, keys.question.fetch_eq isQuestion rfl,
    Option.map_some]

/-- What a row on an invite of an organisation belongs to. -/
theorem ownsInvite_of_belongs (sound : Sound db) {invite : Invite}
    (member : invite ∈ db.invites) (belongs : BelongsTo db invite orgId) :
    db.ownsInvite orgId invite.id := by
  rw [ownsInvite_iff sound,
    inviteOwner_eq sound.constraints.uniqueKeys member]
  exact inviteOrg_of_belongs sound member belongs

/-- The feedback on an attempt is in the organisation of its invite. -/
theorem ownsInvite_of_feedback (sound : Sound db) {row : CandidateFeedback}
    {attempt : CandidateAttempt} (member : row ∈ db.feedback)
    (isAttempt : attempt ∈ db.attempts) (isKey : attempt.id = row.attemptId) :
    db.ownsInvite row.orgId attempt.inviteId := by
  obtain ⟨invite, isInvite, isInviteKey⟩ :=
    sound.constraints.foreignKeys.attemptInvite attempt isAttempt _ rfl
  have belongs := sound.tenancy.feedback row member attempt isAttempt isKey
    invite isInvite isInviteKey
  rw [← isInviteKey]
  exact ownsInvite_of_belongs sound isInvite belongs

theorem collects_iff (sound : Sound db) {row : Submission}
    (member : row ∈ db.submissions) :
    db.collects orgId row ↔ db.questionOrg row.questionId = some orgId := by
  have keys := sound.constraints.uniqueKeys
  unfold collects
  cases named : row.inviteId with
  | none => simpa using ownsQuestion_iff keys
  | some inviteId =>
      simp only [Option.any_some, Bool.or_eq_true, ownsQuestion_iff keys,
        ownsInvite_iff sound, submission_owner sound member named, or_self]

theorem ownsSubmission_iff (sound : Sound db) {id : String} :
    db.ownsSubmission orgId id ↔ db.submissionOwner id = some orgId := by
  have keys := sound.constraints.uniqueKeys
  simp only [ownsSubmission, List.any_eq_true, Bool.and_eq_true, beq_iff_eq,
    submissionOwner, Option.bind_eq_some_iff]
  constructor
  · rintro ⟨row, member, isKey, isCollected⟩
    exact ⟨row, keys.submission.fetch_eq member isKey,
      (collects_iff sound member).mp isCollected⟩
  · rintro ⟨row, found, isOrg⟩
    exact ⟨row, mem_of_fetch found, key_of_fetch found,
      (collects_iff sound (mem_of_fetch found)).mpr isOrg⟩

theorem mem_orgInviteIds (keys : db.UniqueKeys) {id : Nat} :
    id ∈ db.orgInviteIds orgId ↔ db.ownsInvite orgId id := by
  have question (named : Option String) :
      (named.bind db.questionOrg == some orgId) =
        named.any (db.ownsQuestion orgId) := by
    cases named with
    | none => rfl
    | some questionId =>
        rw [Bool.eq_iff_iff, Option.any_some, ownsQuestion_iff keys]
        simp
  have assessment (named : Option String) :
      (named.bind db.assessmentOrg == some orgId) =
        named.any (db.ownsAssessment orgId) := by
    cases named with
    | none => rfl
    | some assessmentId =>
        rw [Bool.eq_iff_iff, Option.any_some, ownsAssessment_iff keys]
        simp
  simp only [orgInviteIds, ownsInvite, question, assessment, List.mem_map,
    List.mem_filter, List.any_eq_true, Bool.and_eq_true, beq_iff_eq]
  constructor
  · rintro ⟨row, ⟨member, isTarget⟩, isKey⟩
    exact ⟨row, member, isKey, isTarget⟩
  · rintro ⟨row, member, isKey, isTarget⟩
    exact ⟨row, ⟨member, isTarget⟩, isKey⟩

/-! ## No row is in two slices -/

theorem ownsQuestion_of_mem {question : Question}
    (member : question ∈ db.questions) (isOrg : question.orgId = orgId) :
    db.ownsQuestion orgId question.id := by
  simp only [ownsQuestion, List.any_eq_true, Bool.and_eq_true, beq_iff_eq]
  exact ⟨question, member, rfl, isOrg⟩

theorem ownsAssessment_of_mem {assessment : Assessment}
    (member : assessment ∈ db.assessments)
    (isOrg : assessment.orgId = orgId) :
    db.ownsAssessment orgId assessment.id := by
  simp only [ownsAssessment, List.any_eq_true, Bool.and_eq_true, beq_iff_eq]
  exact ⟨assessment, member, rfl, isOrg⟩

/-- An invite is owned when its target is. -/
theorem ownsInvite_iff_targets (keys : db.UniqueKeys) {invite : Invite}
    (member : invite ∈ db.invites) :
    db.ownsInvite orgId invite.id ↔ db.targets orgId invite := by
  simp only [ownsInvite, List.any_eq_true, Bool.and_eq_true, beq_iff_eq]
  constructor
  · intro ⟨row, isRow, isKey, isTarget⟩
    obtain rfl := keys.invite.eq isRow member isKey
    exact isTarget
  · intro isTarget
    exact ⟨invite, member, rfl, isTarget⟩

theorem ownsSubmission_iff_collects (keys : db.UniqueKeys) {row : Submission}
    (member : row ∈ db.submissions) :
    db.ownsSubmission orgId row.id ↔ db.collects orgId row := by
  simp only [ownsSubmission, List.any_eq_true, Bool.and_eq_true, beq_iff_eq]
  constructor
  · intro ⟨other, isOther, isKey, isCollected⟩
    obtain rfl := keys.submission.eq isOther member isKey
    exact isCollected
  · intro isCollected
    exact ⟨row, member, rfl, isCollected⟩

/-- What one organisation owns, no other one does. -/
theorem eq_false_of_owner {mine theirs : Bool} {owner : Option Nat}
    (isMine : mine ↔ owner = some orgId)
    (isTheirs : theirs ↔ owner = some otherId) (owned : mine)
    (other : orgId ≠ otherId) : theirs = false := by
  rw [Bool.eq_false_iff]
  intro alsoOwned
  rw [isTheirs, isMine.mp owned] at alsoOwned
  exact other (Option.some.inj alsoOwned)

theorem eq_false_of_column {column : Nat} (isRow : column == orgId)
    (other : orgId ≠ otherId) : (column == otherId) = false := by
  obtain rfl := beq_iff_eq.mp isRow
  exact beq_eq_false_iff_ne.mpr other

theorem ownsQuestion_apart (keys : db.UniqueKeys) {id : String}
    (owned : db.ownsQuestion orgId id) (other : orgId ≠ otherId) :
    db.ownsQuestion otherId id = false :=
  eq_false_of_owner (ownsQuestion_iff keys) (ownsQuestion_iff keys) owned other

theorem ownsAssessment_apart (keys : db.UniqueKeys) {id : String}
    (owned : db.ownsAssessment orgId id) (other : orgId ≠ otherId) :
    db.ownsAssessment otherId id = false :=
  eq_false_of_owner (ownsAssessment_iff keys) (ownsAssessment_iff keys) owned
    other

theorem targets_apart (keys : db.UniqueKeys) {row : Invite}
    (single : row.questionId.isSome = row.assessmentId.isNone)
    (owned : db.targets orgId row) (other : orgId ≠ otherId) :
    db.targets otherId row = false :=
  eq_false_of_owner (targets_iff keys single) (targets_iff keys single) owned
    other

theorem ownsInvite_apart (sound : Sound db) {id : Nat}
    (owned : db.ownsInvite orgId id) (other : orgId ≠ otherId) :
    db.ownsInvite otherId id = false :=
  eq_false_of_owner (ownsInvite_iff sound) (ownsInvite_iff sound) owned other

theorem collects_apart (sound : Sound db) {row : Submission}
    (member : row ∈ db.submissions) (owned : db.collects orgId row)
    (other : orgId ≠ otherId) : db.collects otherId row = false :=
  eq_false_of_owner (collects_iff sound member) (collects_iff sound member)
    owned other

theorem ownsSubmission_apart (sound : Sound db) {id : String}
    (owned : db.ownsSubmission orgId id) (other : orgId ≠ otherId) :
    db.ownsSubmission otherId id = false :=
  eq_false_of_owner (ownsSubmission_iff sound) (ownsSubmission_iff sound) owned
    other

/-- Rows that another organisation owns are no rows of the slice. -/
theorem sameSlice_purged (sound : Sound db) (other : orgId ≠ otherId) :
    SameSlice otherId db (db.purged orgId) where
  organizations := by
    apply filter_deleteWhere
    intro row _ isRow
    exact eq_false_of_column isRow other
  usage := by
    apply filter_deleteWhere
    intro row _ isRow
    exact eq_false_of_column isRow other
  assets := by
    apply filter_deleteWhere
    intro row _ isRow
    exact eq_false_of_column isRow other
  memberships := by
    apply filter_deleteWhere
    intro row _ isRow
    exact eq_false_of_column isRow other
  orgInvites := by
    apply filter_deleteWhere
    intro row _ isRow
    exact eq_false_of_column isRow other
  variantSets := by
    apply filter_deleteWhere
    intro row _ isRow
    exact eq_false_of_column isRow other
  questions := by
    apply filter_deleteWhere
    intro row _ isRow
    exact eq_false_of_column isRow other
  testCases := by
    apply filter_deleteWhere
    intro row _ owned
    exact ownsQuestion_apart sound.constraints.uniqueKeys owned other
  assessments := by
    apply filter_deleteWhere
    intro row _ isRow
    exact eq_false_of_column isRow other
  slots := by
    apply filter_deleteWhere
    intro row _ owned
    exact ownsAssessment_apart sound.constraints.uniqueKeys owned other
  invites := by
    apply filter_deleteWhere
    intro row member owned
    rw [ownsInvite_iff_targets sound.constraints.uniqueKeys member] at owned
    exact targets_apart sound.constraints.uniqueKeys
      (sound.tenancy.inviteOne row member) owned other
  attempts := by
    apply filter_deleteWhere
    intro row _ owned
    exact ownsInvite_apart sound owned other
  slotVariants := by
    apply filter_deleteWhere
    intro row _ owned
    exact ownsInvite_apart sound owned other
  events := by
    apply filter_deleteWhere
    intro row _ owned
    exact ownsInvite_apart sound owned other
  drafts := by
    apply filter_deleteWhere
    intro row _ owned
    exact ownsInvite_apart sound owned other
  feedback := by
    apply filter_deleteWhere
    intro row _ isRow
    exact eq_false_of_column isRow other
  submissions := by
    apply filter_deleteWhere
    intro row member owned
    rw [ownsSubmission_iff_collects sound.constraints.uniqueKeys member]
      at owned
    exact collects_apart sound member owned other
  results := by
    apply filter_deleteWhere
    intro row _ owned
    exact ownsSubmission_apart sound owned other

end Owners

/-! ## Cutting an account out -/

section Disown

variable (db : Database) (interviewerId : Nat)

theorem ownsQuestion_disown :
    (db.disown interviewerId).ownsQuestion = db.ownsQuestion := by
  funext orgId id
  simp only [ownsQuestion, disown, updateWhere, List.any_map]
  congr 1
  funext row
  dsimp only [Function.comp]
  split <;> rfl

theorem ownsAssessment_disown :
    (db.disown interviewerId).ownsAssessment = db.ownsAssessment := by
  funext orgId id
  simp only [ownsAssessment, disown, updateWhere, List.any_map]
  congr 1
  funext row
  dsimp only [Function.comp]
  split <;> rfl

theorem targets_disown :
    (db.disown interviewerId).targets = db.targets := by
  unfold targets
  rw [ownsQuestion_disown, ownsAssessment_disown]

theorem ownsInvite_disown :
    (db.disown interviewerId).ownsInvite = db.ownsInvite := by
  funext orgId id
  simp only [ownsInvite, ownsQuestion_disown, ownsAssessment_disown]
  simp only [disown, updateWhere, List.any_map]
  congr 1
  funext row
  dsimp only [Function.comp]
  split <;> rfl

theorem collects_disown :
    (db.disown interviewerId).collects = db.collects := by
  unfold collects
  rw [ownsQuestion_disown, ownsInvite_disown]

theorem ownsSubmission_disown :
    (db.disown interviewerId).ownsSubmission = db.ownsSubmission := by
  funext orgId id
  simp only [ownsSubmission, ownsQuestion_disown, ownsInvite_disown]
  rfl

/-- Cutting an account out cuts it out of every slice. -/
theorem slice_disown (orgId : Nat) :
    (db.disown interviewerId).slice orgId =
      (db.slice orgId).disown interviewerId := by
  unfold slice
  rw [ownsQuestion_disown, ownsAssessment_disown, targets_disown,
    ownsInvite_disown, collects_disown, ownsSubmission_disown]
  unfold disown
  congr 1 <;> exact filter_updateWhere_comm fun _ _ _ => rfl

end Disown

end Database

end AssessmentPlatform
