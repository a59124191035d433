import AssessmentPlatform.Grading.Effects
import AssessmentPlatform.Grading.Statements

/-!
# The rows of one sitting

A sitting is one candidate on one invite.  Without erasures its submissions
and its attempt stay where they are: there is one attempt, there are no more
submissions than slots, and no submission without the attempt.
-/

namespace AssessmentPlatform

open Interleaving RowTable

variable {platform : Platform} {requests : Nat → Request} {tid : Nat}
variable {answer : AgentAnswer} {op : Op} {before after store : Store}
variable {resp : Resp op}

/-! ## Sittings -/

/-- One candidate's sitting on one invite. -/
structure Sitting where
  invite : Invite
  email : String

/-- The submission belongs to the sitting. -/
def Sitting.submitted (sitting : Sitting) (row : Submission) : Bool :=
  Store.ofSitting sitting.invite.id sitting.email row

/-- The attempt belongs to the sitting. -/
def Sitting.attempted (sitting : Sitting) (row : CandidateAttempt) : Bool :=
  row.inviteId == sitting.invite.id && row.candidateEmail == sitting.email

namespace Store

/-- The terminal submissions of a sitting. -/
def graded (store : Store) (sitting : Sitting) : List String :=
  store.submissions.select (isGraded sitting.invite.id sitting.email)

/-- The number of terminal submissions has reached the slot count. -/
def Complete (store : Store) (platform : Platform) (sitting : Sitting) :
    Prop :=
  platform.slotCount sitting.invite ≤ (store.graded sitting).length

instance (sitting : Sitting) :
    Decidable (store.Complete platform sitting) :=
  inferInstanceAs (Decidable (_ ≤ _))

/-- The notified stamp of the sitting is set. -/
def Notified (store : Store) (sitting : Sitting) : Prop :=
  ∃ id row, store.attempts.row id = some row ∧ sitting.attempted row ∧
    row.resultsNotifiedAt.isSome

/-- A committed submission of the sitting. -/
def Submitted (store : Store) (sitting : Sitting) (id : String) : Prop :=
  ∃ row, store.submissions.row id = some row ∧ sitting.submitted row

/-- There is an attempt of the address on the invite. -/
def Attended (store : Store) (inviteId : Nat) (email : String) : Prop :=
  ∃ id row, store.attempts.row id = some row ∧ row.inviteId = inviteId ∧
    row.candidateEmail = email

end Store

@[simp]
theorem Sitting.submitted_iff {sitting : Sitting} {row : Submission} :
    sitting.submitted row ↔
      row.inviteId = some sitting.invite.id ∧
        row.candidateEmail = some sitting.email := by
  simp [Sitting.submitted, Store.ofSitting]

@[simp]
theorem Sitting.attempted_iff {sitting : Sitting} {row : CandidateAttempt} :
    sitting.attempted row ↔
      row.inviteId = sitting.invite.id ∧
        row.candidateEmail = sitting.email := by
  simp [Sitting.attempted]

theorem isGraded_iff {sitting : Sitting} {row : Submission} :
    Store.isGraded sitting.invite.id sitting.email row ↔
      sitting.submitted row ∧ row.status.terminal := by
  simp [Store.isGraded, and_assoc]

/-- The columns of `uq_submission_invite_candidate_question`. -/
def Submission.label (row : Submission) : Option (Nat × String × String) :=
  match row.inviteId, row.candidateEmail with
  | some inviteId, some email => some (inviteId, email, row.questionId)
  | _, _ => none

/-- The columns of `uq_attempt_invite_candidate`. -/
def CandidateAttempt.label (row : CandidateAttempt) :
    Option (Nat × String) :=
  some (row.inviteId, row.candidateEmail)

/-- A submission with an invite was let in by the invite: the invite exists,
the address is not empty, and the question is one that the invite presents. -/
def Platform.Admitted (platform : Platform) (row : Submission) : Prop :=
  ∀ ⦃inviteId⦄, row.inviteId = some inviteId →
    ∃ invite email, platform.invite inviteId = some invite ∧
      row.candidateEmail = some email ∧ email ≠ "" ∧
        row.questionId ∈ platform.inviteQuestions invite email

/-! ## Writes -/

/-- An update of a submission that leaves it in its sitting; one that counts an
attempt leaves it open. -/
structure Submission.Kept (row value : Submission) : Prop where
  inviteId : value.inviteId = row.inviteId
  candidateEmail : value.candidateEmail = row.candidateEmail
  questionId : value.questionId = row.questionId
  attempts : value.attempts ≠ row.attempts → value.status.terminal = false

/-- An update of an attempt that leaves it in its sitting; only a retry clears
the stamp. -/
structure CandidateAttempt.Kept
    (request : Request) (row value : CandidateAttempt) : Prop where
  inviteId : value.inviteId = row.inviteId
  candidateEmail : value.candidateEmail = row.candidateEmail
  stamp :
    row.resultsNotifiedAt.isSome → value.resultsNotifiedAt = none →
      request.isRetry

/-- What may be staged on a submission. -/
structure SittingWrite
    (_tid : Nat) (_id : String) (row : Option Submission)
    (value : Submission) : Prop where
  kept : ∀ {current}, row = some current → current.Kept value
  inserted : row = none → value.status = .pending

/-- What may be staged on an attempt. -/
structure StampWrite
    (requests : Nat → Request) (tid _id : Nat)
    (row : Option CandidateAttempt) (value : CandidateAttempt) : Prop where
  kept : ∀ {current}, row = some current → current.Kept (requests tid) value
  inserted : row = none → value.resultsNotifiedAt = none

/-- Statements that leave every row in its sitting. -/
def Op.keepsSittings (platform : Platform) (request : Request) : Op → Prop
  | .insertSubmission row => row.status = .pending ∧ platform.Admitted row
  | .casSubmission _ _ _ values =>
      values.attempts.isSome → values.status.terminal = false
  | .insertAttempt row => row.resultsNotifiedAt = none
  | .clearStamp .. => request.isRetry
  | .eraseSubmissions .. | .eraseAttempts .. | .eraseResults _ => False
  | _ => True

/-! ## The invariant -/

/-- The rows of every sitting. -/
structure SittingRows
    (platform : Platform) (requests : Nat → Request) (store : Store) :
    Prop where
  wellFormed : store.WellFormed
  submissionLabels : store.submissions.Unique Submission.label
  attemptLabels : store.attempts.Unique CandidateAttempt.label
  admitted :
    ∀ {id row}, store.submissions.Present id row → platform.Admitted row
  attended :
    ∀ {id row inviteId email}, store.submissions.Present id row →
      row.inviteId = some inviteId → row.candidateEmail = some email →
        store.Attended inviteId email
  submissionWrites : store.submissions.Staged SittingWrite
  attemptWrites : store.attempts.Staged (StampWrite requests)
  copies :
    ∀ {tid id copy}, store.session tid id = some copy →
      ∃ row, store.submissions.row id = some row ∧
        copy.inviteId = row.inviteId ∧
          copy.candidateEmail = row.candidateEmail

/-- A committed submission stays in its sitting. -/
theorem SittingRows.submission_kept
    (rows : SittingRows platform requests before)
    (moves : Store.Moves tid before after) {id : String} {row : Submission}
    (found : before.submissions.row id = some row) :
    ∃ later, after.submissions.row id = some later ∧
      later.inviteId = row.inviteId ∧
        later.candidateEmail = row.candidateEmail ∧
          later.questionId = row.questionId := by
  rcases rows.submissionWrites.change moves.submissions id with
    same | ⟨value, -, committed, write⟩
  · exact ⟨row, same ▸ found, rfl, rfl, rfl⟩
  · have kept := write.kept found
    exact
      ⟨value, committed, kept.inviteId, kept.candidateEmail, kept.questionId⟩

/-- A committed attempt stays in its sitting. -/
theorem SittingRows.attempt_kept
    (rows : SittingRows platform requests before)
    (moves : Store.Moves tid before after) {id : Nat} {row : CandidateAttempt}
    (found : before.attempts.row id = some row) :
    ∃ later, after.attempts.row id = some later ∧
      later.inviteId = row.inviteId ∧
        later.candidateEmail = row.candidateEmail := by
  rcases rows.attemptWrites.change moves.attempts id with
    same | ⟨value, -, committed, write⟩
  · exact ⟨row, same ▸ found, rfl, rfl⟩
  · have kept := write.kept found
    exact ⟨value, committed, kept.inviteId, kept.candidateEmail⟩

theorem Store.Submitted.moves
    {sitting : Sitting} {id : String}
    (submitted : before.Submitted sitting id)
    (rows : SittingRows platform requests before)
    (moves : Store.Moves tid before after) :
    after.Submitted sitting id := by
  obtain ⟨row, found, isSubmitted⟩ := submitted
  obtain ⟨later, foundLater, inviteId, email, -⟩ :=
    rows.submission_kept moves found
  rw [Sitting.submitted_iff] at isSubmitted
  refine ⟨later, foundLater, Sitting.submitted_iff.mpr ?_⟩
  rw [inviteId, email]
  exact isSubmitted

theorem Store.Attended.moves
    {inviteId : Nat} {email : String}
    (attended : before.Attended inviteId email)
    (rows : SittingRows platform requests before)
    (moves : Store.Moves tid before after) :
    after.Attended inviteId email := by
  obtain ⟨id, row, found, isInvite, isEmail⟩ := attended
  obtain ⟨later, foundLater, sameInvite, sameEmail⟩ :=
    rows.attempt_kept moves found
  exact
    ⟨id, later, foundLater, sameInvite.trans isInvite,
      sameEmail.trans isEmail⟩

theorem SittingWrite.of_kept
    {id : String} {row value : Submission} (kept : row.Kept value) :
    SittingWrite tid id (some row) value :=
  ⟨by rintro _ ⟨⟩; exact kept, nofun⟩

theorem StampWrite.of_kept
    {id : Nat} {row value : CandidateAttempt}
    (kept : row.Kept (requests tid) value) :
    StampWrite requests tid id (some row) value :=
  ⟨by rintro _ ⟨⟩; exact kept, nofun⟩

theorem SubmissionWrite.sittingWrite
    {id : String} {value : Submission}
    (write : SubmissionWrite before op id value)
    (keeps : op.keepsSittings platform (requests tid)) :
    SittingWrite tid id (before.submissions.row id) value := by
  cases write with
  | insert fresh =>
      rw [fresh]
      exact ⟨nofun, fun _ => keeps.1⟩
  | cas found =>
      rw [found]
      refine .of_kept ⟨rfl, rfl, rfl, fun counted => keeps ?_⟩
      rw [Option.isSome_iff_ne_none]
      intro unchanged
      exact counted (by simp [SubmissionChange.apply, unchanged])
  | save found =>
      rw [found]
      exact .of_kept ⟨rfl, rfl, rfl, fun counted => absurd rfl counted⟩
  | erase => exact keeps.elim

theorem AttemptWrite.stampWrite
    {id : Nat} {value : CandidateAttempt}
    (write : AttemptWrite platform before op id value)
    (keeps : op.keepsSittings platform (requests tid)) :
    StampWrite requests tid id (before.attempts.row id) value := by
  cases write with
  | insert fresh =>
      rw [fresh]
      exact ⟨nofun, fun _ => keeps⟩
  | @name _ _ row found =>
      rw [found]
      refine .of_kept ⟨rfl, rfl, fun stamped cleared => ?_⟩
      have unstamped : row.resultsNotifiedAt = none := cleared
      rw [unstamped] at stamped
      cases stamped
  | stamp found =>
      rw [found]
      exact .of_kept ⟨rfl, rfl, fun _ cleared => nomatch cleared⟩
  | clear found =>
      rw [found]
      exact .of_kept ⟨rfl, rfl, fun _ _ => keeps⟩
  | erase => exact keeps.elim

/-- The label of a submission is the one of its row, or a new one. -/
theorem SubmissionWrite.relabels
    {id : String} {value : Submission}
    (write : SubmissionWrite before op id value)
    (keeps : op.keepsSittings platform (requests tid))
    (listed : before.submissions.Listed) :
    before.submissions.Relabels Submission.label id value := by
  cases write with
  | insert fresh free =>
      refine free.relabels listed ?_
      intro row shared rowLabel valueLabel
      simp only [Submission.label] at rowLabel valueLabel
      grind [Store.sameSubmissionKey]
  | cas found => exact Or.inl ⟨_, found, rfl⟩
  | save found => exact Or.inl ⟨_, found, rfl⟩
  | erase => exact keeps.elim

/-- The label of an attempt is the one of its row, or a new one. -/
theorem AttemptWrite.relabels
    {id : Nat} {value : CandidateAttempt}
    (write : AttemptWrite platform before op id value)
    (keeps : op.keepsSittings platform (requests tid))
    (listed : before.attempts.Listed) :
    before.attempts.Relabels CandidateAttempt.label id value := by
  cases write with
  | insert fresh free =>
      refine free.relabels listed ?_
      intro row shared rowLabel valueLabel
      have same := rowLabel.trans valueLabel.symm
      simp only [CandidateAttempt.label, Option.some.injEq,
        Prod.mk.injEq] at same
      simp [Store.sameAttemptKey, same]
  | name found => exact Or.inl ⟨_, found, rfl⟩
  | stamp found => exact Or.inl ⟨_, found, rfl⟩
  | clear found => exact Or.inl ⟨_, found, rfl⟩
  | erase => exact keeps.elim

/-- A submission that a statement stages is admitted. -/
theorem SubmissionWrite.admitted
    {id : String} {value : Submission}
    (write : SubmissionWrite before op id value)
    (keeps : op.keepsSittings platform (requests tid))
    (rows : SittingRows platform requests before) :
    platform.Admitted value := by
  cases write with
  | insert => exact keeps.2
  | cas found =>
      exact fun _ isInvite => rows.admitted (Or.inl found) isInvite
  | save found =>
      exact fun _ isInvite => rows.admitted (Or.inl found) isInvite
  | erase => exact keeps.elim

/-- A submission that a statement stages has its attempt. -/
theorem SubmissionWrite.attended
    {id : String} {value : Submission} {inviteId : Nat} {email : String}
    (write : SubmissionWrite before op id value)
    (keeps : op.keepsSittings platform (requests tid))
    (rows : SittingRows platform requests before)
    (started :
      ∀ row, op = .insertSubmission row → row.inviteId = some inviteId →
        row.candidateEmail = some email → before.Attended inviteId email)
    (isInvite : value.inviteId = some inviteId)
    (isEmail : value.candidateEmail = some email) :
    before.Attended inviteId email := by
  cases write with
  | insert => exact started value rfl isInvite isEmail
  | cas found => exact rows.attended (Or.inl found) isInvite isEmail
  | save found => exact rows.attended (Or.inl found) isInvite isEmail
  | erase => exact keeps.elim

/-- One statement keeps the rows of every sitting. -/
theorem SittingRows.exec
    (rows : SittingRows platform requests before)
    (keeps : op.keepsSittings platform (requests tid))
    (started :
      ∀ row inviteId email, op = .insertSubmission row →
        row.inviteId = some inviteId → row.candidateEmail = some email →
          before.Attended inviteId email)
    (executes :
      AssessmentPlatform.exec platform op tid answer before =
        some (resp, after)) :
    SittingRows platform requests after := by
  have submissions := exec_submissions rows.wellFormed.submissions executes
  have attempts := exec_attempts rows.wellFormed.attempts executes
  have moves := rows.wellFormed.moves executes
  have present :
      ∀ {id row}, after.submissions.Present id row →
        before.submissions.Present id row ∨
          SubmissionWrite before op id row :=
    submissions.present
  refine
    ⟨rows.wellFormed.exec executes, ?_, ?_, ?_, ?_, ?_, ?_, ?_⟩
  · exact rows.submissionLabels.acts submissions fun id value write =>
      write.relabels keeps rows.wellFormed.submissions
  · exact rows.attemptLabels.acts attempts fun id value write =>
      write.relabels keeps rows.wellFormed.attempts
  · intro id row isPresent
    rcases present isPresent with earlier | write
    · exact rows.admitted earlier
    · exact write.admitted keeps rows
  · intro id row inviteId email isPresent isInvite isEmail
    refine Store.Attended.moves ?_ rows moves
    rcases present isPresent with earlier | write
    · exact rows.attended earlier isInvite isEmail
    · exact
        write.attended keeps rows
          (fun new => started new inviteId email) isInvite isEmail
  · exact rows.submissionWrites.acts submissions fun id value write =>
      write.sittingWrite keeps
  · exact rows.attemptWrites.acts attempts fun id value write =>
      write.stampWrite keeps
  · intro owner id copy found
    have earlier :
        ∃ row, before.submissions.row id = some row ∧
          copy.inviteId = row.inviteId ∧
            copy.candidateEmail = row.candidateEmail := by
      by_cases same : owner = tid
      · subst same
        rcases exec_copy executes found with copied | committed
        · exact rows.copies copied
        · exact ⟨copy, committed, rfl, rfl⟩
      · rw [exec_session executes same] at found
        exact rows.copies found
    obtain ⟨row, foundRow, isInvite, isEmail⟩ := earlier
    obtain ⟨later, foundLater, sameInvite, sameEmail, -⟩ :=
      rows.submission_kept moves foundRow
    exact
      ⟨later, foundLater, isInvite.trans sameInvite.symm,
        isEmail.trans sameEmail.symm⟩

theorem SittingRows.initial (clock : Time) :
    SittingRows platform requests (Store.initial clock) where
  wellFormed := .initial clock
  submissionLabels := Unique.empty
  attemptLabels := Unique.empty
  admitted := by rintro id row (⟨⟨⟩⟩ | ⟨owner, ⟨⟩⟩)
  attended := by rintro id row inviteId email (⟨⟨⟩⟩ | ⟨owner, ⟨⟩⟩)
  submissionWrites := Staged.empty
  attemptWrites := Staged.empty
  copies := nofun

/-! ## What the invariant says about one sitting -/

variable {sitting : Sitting}

/-- A sitting has no more submissions than slots. -/
theorem SittingRows.length_le
    (rows : SittingRows platform requests store)
    (known : platform.invite sitting.invite.id = some sitting.invite) :
    (store.submissions.select sitting.submitted).length ≤
      platform.slotCount sitting.invite := by
  refine le_trans ?_
    (platform.length_inviteQuestions_le sitting.invite sitting.email)
  refine length_select_le rows.wellFormed.submissions
    (?_ : ∀ {id row}, _ → _ → Submission.questionId row ∈ _) ?_
  · intro id row found isSubmitted
    obtain ⟨isInvite, isEmail⟩ := Sitting.submitted_iff.mp isSubmitted
    obtain ⟨invite, email, foundInvite, isAddress, -, member⟩ :=
      rows.admitted (Or.inl found) isInvite
    rw [known] at foundInvite
    cases foundInvite
    rw [isEmail] at isAddress
    cases isAddress
    exact member
  · intro first second row other found foundOther isSubmitted
      isSubmittedOther same
    obtain ⟨isInvite, isEmail⟩ := Sitting.submitted_iff.mp isSubmitted
    obtain ⟨otherInvite, otherEmail⟩ :=
      Sitting.submitted_iff.mp isSubmittedOther
    have label :
        row.label =
          some (sitting.invite.id, sitting.email, row.questionId) := by
      simp [Submission.label, isInvite, isEmail]
    have otherLabel :
        other.label =
          some (sitting.invite.id, sitting.email, row.questionId) := by
      simp [Submission.label, otherInvite, otherEmail, same]
    exact
      rows.submissionLabels (Or.inl found) (Or.inl foundOther) label
        otherLabel

/-- In a complete sitting every submission is terminal. -/
theorem SittingRows.terminal_of_complete
    (rows : SittingRows platform requests store)
    (known : platform.invite sitting.invite.id = some sitting.invite)
    (complete : store.Complete platform sitting) {id : String}
    {row : Submission} (found : store.submissions.row id = some row)
    (isSubmitted : sitting.submitted row) :
    row.status.terminal := by
  have sublist :
      (store.graded sitting).Sublist
        (store.submissions.select sitting.submitted) := by
    unfold Store.graded select
    refine List.monotone_filter_right _ fun id isGraded => ?_
    obtain ⟨row, found, graded⟩ := (Option.any_eq_true _ _).mp isGraded
    rw [found]
    exact (isGraded_iff.mp graded).1
  have same :
      store.graded sitting = store.submissions.select sitting.submitted :=
    sublist.eq_of_length_le (le_trans (rows.length_le known) complete)
  have member : id ∈ store.graded sitting := by
    rw [same]
    exact
      mem_select_iff.mpr
        ⟨rows.wellFormed.submissions.row found, row, found, isSubmitted⟩
  obtain ⟨-, other, foundOther, graded⟩ := mem_select_iff.mp member
  rw [found] at foundOther
  cases foundOther
  exact (isGraded_iff.mp graded).2

/-- A sitting has one attempt. -/
theorem SittingRows.attempt_unique
    (rows : SittingRows platform requests store)
    {first second : Nat} {row other : CandidateAttempt}
    (found : store.attempts.row first = some row)
    (foundOther : store.attempts.row second = some other)
    (attempted : sitting.attempted row)
    (attemptedOther : sitting.attempted other) :
    first = second := by
  obtain ⟨isInvite, isEmail⟩ := Sitting.attempted_iff.mp attempted
  obtain ⟨otherInvite, otherEmail⟩ := Sitting.attempted_iff.mp attemptedOther
  have label : row.label = some (sitting.invite.id, sitting.email) := by
    rw [CandidateAttempt.label, isInvite, isEmail]
  have otherLabel :
      other.label = some (sitting.invite.id, sitting.email) := by
    rw [CandidateAttempt.label, otherInvite, otherEmail]
  exact
    rows.attemptLabels (Or.inl found) (Or.inl foundOther) label otherLabel

end AssessmentPlatform
