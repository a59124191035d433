import AssessmentPlatform.Records.Isolation

/-!
# What an erasure leaves

An erasure replaces one address by a fresh pseudonym on a set of invites and
submissions, and deletes what only that address had written.  It breaks no
unique key, and keeps the rows of everybody else.
-/

namespace AssessmentPlatform

open Rows Refusals Database

variable {deployment : Deployment} {db : Database} {orgId : Nat}
variable {now : Time} {pseudonym email : String} {inviteIds : List Nat}
variable {submissionIds : List String}

/-! ## The new addresses -/

/-- Whether a row on an invite is one of an erased candidate. -/
def isErased (inviteIds : List Nat) (email : String) (inviteId : Nat)
    (address : String) : Bool :=
  inviteIds.contains inviteId && address == email

/-- The address that an erasure leaves on a row of an invite. -/
def renamed (inviteIds : List Nat) (email pseudonym : String) (inviteId : Nat)
    (address : String) : String :=
  if isErased inviteIds email inviteId address then pseudonym else address

theorem isErased_email {inviteId : Nat} {address : String}
    (erased : isErased inviteIds email inviteId address) : address = email := by
  simp only [isErased, Bool.and_eq_true, beq_iff_eq] at erased
  exact erased.2

/-- Where the pseudonym is fresh, no two addresses become one. -/
theorem renamed_inj {inviteId : Nat} {first second : String}
    (freshFirst : first ≠ pseudonym) (freshSecond : second ≠ pseudonym)
    (same : renamed inviteIds email pseudonym inviteId first =
      renamed inviteIds email pseudonym inviteId second) : first = second := by
  unfold renamed at same
  split at same
  · next erased =>
    split at same
    · next erasedToo => rw [isErased_email erased, isErased_email erasedToo]
    · exact absurd same.symm freshSecond
  · split at same
    · exact absurd same freshFirst
    · exact same

/-- Where an erasure comes, its address goes. -/
theorem renamed_ne_email {inviteId : Nat} {address : String}
    (covered : inviteIds.contains inviteId) (unused : address ≠ pseudonym) :
    renamed inviteIds email pseudonym inviteId address ≠ email := by
  unfold renamed
  split
  · next erased =>
    rw [isErased_email erased] at unused
    exact unused.symm
  · next kept =>
    rintro rfl
    apply kept
    simp [isErased, List.contains_iff_mem.mp covered]

theorem erased_attempt (row : CandidateAttempt) :
    (fun row : CandidateAttempt => (row.inviteId, row.candidateEmail))
        (if isErased inviteIds email row.inviteId row.candidateEmail then
          row.erase pseudonym now else row) =
      (row.inviteId,
        renamed inviteIds email pseudonym row.inviteId row.candidateEmail) := by
  unfold renamed
  split <;> rfl

theorem erased_slotVariant (row : CandidateSlotVariant) :
    (fun row : CandidateSlotVariant =>
        (row.inviteId, row.candidateEmail, row.assessmentQuestionId))
        (if isErased inviteIds email row.inviteId row.candidateEmail then
          { row with candidateEmail := pseudonym } else row) =
      (row.inviteId,
        renamed inviteIds email pseudonym row.inviteId row.candidateEmail,
        row.assessmentQuestionId) := by
  unfold renamed
  split <;> rfl

theorem erased_event (inviteIds : List Nat) (email pseudonym : String)
    (row : IntegrityEvent) :
    (if isErased inviteIds email row.inviteId row.candidateEmail then
        { row with candidateEmail := pseudonym } else row) =
      { row with
        candidateEmail :=
          renamed inviteIds email pseudonym row.inviteId
            row.candidateEmail } := by
  unfold renamed
  split <;> rfl

/-! ## The constraints -/

/-- The key of a submission that came by an invite. -/
def Submission.candidateKey (row : Submission) :
    Option (Nat × String × String) :=
  row.inviteId.bind fun inviteId =>
    row.candidateEmail.map (inviteId, ·, row.questionId)

theorem Submission.candidateKey_eq_some {row : Submission} {inviteId : Nat}
    {address questionId : String} :
    row.candidateKey = some (inviteId, address, questionId) ↔
      row.inviteId = some inviteId ∧ row.candidateEmail = some address ∧
        row.questionId = questionId := by
  unfold Submission.candidateKey
  cases row.inviteId <;> cases row.candidateEmail <;> simp

/-- The submissions of an erasure were all sent from the erased address. -/
def SentBy (db : Database) (email : String) (submissionIds : List String) :
    Prop :=
  ∀ row ∈ db.submissions, submissionIds.contains row.id →
    row.candidateEmail = some email

section Fresh

variable (fresh : pseudonym ∉ db.addresses)

include fresh

theorem attempt_ne_pseudonym {row : CandidateAttempt}
    (member : row ∈ db.attempts) : row.candidateEmail ≠ pseudonym := by
  rintro rfl
  apply fresh
  simp only [addresses, List.mem_append]
  repeat apply Or.inl
  exact List.mem_map_of_mem member

theorem submission_ne_pseudonym {row : Submission}
    (member : row ∈ db.submissions) : row.candidateEmail ≠ some pseudonym := by
  intro isAddress
  apply fresh
  simp only [addresses, List.mem_append]
  iterate 5 apply Or.inl
  exact Or.inr (List.mem_filterMap.mpr ⟨row, member, isAddress⟩)

theorem slotVariant_ne_pseudonym {row : CandidateSlotVariant}
    (member : row ∈ db.slotVariants) : row.candidateEmail ≠ pseudonym := by
  rintro rfl
  apply fresh
  simp only [addresses, List.mem_append]
  iterate 2 apply Or.inl
  exact Or.inr (List.mem_map_of_mem member)

theorem event_ne_pseudonym {row : IntegrityEvent}
    (member : row ∈ db.events) : row.candidateEmail ≠ pseudonym := by
  rintro rfl
  apply fresh
  simp only [addresses, List.mem_append]
  iterate 3 apply Or.inl
  exact Or.inr (List.mem_map_of_mem member)

/-- Submissions that an erasure leaves under one key were under one key. -/
theorem submission_keys (sent : SentBy db email submissionIds)
    {row other : Submission} (isRow : row ∈ db.submissions)
    (isOther : other ∈ db.submissions)
    {wanted : Nat × String × String}
    (isKey : (if submissionIds.contains row.id then row.erase pseudonym now
      else row).candidateKey = some wanted)
    (isOtherKey : (if submissionIds.contains other.id then
      other.erase pseudonym now else other).candidateKey = some wanted) :
    ∃ was, row.candidateKey = some was ∧ other.candidateKey = some was := by
  have unused {row : Submission} (member : row ∈ db.submissions) :
      row.candidateEmail ≠ some pseudonym :=
    submission_ne_pseudonym fresh member
  obtain ⟨inviteId, address, questionId⟩ := wanted
  rw [Submission.candidateKey_eq_some] at isKey isOtherKey
  split at isKey
  · next selected =>
    obtain ⟨onInvite, isAddress, onQuestion⟩ := isKey
    split at isOtherKey
    · next selectedToo =>
      obtain ⟨onInviteToo, _, onQuestionToo⟩ := isOtherKey
      refine ⟨(inviteId, email, questionId), ?_, ?_⟩
      · exact Submission.candidateKey_eq_some.mpr
          ⟨onInvite, sent row isRow selected, onQuestion⟩
      · exact Submission.candidateKey_eq_some.mpr
          ⟨onInviteToo, sent other isOther selectedToo, onQuestionToo⟩
    · exact absurd (isOtherKey.2.1.trans isAddress.symm) (unused isOther)
  · split at isOtherKey
    · exact absurd (isKey.2.1.trans isOtherKey.2.1.symm) (unused isRow)
    · exact ⟨(inviteId, address, questionId),
        Submission.candidateKey_eq_some.mpr isKey,
        Submission.candidateKey_eq_some.mpr isOtherKey⟩

theorem uniqueKeys_erase (unique : db.UniqueKeys)
    (sent : SentBy db email submissionIds) :
    (erase now pseudonym email inviteIds submissionIds db).UniqueKeys where
  __ := unique
  invite := unique.invite.updateWhere fun _ => rfl
  inviteToken := unique.inviteToken.updateWhere fun _ => rfl
  attempt := unique.attempt.updateWhere fun _ => rfl
  attemptCandidate := by
    apply unique.attemptCandidate.map_of_inj
    intro row isRow other isOther same
    obtain ⟨sameInvite, sameAddress⟩ := Prod.mk.inj
      ((erased_attempt row).symm.trans (same.trans (erased_attempt other)))
    rw [sameInvite] at sameAddress
    rw [sameInvite, renamed_inj (attempt_ne_pseudonym fresh isRow)
      (attempt_ne_pseudonym fresh isOther) sameAddress]
  slotVariant := unique.slotVariant.updateWhere fun _ => rfl
  slotVariantCandidate := by
    apply unique.slotVariantCandidate.map_of_inj
    intro row isRow other isOther same
    obtain ⟨sameInvite, sameRest⟩ := Prod.mk.inj
      ((erased_slotVariant row).symm.trans
        (same.trans (erased_slotVariant other)))
    obtain ⟨sameAddress, sameSlot⟩ := Prod.mk.inj sameRest
    rw [sameInvite] at sameAddress
    rw [sameInvite, sameSlot,
      renamed_inj (slotVariant_ne_pseudonym fresh isRow)
        (slotVariant_ne_pseudonym fresh isOther) sameAddress]
  event := unique.event.updateWhere fun _ => rfl
  draft := unique.draft.deleteWhere
  draftCandidate := unique.draftCandidate.deleteWhere
  feedback := unique.feedback.deleteWhere
  feedbackAttempt := unique.feedbackAttempt.deleteWhere
  submission := unique.submission.updateWhere fun _ => rfl
  submissionCandidate := by
    apply Unique.map_of_inj unique.submissionCandidate
    intro row isRow other isOther wanted isKey isOtherKey
    exact submission_keys fresh sent isRow isOther isKey isOtherKey
  result := unique.result.updateWhere fun _ => rfl

end Fresh

theorem foreignKeys_erase (refers : db.ForeignKeys) :
    (erase now pseudonym email inviteIds submissionIds db).ForeignKeys where
  __ := refers
  inviteQuestion := Refers.updateWhere refers.inviteQuestion fun _ => Or.inr rfl
  inviteAssessment :=
    Refers.updateWhere refers.inviteAssessment fun _ => Or.inr rfl
  inviteSet := Refers.updateWhere refers.inviteSet fun _ => Or.inr rfl
  inviteCreatedBy :=
    Refers.updateWhere refers.inviteCreatedBy fun _ => Or.inr rfl
  attemptInvite :=
    Refers.updateTargets
      (Refers.updateWhere refers.attemptInvite fun _ => Or.inr rfl)
      fun _ => rfl
  slotVariantInvite :=
    Refers.updateTargets
      (Refers.updateWhere refers.slotVariantInvite fun _ => Or.inr rfl)
      fun _ => rfl
  slotVariantSlot :=
    Refers.updateWhere refers.slotVariantSlot fun _ => Or.inr rfl
  slotVariantQuestion :=
    Refers.updateWhere refers.slotVariantQuestion fun _ => Or.inr rfl
  eventInvite :=
    Refers.updateTargets
      (Refers.updateWhere refers.eventInvite fun _ => Or.inr rfl) fun _ => rfl
  eventQuestion := Refers.updateWhere refers.eventQuestion fun _ => Or.inr rfl
  draftInvite :=
    Refers.updateTargets
      (Refers.of_sublist refers.draftInvite List.filter_sublist) fun _ => rfl
  draftQuestion := Refers.of_sublist refers.draftQuestion List.filter_sublist
  feedbackOrg := Refers.of_sublist refers.feedbackOrg List.filter_sublist
  feedbackAttempt :=
    Refers.updateTargets
      (Refers.of_sublist refers.feedbackAttempt List.filter_sublist)
      fun _ => rfl
  submissionQuestion :=
    Refers.updateWhere refers.submissionQuestion fun _ => Or.inr rfl
  submissionInvite :=
    Refers.updateTargets
      (Refers.updateWhere refers.submissionInvite fun _ => Or.inr rfl)
      fun _ => rfl
  resultSubmission :=
    Refers.updateTargets
      (Refers.updateWhere refers.resultSubmission fun _ => Or.inr rfl)
      fun _ => rfl

theorem constraints_erase (constraints : db.Constraints)
    (fresh : pseudonym ∉ db.addresses)
    (sent : SentBy db email submissionIds) :
    (erase now pseudonym email inviteIds submissionIds db).Constraints :=
  ⟨uniqueKeys_erase fresh constraints.uniqueKeys sent,
    foreignKeys_erase constraints.foreignKeys⟩

/-! ## The frame -/

/-- The sittings of an erasure keep what they are judged by, under the new
address. -/
structure SittingsKept (inviteIds : List Nat) (email pseudonym : String)
    (db after : Database) : Prop where
  attempts :
    after.attempts.map
        (fun row => (row.id, row.inviteId, row.candidateEmail)) =
      db.attempts.map fun row => (row.id, row.inviteId,
        renamed inviteIds email pseudonym row.inviteId row.candidateEmail)
  submissions :
    after.submissions.map (fun row => (row.id, row.inviteId, row.questionId,
        row.status, row.late, row.judgeCostUsd)) =
      db.submissions.map fun row => (row.id, row.inviteId, row.questionId,
        row.status, row.late, row.judgeCostUsd)
  results :
    after.results.map
        (fun row => (row.submissionId, row.verdict, row.scorePct)) =
      db.results.map fun row => (row.submissionId, row.verdict, row.scorePct)
  events : ∀ inviteId address, address ≠ pseudonym →
    (after.events.filter fun row => row.inviteId == inviteId &&
        row.candidateEmail ==
          renamed inviteIds email pseudonym inviteId address).length =
      (db.events.filter fun row => row.inviteId == inviteId &&
        row.candidateEmail == address).length

/-- An invite without the entries of an address. -/
def Invite.without (email : String) (row : Invite) : Invite :=
  { row with
    recipients := row.recipients.filter (· ≠ email)
    deliveries := row.deliveries.filter fun delivery =>
      delivery.recipient ≠ email }

/-- An erasure changes no rows but those of the erased candidate. -/
structure OthersKept (inviteIds : List Nat) (submissionIds : List String)
    (email pseudonym : String) (db after : Database) : Prop where
  attempts :
    after.attempts.filter (fun row => row.candidateEmail ≠ pseudonym) =
      db.attempts.filter fun row =>
        !isErased inviteIds email row.inviteId row.candidateEmail
  slotVariants :
    after.slotVariants.filter (fun row => row.candidateEmail ≠ pseudonym) =
      db.slotVariants.filter fun row =>
        !isErased inviteIds email row.inviteId row.candidateEmail
  events :
    after.events.filter (fun row => row.candidateEmail ≠ pseudonym) =
      db.events.filter fun row =>
        !isErased inviteIds email row.inviteId row.candidateEmail
  drafts :
    after.drafts = db.drafts.filter fun row =>
      !isErased inviteIds email row.inviteId row.candidateEmail
  feedback :
    after.feedback = db.feedback.filter fun row =>
      !db.attempts.any fun attempt => attempt.id == row.attemptId &&
        isErased inviteIds email attempt.inviteId attempt.candidateEmail
  submissions :
    after.submissions.filter (fun row => row.candidateEmail ≠ some pseudonym) =
      db.submissions.filter fun row => !submissionIds.contains row.id
  results :
    after.results.filter
        (fun row => !submissionIds.contains row.submissionId) =
      db.results.filter fun row => !submissionIds.contains row.submissionId
  invites : after.invites.map (Invite.without email) =
    db.invites.map (Invite.without email)
  rest : after =
    { db with
      attempts := after.attempts
      slotVariants := after.slotVariants
      events := after.events
      drafts := after.drafts
      feedback := after.feedback
      submissions := after.submissions
      results := after.results
      invites := after.invites }

theorem map_updateWhere_renamed {Row Value : Type} {matched : Row → Bool}
    {change : Row → Row} {rows : List Row} {column changed : Row → Value}
    (isChanged : ∀ row,
      column (if matched row then change row else row) = changed row) :
    (updateWhere matched change rows).map column = rows.map changed := by
  rw [updateWhere, List.map_map]
  apply List.map_congr_left
  intro row _
  exact isChanged row

theorem sittingsKept_erase (fresh : pseudonym ∉ db.addresses) :
    SittingsKept inviteIds email pseudonym db
      (erase now pseudonym email inviteIds submissionIds db) where
  attempts := by
    apply map_updateWhere_renamed
    intro row
    unfold renamed isErased
    split <;> rfl
  submissions := map_updateWhere fun _ => rfl
  results := map_updateWhere fun _ => rfl
  events := by
    intro inviteId address isOther
    change (List.filter _ (updateWhere _ _ db.events)).length = _
    rw [updateWhere, List.filter_map, List.length_map]
    congr 1
    apply List.filter_congr
    intro row member
    have unused := event_ne_pseudonym fresh member
    have relabelled := erased_event inviteIds email pseudonym row
    unfold isErased at relabelled
    simp only [Function.comp, relabelled]
    by_cases here : row.inviteId = inviteId
    · have same : renamed inviteIds email pseudonym inviteId row.candidateEmail =
          renamed inviteIds email pseudonym inviteId address ↔
          row.candidateEmail = address :=
        ⟨renamed_inj unused isOther, fun same => by rw [same]⟩
      rw [Bool.eq_iff_iff]
      simp [here, same]
    · simp [beq_eq_false_iff_ne.mpr here]

theorem othersKept_erase (fresh : pseudonym ∉ db.addresses) :
    OthersKept inviteIds submissionIds email pseudonym db
      (erase now pseudonym email inviteIds submissionIds db) where
  attempts := by
    apply filter_updateWhere_out
    · intro row _ _
      simp [CandidateAttempt.erase]
    · intro row member _
      simpa using attempt_ne_pseudonym fresh member
  slotVariants := by
    apply filter_updateWhere_out
    · intro row _ _
      simp
    · intro row member _
      simpa using slotVariant_ne_pseudonym fresh member
  events := by
    apply filter_updateWhere_out
    · intro row _ _
      simp
    · intro row member _
      simpa using event_ne_pseudonym fresh member
  drafts := rfl
  feedback := rfl
  submissions := by
    apply filter_updateWhere_out
    · intro row _ _
      simp [Submission.erase]
    · intro row member _
      simpa using submission_ne_pseudonym fresh member
  results := by
    apply filter_updateWhere
    intro row _ isMatched
    simp only [AssessmentResult.erase, isMatched, Bool.not_true, and_self]
  invites := by
    apply map_updateWhere_renamed
    intro row
    split
    · simp [Invite.without, scrubInviteRecipients]
    · rfl
  rest := rfl

/-! ## Completeness -/

/-- Every selected submission and its result are blank. -/
structure Redacted (submissionIds : List String) (after : Database) :
    Prop where
  code : ∀ row ∈ after.submissions, row.id ∈ submissionIds → row.code = ""
  result : ∀ row ∈ after.results, row.submissionId ∈ submissionIds →
    row.fullResult = erasedResult ∧ row.reason = erasedReason

theorem redacted_erase :
    Redacted submissionIds
      (erase now pseudonym email inviteIds submissionIds db) where
  code row member selected := by
    obtain ⟨old, _, rfl⟩ := mem_of_mem_updateWhere member
    split at selected
    · next isMatched => rw [if_pos isMatched, Submission.erase]
    · next unmatched => exact absurd (List.contains_iff_mem.mpr selected) unmatched
  result row member selected := by
    obtain ⟨old, _, rfl⟩ := mem_of_mem_updateWhere member
    split at selected
    · next isMatched =>
      rw [if_pos isMatched]
      exact ⟨rfl, rfl⟩
    · next unmatched => exact absurd (List.contains_iff_mem.mpr selected) unmatched

/-- Nothing of an organisation carries an address any more. -/
structure Forgotten (orgId : Nat) (email : String) (db after : Database) :
    Prop where
  submissions : ∀ row ∈ after.submissions, after.collects orgId row →
    row.candidateEmail ≠ some email
  attempts : ∀ row ∈ after.attempts, after.ownsInvite orgId row.inviteId →
    row.candidateEmail ≠ email
  slotVariants : ∀ row ∈ after.slotVariants,
    after.ownsInvite orgId row.inviteId → row.candidateEmail ≠ email
  events : ∀ row ∈ after.events, after.ownsInvite orgId row.inviteId →
    row.candidateEmail ≠ email
  drafts : ∀ row ∈ after.drafts, after.ownsInvite orgId row.inviteId →
    row.candidateEmail ≠ email
  recipients : ∀ row ∈ after.invites, after.targets orgId row →
    email ∉ row.recipients
  deliveries : ∀ row ∈ after.invites, after.targets orgId row →
    ∀ delivery ∈ row.deliveries, delivery.recipient ≠ email
  feedback : ∀ row ∈ after.feedback, row.orgId = orgId →
    ∀ attempt ∈ db.attempts, attempt.id = row.attemptId →
      attempt.candidateEmail ≠ email

theorem ownsInvite_erase :
    (erase now pseudonym email inviteIds submissionIds db).ownsInvite =
      db.ownsInvite := by
  funext orgId id
  change (List.any (updateWhere _ _ db.invites) _) = List.any db.invites _
  simp only [updateWhere, List.any_map]
  congr 1
  funext row
  dsimp only [Function.comp]
  split <;> rfl

theorem collects_erase :
    (erase now pseudonym email inviteIds submissionIds db).collects =
      db.collects := by
  unfold Database.collects
  rw [ownsInvite_erase]
  rfl

/-- The submissions that an erasure selects were sent from the address. -/
theorem sentBy_erasable (keys : db.UniqueKeys) (orgId : Nat)
    (email : String) : SentBy db email (erasableSubmissions db orgId email) := by
  intro row member selected
  obtain ⟨found, isFound, isKey⟩ :=
    List.mem_map.mp (List.contains_iff_mem.mp selected)
  simp only [List.mem_filter, Bool.and_eq_true, beq_iff_eq] at isFound
  rw [keys.submission.eq member isFound.1 isKey.symm]
  exact isFound.2.1

/-- Every submission of an organisation from the address is selected. -/
theorem mem_erasableSubmissions (sound : Sound db) {row : Submission}
    (member : row ∈ db.submissions) (collected : db.collects orgId row)
    (isAddress : row.candidateEmail = some email) :
    row.id ∈ erasableSubmissions db orgId email := by
  apply List.mem_map_of_mem
  simp only [List.mem_filter, Bool.and_eq_true, Bool.or_eq_true, beq_iff_eq]
  exact ⟨member, isAddress, Or.inl ((collects_iff sound member).mp collected)⟩

theorem mem_attempts_erase {row : CandidateAttempt}
    (member : row ∈
      (erase now pseudonym email inviteIds submissionIds db).attempts) :
    ∃ old ∈ db.attempts, row.inviteId = old.inviteId ∧
      row.candidateEmail =
        renamed inviteIds email pseudonym old.inviteId old.candidateEmail := by
  obtain ⟨old, isOld, rfl⟩ := mem_of_mem_updateWhere member
  refine ⟨old, isOld, ?_⟩
  unfold renamed isErased
  split <;> exact ⟨rfl, rfl⟩

theorem mem_slotVariants_erase {row : CandidateSlotVariant}
    (member : row ∈
      (erase now pseudonym email inviteIds submissionIds db).slotVariants) :
    ∃ old ∈ db.slotVariants, row.inviteId = old.inviteId ∧
      row.candidateEmail =
        renamed inviteIds email pseudonym old.inviteId old.candidateEmail := by
  obtain ⟨old, isOld, rfl⟩ := mem_of_mem_updateWhere member
  refine ⟨old, isOld, ?_⟩
  unfold renamed isErased
  split <;> exact ⟨rfl, rfl⟩

theorem mem_events_erase {row : IntegrityEvent}
    (member : row ∈
      (erase now pseudonym email inviteIds submissionIds db).events) :
    ∃ old ∈ db.events, row.inviteId = old.inviteId ∧
      row.candidateEmail =
        renamed inviteIds email pseudonym old.inviteId old.candidateEmail := by
  obtain ⟨old, isOld, rfl⟩ := mem_of_mem_updateWhere member
  refine ⟨old, isOld, ?_⟩
  unfold renamed isErased
  split <;> exact ⟨rfl, rfl⟩

/-- An invite that an erasure covers has lost the address. -/
theorem mem_invites_erase {row : Invite}
    (member : row ∈
      (erase now pseudonym email inviteIds submissionIds db).invites)
    (covered : inviteIds.contains row.id) :
    email ∉ row.recipients ∧
      ∀ delivery ∈ row.deliveries, delivery.recipient ≠ email := by
  obtain ⟨old, isOld, rfl⟩ := mem_of_mem_updateWhere member
  split at covered
  · next isMatched =>
    rw [if_pos isMatched]
    simp [scrubInviteRecipients]
  · next unmatched => exact absurd covered unmatched

theorem forgotten_erase (sound : Sound db) (fresh : pseudonym ∉ db.addresses) :
    Forgotten orgId email db
      (erase now pseudonym email (db.orgInviteIds orgId)
        (erasableSubmissions db orgId email) db) := by
  have keys := sound.constraints.uniqueKeys
  have covered {inviteId : Nat} (owned : db.ownsInvite orgId inviteId) :
      (db.orgInviteIds orgId).contains inviteId :=
    List.contains_iff_mem.mpr ((mem_orgInviteIds keys).mpr owned)
  have onInvite {row : Invite}
      (member : row ∈ (erase now pseudonym email (db.orgInviteIds orgId)
        (erasableSubmissions db orgId email) db).invites)
      (target : db.targets orgId row) :
      (db.orgInviteIds orgId).contains row.id := by
    obtain ⟨old, isOld, rfl⟩ := mem_of_mem_updateWhere member
    apply covered
    have isTarget : db.targets orgId old := by
      split at target <;> exact target
    have owned := (ownsInvite_iff_targets keys isOld).mpr isTarget
    split <;> exact owned
  constructor
  · intro row member collected isAddress
    rw [collects_erase] at collected
    obtain ⟨old, isOld, rfl⟩ := mem_of_mem_updateWhere member
    split at isAddress
    · next selected =>
      have sent := sentBy_erasable keys orgId email old isOld selected
      rw [← isAddress] at sent
      exact submission_ne_pseudonym fresh isOld sent
    · next unselected =>
      rw [if_neg unselected] at collected
      exact unselected (List.contains_iff_mem.mpr
        (mem_erasableSubmissions sound isOld collected isAddress))
  · intro row member owned
    obtain ⟨old, isOld, sameInvite, isRenamed⟩ := mem_attempts_erase member
    rw [ownsInvite_erase, sameInvite] at owned
    rw [isRenamed]
    exact renamed_ne_email (covered owned) (attempt_ne_pseudonym fresh isOld)
  · intro row member owned
    obtain ⟨old, isOld, sameInvite, isRenamed⟩ := mem_slotVariants_erase member
    rw [ownsInvite_erase, sameInvite] at owned
    rw [isRenamed]
    exact renamed_ne_email (covered owned)
      (slotVariant_ne_pseudonym fresh isOld)
  · intro row member owned
    obtain ⟨old, isOld, sameInvite, isRenamed⟩ := mem_events_erase member
    rw [ownsInvite_erase, sameInvite] at owned
    rw [isRenamed]
    exact renamed_ne_email (covered owned) (event_ne_pseudonym fresh isOld)
  · intro row member owned isAddress
    rw [ownsInvite_erase] at owned
    apply (mem_deleteWhere.mp member).2
    rw [Bool.and_eq_true, beq_iff_eq]
    exact ⟨covered owned, isAddress⟩
  · intro row member target
    exact (mem_invites_erase member (onInvite member target)).1
  · intro row member target
    exact (mem_invites_erase member (onInvite member target)).2
  · intro row member inOrg attempt isAttempt isKey isAddress
    obtain ⟨isRow, kept⟩ := mem_deleteWhere.mp member
    have owned := ownsInvite_of_feedback sound isRow isAttempt isKey
    rw [inOrg] at owned
    apply kept
    simp only [List.any_eq_true, Bool.and_eq_true, beq_iff_eq]
    exact ⟨attempt, isAttempt, isKey, covered owned, isAddress⟩

/-- Erasure is complete and framed: the request of an address succeeds, nothing
of the organisation carries the address any more, the erased submissions are
blank, no constraint breaks, the sittings keep what they are judged by, and
nobody else's rows change. -/
theorem candidate_erased {trace : List Served} (run : Run deployment trace db)
    (orgId : Nat) (email : String) (now : Time)
    (fresh : pseudonym ∉ db.addresses) :
    ∃ after, db.eraseCandidate orgId email now pseudonym = .ok after ∧
      after.Constraints ∧ Forgotten orgId email db after ∧
      Redacted (erasableSubmissions db orgId email) after ∧
      SittingsKept (db.orgInviteIds orgId) email pseudonym db after ∧
      OthersKept (db.orgInviteIds orgId) (erasableSubmissions db orgId email)
        email pseudonym db after ∧
      ∀ otherId, orgId ≠ otherId →
        after.slice otherId = db.slice otherId := by
  have sound := run.sound
  have constraints :
      (erase now pseudonym email (db.orgInviteIds orgId)
        (erasableSubmissions db orgId email) db).Constraints :=
    constraints_erase sound.constraints fresh
      (sentBy_erasable sound.constraints.uniqueKeys orgId email)
  exact ⟨_, execute_eq_ok.mpr ⟨constraints, rfl⟩, constraints,
    forgotten_erase sound fresh, redacted_erase, sittingsKept_erase fresh,
    othersKept_erase fresh, fun otherId other =>
      (sameSlice_erase sound other
        (fun _ listed => (mem_orgInviteIds sound.constraints.uniqueKeys).mp
          listed)
        (fun _ selected => ownsSubmission_of_erasable sound selected) now
        pseudonym email).slice_eq⟩

open Scenario in
/-- The candidate who has submitted one question is erased. -/
theorem candidate_erased_submitted :
    ∃ after,
      (play submitted).2.eraseCandidate 2 "c@x" 4 (tombstone "z") =
          .ok after ∧
        Forgotten 2 "c@x" (play submitted).2 after := by
  obtain ⟨after, erased, _, forgotten, _⟩ :=
    candidate_erased (run_play submitted) 2 "c@x" 4
      (by decide : tombstone "z" ∉ (play submitted).2.addresses)
  exact ⟨after, erased, forgotten⟩

end AssessmentPlatform
