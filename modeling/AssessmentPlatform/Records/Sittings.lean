import AssessmentPlatform.Records.Erasure

/-!
# The rows of a sitting

What one address has left on one invite, and what the erasure of another
sitting does to it: nothing.
-/

namespace AssessmentPlatform

open Rows Refusals Database

variable {db after : Database} {inviteId other : Nat} {address : String}
variable {now : Time} {pseudonym email : String}

/-- The rows that carry one address on one invite, and its entries there. -/
structure SittingRecord where
  attempts : List CandidateAttempt
  slotVariants : List CandidateSlotVariant
  events : List IntegrityEvent
  drafts : List CandidateDraft
  submissions : List Submission
  results : List AssessmentResult
  feedback : List CandidateFeedback
  recipients : List String
  deliveries : List InviteDelivery
  deriving DecidableEq, Repr

section Sitting

variable (db : Database) (inviteId : Nat) (address : String)

/-- The attempts of a sitting; the schema allows one. -/
def Database.sittingAttempts : List CandidateAttempt :=
  db.attempts.filter fun row =>
    row.inviteId == inviteId && row.candidateEmail == address

/-- The submissions of a sitting. -/
def Database.sittingSubmissions : List Submission :=
  db.submissions.filter fun row =>
    row.inviteId == some inviteId && row.candidateEmail == some address

/-- What one address has left on one invite. -/
def Database.sitting : SittingRecord where
  attempts := db.sittingAttempts inviteId address
  slotVariants := db.slotVariants.filter fun row =>
    row.inviteId == inviteId && row.candidateEmail == address
  events := db.events.filter fun row =>
    row.inviteId == inviteId && row.candidateEmail == address
  drafts := db.drafts.filter fun row =>
    row.inviteId == inviteId && row.candidateEmail == address
  submissions := db.sittingSubmissions inviteId address
  results := db.results.filter fun row =>
    (db.sittingSubmissions inviteId address).any fun sub =>
      sub.id == row.submissionId
  feedback := db.feedback.filter fun row =>
    (db.sittingAttempts inviteId address).any fun attempt =>
      attempt.id == row.attemptId
  recipients := db.invites.flatMap fun row =>
    if row.id == inviteId then row.recipients.filter (· == address) else []
  deliveries := db.invites.flatMap fun row =>
    if row.id == inviteId then
      row.deliveries.filter fun delivery => delivery.recipient == address
    else []

end Sitting

/-- The submissions that `erase_sitting` selects. -/
def Database.sittingIds (db : Database) (inviteId : Nat) (email : String) :
    List String :=
  (db.sittingSubmissions inviteId email).map Submission.id

theorem mem_sittingIds (keys : db.UniqueKeys) {row : Submission}
    (member : row ∈ db.submissions) :
    row.id ∈ db.sittingIds inviteId email ↔
      row.inviteId = some inviteId ∧ row.candidateEmail = some email := by
  simp only [sittingIds, sittingSubmissions, List.mem_map, List.mem_filter,
    Bool.and_eq_true, beq_iff_eq]
  constructor
  · intro ⟨found, ⟨isFound, sent⟩, isKey⟩
    obtain rfl := keys.submission.eq isFound member isKey
    exact sent
  · intro sent
    exact ⟨row, ⟨member, sent⟩, rfl⟩

theorem sentBy_sitting (keys : db.UniqueKeys) :
    SentBy db email (db.sittingIds inviteId email) :=
  fun _ member selected =>
    ((mem_sittingIds keys member).mp (List.contains_iff_mem.mp selected)).2

/-- What an erasure of one sitting matches is not in another one. -/
theorem isErased_apart {rowInvite : Nat} {rowAddress : String}
    (apart : (other, address) ≠ (inviteId, email))
    (erased : isErased [inviteId] email rowInvite rowAddress) :
    (rowInvite == other && rowAddress == address) = false := by
  have isAddress := isErased_email erased
  simp only [isErased, Bool.and_eq_true, List.contains_iff_mem,
    List.mem_singleton] at erased
  rw [Bool.eq_false_iff]
  intro inOther
  simp only [Bool.and_eq_true, beq_iff_eq] at inOther
  apply apart
  rw [← inOther.1, ← inOther.2, erased.1, isAddress]

/-- The erasure of a sitting leaves the rows of every other one. -/
theorem filter_erased {Row : Type} {rows : List Row} {change : Row → Row}
    {rowInvite : Row → Nat} {rowAddress : Row → String}
    (changed : ∀ row, rowAddress (change row) = pseudonym)
    (apart : (other, address) ≠ (inviteId, email))
    (unused : address ≠ pseudonym) :
    (updateWhere
        (fun row => isErased [inviteId] email (rowInvite row) (rowAddress row))
        change rows).filter
          (fun row => rowInvite row == other && rowAddress row == address) =
      rows.filter fun row =>
        rowInvite row == other && rowAddress row == address := by
  apply filter_updateWhere
  intro row _ isMatched
  refine ⟨isErased_apart apart isMatched, ?_⟩
  rw [changed, beq_eq_false_iff_ne.mpr unused.symm, Bool.and_false]

/-- The entries of an address on an invite, if it is the given one. -/
def Invite.entries (row : Invite) (inviteId : Nat) (address : String) :
    List String × List InviteDelivery :=
  (if row.id == inviteId then row.recipients.filter (· == address) else [],
    if row.id == inviteId then
      row.deliveries.filter fun delivery => delivery.recipient == address
    else [])

theorem filter_without {Row : Type} {rows : List Row} {column : Row → String}
    (different : address ≠ email) :
    (rows.filter fun row => column row ≠ email).filter
        (fun row => column row == address) =
      rows.filter fun row => column row == address := by
  rw [List.filter_filter]
  apply List.filter_congr
  intro row _
  by_cases isRow : column row = address
  · simp [isRow, different]
  · simp [isRow]

theorem entries_scrubbed {row : Invite}
    (apart : (other, address) ≠ (inviteId, email))
    (isMatched : [inviteId].contains row.id) :
    (scrubInviteRecipients email row).entries other address =
      row.entries other address := by
  obtain rfl := List.mem_singleton.mp (List.contains_iff_mem.mp isMatched)
  by_cases here : row.id = other
  · have different : address ≠ email := by
      rintro rfl
      exact apart (by rw [here])
    unfold Invite.entries scrubInviteRecipients
    rw [filter_without different, filter_without different]
  · simp [Invite.entries, scrubInviteRecipients, here]

section Erase

variable (keys : db.UniqueKeys) (apart : (other, address) ≠ (inviteId, email))
variable (unused : address ≠ pseudonym)

include apart unused

theorem sittingAttempts_erase :
    (erase now pseudonym email [inviteId] (db.sittingIds inviteId email)
      db).sittingAttempts other address =
        db.sittingAttempts other address :=
  filter_erased (fun _ => rfl) apart unused

include keys

theorem sittingSubmissions_erase :
    (erase now pseudonym email [inviteId] (db.sittingIds inviteId email)
      db).sittingSubmissions other address =
        db.sittingSubmissions other address := by
  apply filter_updateWhere
  intro row member selected
  obtain ⟨onInvite, isAddress⟩ :=
    (mem_sittingIds keys member).mp (List.contains_iff_mem.mp selected)
  constructor
  · rw [onInvite, isAddress, Bool.eq_false_iff]
    intro inOther
    simp only [Bool.and_eq_true, beq_iff_eq, Option.some.injEq] at inOther
    apply apart
    rw [inOther.1, inOther.2]
  · simp [Submission.erase, unused.symm]

/-- The erasure of a sitting leaves every other one. -/
theorem sitting_erase :
    (erase now pseudonym email [inviteId] (db.sittingIds inviteId email)
      db).sitting other address = db.sitting other address := by
  unfold Database.sitting
  rw [sittingAttempts_erase apart unused,
    sittingSubmissions_erase keys apart unused]
  congr 1
  · exact filter_erased (fun _ => rfl) apart unused
  · exact filter_erased (fun _ => rfl) apart unused
  · apply filter_deleteWhere
    intro row _ isMatched
    exact isErased_apart apart isMatched
  · apply filter_updateWhere
    intro row _ selected
    have notTheirs : (db.sittingSubmissions other address).any
        (fun sub => sub.id == row.submissionId) = false := by
      rw [Bool.eq_false_iff]
      intro inOther
      simp only [List.any_eq_true, beq_iff_eq] at inOther
      obtain ⟨sub, isSub, isKey⟩ := inOther
      obtain ⟨member, sent⟩ := List.mem_filter.mp isSub
      rw [← isKey, List.contains_iff_mem, mem_sittingIds keys member] at selected
      simp only [selected.1, selected.2, Bool.and_eq_true, beq_iff_eq,
        Option.some.injEq] at sent
      apply apart
      rw [sent.1, sent.2]
    exact ⟨notTheirs, notTheirs⟩
  · apply filter_deleteWhere
    intro row _ isMatched
    simp only [List.any_eq_true, Bool.and_eq_true, beq_iff_eq] at isMatched
    obtain ⟨attempt, isAttempt, isKey, erased, isAddress⟩ := isMatched
    rw [Bool.eq_false_iff]
    intro inOther
    simp only [List.any_eq_true, beq_iff_eq] at inOther
    obtain ⟨again, isAgain, isKeyToo⟩ := inOther
    obtain ⟨member, sat⟩ := List.mem_filter.mp isAgain
    obtain rfl := keys.attempt.eq member isAttempt (isKeyToo.trans isKey.symm)
    simp only [List.contains_iff_mem, List.mem_singleton] at erased
    simp only [Bool.and_eq_true, beq_iff_eq] at sat
    apply apart
    rw [← sat.1, ← sat.2, erased, isAddress]
  · apply flatMap_updateWhere
    intro row isMatched
    exact congrArg Prod.fst (entries_scrubbed apart isMatched)
  · apply flatMap_updateWhere
    intro row isMatched
    exact congrArg Prod.snd (entries_scrubbed apart isMatched)

end Erase

end AssessmentPlatform
