import AssessmentPlatform.Records.RetentionSweep

/-!
# What a sweep cannot reach

A sweep finds a sitting by its attempt.  An address that left a draft, an
integrity event, a draw or a submission on an invite without an attempt there is
in no sitting, and it stays.
-/

namespace AssessmentPlatform

open Rows Refusals Database

variable {deployment : Deployment} {around : Surroundings} {served : Served}
variable {scope : Option Nat} {db base left after : Database}
variable {orgId inviteId : Nat} {address : String} {now : Time}
variable {retentionDays : Int} {trace : List Served}

/-! ## Erased attempts -/

/-- An attempt that is erased carries a pseudonym. -/
def ErasedRenamed (db : Database) : Prop :=
  ∀ row ∈ db.attempts, row.erasedAt ≠ none → IsPseudonym row.candidateEmail

theorem ErasedRenamed.of_subset (renamed : ErasedRenamed db)
    (subset : ∀ row ∈ after.attempts, row ∈ db.attempts) :
    ErasedRenamed after :=
  fun row member => renamed row (subset row member)

theorem ErasedRenamed.updated (renamed : ErasedRenamed db)
    {matched : CandidateAttempt → Bool}
    {change : CandidateAttempt → CandidateAttempt}
    (same : after.attempts = updateWhere matched change db.attempts)
    (kept : ∀ row ∈ db.attempts, (change row).erasedAt ≠ none →
      IsPseudonym (change row).candidateEmail ∨
        (row.erasedAt ≠ none ∧
          (change row).candidateEmail = row.candidateEmail)) :
    ErasedRenamed after := by
  intro row member erased
  rw [same] at member
  rcases mem_updateWhere.mp member with ⟨old, isOld, _, rfl⟩ | ⟨isOld, _⟩
  · rcases kept old isOld erased with isPseudonym | ⟨wasErased, sameAddress⟩
    · exact isPseudonym
    · rw [sameAddress]
      exact renamed old isOld wasErased
  · exact renamed row isOld erased

theorem Enters.erasedRenamed {account : Interviewer} {gaveUp : Option Nat}
    (enters : Enters db account gaveUp base) (renamed : ErasedRenamed db) :
    ErasedRenamed base := by
  cases enters with
  | newcomer => exact renamed
  | seatless => exact renamed
  | leaving _ _ gaveUp =>
      obtain ⟨rfl, _⟩ := leaveEmptyOrg_eq_ok gaveUp
      exact renamed.of_subset fun _ member => (mem_deleteWhere.mp member).1

theorem Database.Left.erasedRenamed {interviewerId : Nat}
    (leaving : Database.Left db interviewerId left)
    (renamed : ErasedRenamed db) : ErasedRenamed left := by
  cases leaving with
  | last =>
      exact renamed.of_subset fun _ member => (mem_deleteWhere.mp member).1
  | _ => exact renamed

theorem Change.erasedRenamed
    (change : Change deployment served scope db after)
    (renamed : ErasedRenamed db) : ErasedRenamed after := by
  cases change with
  | founded _ enters =>
      have entered : ErasedRenamed _ := enters.erasedRenamed renamed
      exact entered
  | joined enters =>
      have entered : ErasedRenamed _ := enters.erasedRenamed renamed
      exact entered
  | accountDeleted deleted =>
      obtain ⟨left, leaving, rfl⟩ := Database.purgeAccount_left deleted
      exact leaving.erasedRenamed renamed
  | started attempt _ _ _ _ _ _ _ _ isLive =>
      intro row member erased
      rcases List.mem_append.mp member with old | isNew
      · exact renamed row old erased
      · obtain rfl := List.mem_singleton.mp isNew
        exact absurd isLive erased
  | named =>
      exact renamed.updated rfl fun _ _ erased => Or.inr ⟨erased, rfl⟩
  | stamped _ _ keeps =>
      apply renamed.updated rfl
      intro row _ erased
      rw [keeps.erasedAt] at erased
      exact Or.inr ⟨erased, keeps.candidateEmail row⟩
  | erased =>
      exact renamed.updated rfl fun _ _ _ => Or.inl ⟨_, rfl⟩
  | _ => exact renamed

theorem Run.erasedRenamed (run : Run deployment trace db) : ErasedRenamed db :=
  run.keepsSound ErasedRenamed nofun fun change _ _ renamed =>
    change.erasedRenamed renamed

/-! ## What is on an invite -/

/-- An address has rows on an invite that only an attempt leads a sweep to. -/
inductive LeftRow (db : Database) (inviteId : Nat) (address : String) : Prop
  | submission (row : Submission) : row ∈ db.submissions →
      row.inviteId = some inviteId → row.candidateEmail = some address →
      LeftRow db inviteId address
  | draft (row : CandidateDraft) : row ∈ db.drafts →
      row.inviteId = inviteId → row.candidateEmail = address →
      LeftRow db inviteId address
  | event (row : IntegrityEvent) : row ∈ db.events →
      row.inviteId = inviteId → row.candidateEmail = address →
      LeftRow db inviteId address
  | slotVariant (row : CandidateSlotVariant) : row ∈ db.slotVariants →
      row.inviteId = inviteId → row.candidateEmail = address →
      LeftRow db inviteId address

/-- An address is in one of the candidate tables of an invite. -/
inductive Holds (db : Database) (invite : Invite) (address : String) : Prop
  | attempt (row : CandidateAttempt) : row ∈ db.attempts →
      row.inviteId = invite.id → row.candidateEmail = address →
      Holds db invite address
  | row : LeftRow db invite.id address → Holds db invite address
  | recipient : address ∈ invite.recipients → Holds db invite address
  | delivery (delivery : InviteDelivery) : delivery ∈ invite.deliveries →
      delivery.recipient = address → Holds db invite address

/-- An address has a sitting on an invite inside of the window. -/
def SitsSince (deployment : Deployment) (db : Database) (inviteId : Nat)
    (address : String) (since : Time) : Prop :=
  ∃ row ∈ db.attempts, row.inviteId = inviteId ∧
    deployment.auth.normalizeEmail row.candidateEmail =
      deployment.auth.normalizeEmail address ∧
    row.erasedAt = none ∧ since ≤ row.startedAt

/-- The invites that are older than the window of their organisation. -/
def IsStale (db : Database) (now : Time) (retentionDays : Int)
    (invite : Invite) : Prop :=
  ∃ organization ∈ db.organizations,
    organization.window = some retentionDays ∧
      db.ownsInvite organization.id invite.id ∧
      invite.createdAt < cutoff now retentionDays

/-- Old invites hold no address but pseudonyms and those that still sit. -/
def Retained (deployment : Deployment) (db : Database) (now : Time) : Prop :=
  ∀ invite ∈ db.invites, ∀ retentionDays,
    IsStale db now retentionDays invite → ∀ address,
      Holds db invite address → IsPseudonym address ∨
        SitsSince deployment db invite.id address (cutoff now retentionDays)

/-- Every address that has left a row on an old invite has an attempt there,
if it is no pseudonym. -/
def Reached (deployment : Deployment) (db : Database) (now : Time) : Prop :=
  ∀ invite ∈ db.invites, ∀ retentionDays,
    IsStale db now retentionDays invite → ∀ address,
      LeftRow db invite.id address → IsPseudonym address ∨
        (∃ row ∈ db.attempts,
          row.inviteId = invite.id ∧ row.candidateEmail = address) ∨
        SitsSince deployment db invite.id address (cutoff now retentionDays)

/-! ## Across a sweep -/

/-- What was left on an invite is left where the sitting is the same. -/
theorem LeftRow.of_same
    (same : (after.sitting inviteId address).rows =
      (db.sitting inviteId address).rows)
    (held : LeftRow db inviteId address) : LeftRow after inviteId address := by
  cases held with
  | submission row member onInvite isAddress =>
      refine .submission row ?_ onInvite isAddress
      exact mem_of_filter_eq (congrArg SittingRecord.submissions same) member
        (by simp [onInvite, isAddress])
  | draft row member onInvite isAddress =>
      refine .draft row ?_ onInvite isAddress
      exact mem_of_filter_eq (congrArg SittingRecord.drafts same) member
        (by simp [onInvite, isAddress])
  | event row member onInvite isAddress =>
      refine .event row ?_ onInvite isAddress
      exact mem_of_filter_eq (congrArg SittingRecord.events same) member
        (by simp [onInvite, isAddress])
  | slotVariant row member onInvite isAddress =>
      refine .slotVariant row ?_ onInvite isAddress
      exact mem_of_filter_eq (congrArg SittingRecord.slotVariants same) member
        (by simp [onInvite, isAddress])

theorem attempt_of_same {row : CandidateAttempt}
    (same : (after.sitting row.inviteId row.candidateEmail).rows =
      (db.sitting row.inviteId row.candidateEmail).rows)
    (member : row ∈ db.attempts) : row ∈ after.attempts :=
  mem_of_filter_eq (congrArg SittingRecord.attempts same) member (by simp)

theorem Invite.of_bare {old new : Invite} (same : old.bare = new.bare) :
    old.id = new.id ∧ old.createdAt = new.createdAt := by
  unfold Invite.bare at same
  simp only [Invite.mk.injEq] at same
  simp [same]

section Passed

variable {limit : Nat} {sittings : List (Nat × String)}
variable (passed : Passed around limit sittings db after)

include passed

/-- What is on an invite after a sweep was there, in no sitting of it. -/
theorem LeftRow.before_sweep (held : LeftRow after inviteId address) :
    IsPseudonym address ∨
      (LeftRow db inviteId address ∧ (inviteId, address) ∉ sittings) := by
  cases held with
  | submission row member onInvite isAddress =>
      refine (passed.submissions row member inviteId address
        (Submission.sitting_eq_some.mpr ⟨onInvite, isAddress⟩)).imp_right ?_
      intro ⟨isOld, apart⟩
      exact ⟨.submission row isOld onInvite isAddress, apart⟩
  | draft row member onInvite isAddress =>
      refine (passed.drafts row member inviteId address
        (by dsimp only; rw [onInvite, isAddress])).imp_right ?_
      intro ⟨isOld, apart⟩
      exact ⟨.draft row isOld onInvite isAddress, apart⟩
  | event row member onInvite isAddress =>
      refine (passed.events row member inviteId address
        (by dsimp only; rw [onInvite, isAddress])).imp_right ?_
      intro ⟨isOld, apart⟩
      exact ⟨.event row isOld onInvite isAddress, apart⟩
  | slotVariant row member onInvite isAddress =>
      refine (passed.slotVariants row member inviteId address
        (by dsimp only; rw [onInvite, isAddress])).imp_right ?_
      intro ⟨isOld, apart⟩
      exact ⟨.slotVariant row isOld onInvite isAddress, apart⟩

/-- The rows of a sitting that was not swept, under a real address. -/
theorem same_of_not_mem (apart : (inviteId, address) ∉ sittings)
    (real : ¬IsPseudonym address) :
    (after.sitting inviteId address).rows =
      (db.sitting inviteId address).rows := by
  apply passed.rows inviteId address apart
  intro draw _ isDrawn
  exact real ⟨_, isDrawn⟩

/-- The invites are the same ones. -/
theorem invite_before_sweep {invite : Invite}
    (member : invite ∈ after.invites) :
    ∃ old ∈ db.invites, old.id = invite.id ∧
      old.createdAt = invite.createdAt := by
  have bare : invite.bare ∈ after.invites.map Invite.bare :=
    List.mem_map_of_mem member
  rw [passed.invites] at bare
  obtain ⟨old, isOld, same⟩ := List.mem_map.mp bare
  exact ⟨old, isOld, Invite.of_bare same⟩

theorem invite_after_sweep {invite : Invite} (member : invite ∈ db.invites) :
    ∃ new ∈ after.invites, new.id = invite.id ∧
      new.createdAt = invite.createdAt := by
  have bare : invite.bare ∈ db.invites.map Invite.bare :=
    List.mem_map_of_mem member
  rw [← passed.invites] at bare
  obtain ⟨new, isNew, same⟩ := List.mem_map.mp bare
  exact ⟨new, isNew, Invite.of_bare same⟩

theorem SitsSince.before_sweep {since : Time}
    (sits : SitsSince deployment after inviteId address since) :
    SitsSince deployment db inviteId address since := by
  obtain ⟨row, member, onInvite, sameAddress, isLive, recent⟩ := sits
  exact ⟨row, (passed.unerased row member isLive).1, onInvite, sameAddress,
    isLive, recent⟩

end Passed

theorem IsStale.congr {invite other : Invite}
    (stale : IsStale db now retentionDays invite)
    (organizations : after.organizations = db.organizations)
    (ownsInvite : after.ownsInvite = db.ownsInvite)
    (sameId : other.id = invite.id)
    (sameCreated : other.createdAt = invite.createdAt) :
    IsStale after now retentionDays other := by
  obtain ⟨organization, member, window, owned, old⟩ := stale
  exact ⟨organization, organizations ▸ member, window,
    by rw [ownsInvite, sameId]; exact owned, by rw [sameCreated]; exact old⟩

/-- Where a pass is done, the attempts that are not erased are recent. -/
theorem PassDone.recent (keys : db.UniqueKeys)
    (settled : PassDone deployment now orgId retentionDays db)
    {row : CandidateAttempt} (member : row ∈ db.attempts)
    (owned : db.ownsInvite orgId row.inviteId) (isLive : row.erasedAt = none) :
    cutoff now retentionDays ≤ row.startedAt := by
  by_contra early
  have expired := (mem_expiredSittings keys).mpr
    ⟨row, member, rfl, owned, not_le.mp early, isLive⟩
  rw [settled.sittings] at expired
  exact List.not_mem_nil expired

/-- Where a pass is done, an old invite only keeps addresses that sit. -/
theorem PassDone.sitsSince (keys : db.UniqueKeys)
    (settled : PassDone deployment now orgId retentionDays db)
    (owned : db.ownsInvite orgId inviteId)
    (kept : keepsAddress deployment db inviteId address) :
    SitsSince deployment db inviteId address (cutoff now retentionDays) := by
  unfold keepsAddress liveAddresses at kept
  rw [List.contains_iff_mem] at kept
  obtain ⟨row, isRow, sameAddress⟩ := List.mem_map.mp kept
  obtain ⟨member, isSitting⟩ := List.mem_filter.mp isRow
  simp only [Bool.and_eq_true, beq_iff_eq, Option.isNone_iff_eq_none]
    at isSitting
  obtain ⟨rfl, isLive⟩ := isSitting
  exact ⟨row, member, rfl, sameAddress, isLive,
    settled.recent keys member owned isLive⟩

/-! ## Completeness -/

section Swept

variable {limit : Nat} {organizations : List Organization}

/-- After a sweep, an attempt on an old invite is of a pseudonym or recent. -/
theorem attempt_after_sweep {sittings : List (Nat × String)}
    {organization : Organization} {row : CandidateAttempt}
    (passed : Passed around limit sittings db after)
    (renamed : ErasedRenamed db) (keys : after.UniqueKeys)
    (settled : PassDone deployment now organization.id retentionDays after)
    (member : row ∈ after.attempts)
    (owned : after.ownsInvite organization.id row.inviteId) :
    IsPseudonym row.candidateEmail ∨
      SitsSince deployment after row.inviteId row.candidateEmail
        (cutoff now retentionDays) := by
  by_cases isLive : row.erasedAt = none
  · exact Or.inr ⟨row, member, rfl, rfl, isLive,
      settled.recent keys member owned isLive⟩
  · refine Or.inl ?_
    rcases passed.attempts row member _ _ rfl with isPseudonym | ⟨isOld, _⟩
    · exact isPseudonym
    · exact renamed row isOld isLive

end Swept

/-- A sweep is complete exactly where every address that has left a row on an
old invite has an attempt there. -/
theorem retention_reaches (run : Run deployment trace db)
    (around : Surroundings) (fresh : db.FreshPseudonyms around) :
    Retained deployment (purgeExpired deployment around around.now db).1
        around.now ↔
      Reached deployment db around.now := by
  have sound := run.sound
  have keys := sound.constraints.uniqueKeys
  have swept := purgeExpired_swept deployment sound fresh
  have later := swept.sound.constraints.uniqueKeys
  obtain ⟨sittings, passed, due⟩ := swept.passed
  constructor
  · intro retained invite member retentionDays stale address held
    by_cases real : IsPseudonym address
    · exact Or.inl real
    by_cases sat : ∃ row ∈ db.attempts,
        row.inviteId = invite.id ∧ row.candidateEmail = address
    · exact Or.inr (Or.inl sat)
    have apart : (invite.id, address) ∉ sittings := by
      intro listed
      obtain ⟨_, _, _, _, expired⟩ := due _ listed
      obtain ⟨row, isRow, isSitting, _⟩ := (mem_expiredSittings keys).mp expired
      exact sat ⟨row, isRow, Prod.mk.inj isSitting⟩
    obtain ⟨new, isNew, sameId, sameCreated⟩ :=
      invite_after_sweep passed member
    have here := held.of_same (same_of_not_mem passed apart real)
    rw [← sameId] at here
    have stillStale := stale.congr passed.organizations swept.ownsInvite sameId
      sameCreated
    have sits := (retained new isNew retentionDays stillStale address
      (.row here)).resolve_left real
    rw [sameId] at sits
    exact Or.inr (Or.inr (sits.before_sweep passed))
  · intro reached invite member retentionDays stale address held
    obtain ⟨old, isOld, sameId, sameCreated⟩ :=
      invite_before_sweep passed member
    have wasStale := stale.congr passed.organizations.symm
      swept.ownsInvite.symm sameId sameCreated
    obtain ⟨organization, isOrganization, window, owned, created⟩ := stale
    have wasOrganization := passed.organizations ▸ isOrganization
    have settled := swept.settled organization
      (List.mem_filter.mpr ⟨wasOrganization, isSome_of_window window⟩)
      retentionDays window
    have kept := settled.invites invite member owned created
    rw [keepLiveRecipients_eq] at kept
    cases held with
    | attempt row isRow onInvite isAddress =>
        rw [← onInvite] at owned ⊢
        rw [← isAddress]
        exact attempt_after_sweep passed run.erasedRenamed later settled isRow
          owned
    | row held =>
        rcases held.before_sweep passed with isPseudonym | ⟨wasHeld, apart⟩
        · exact Or.inl isPseudonym
        rw [← sameId] at wasHeld apart
        rcases reached old isOld retentionDays wasStale address wasHeld with
          isPseudonym | ⟨row, isRow, onInvite, isAddress⟩ | sits
        · exact Or.inl isPseudonym
        · by_cases real : IsPseudonym address
          · exact Or.inl real
          rw [← isAddress, ← onInvite] at apart
          rw [← isAddress] at real ⊢
          rw [← sameId, ← onInvite] at owned ⊢
          have isStill :=
            attempt_of_same (same_of_not_mem passed apart real) isRow
          exact attempt_after_sweep passed run.erasedRenamed later settled
            isStill owned
        · obtain ⟨row, isRow, onInvite, sameAddress, isLive, recent⟩ := sits
          rw [swept.ownsInvite, ← sameId, ← onInvite] at owned
          have apart : (row.inviteId, row.candidateEmail) ∉ sittings :=
            fun listed => not_due sound wasOrganization
              (fun _ member => (List.mem_filter.mp member).1) window isRow
              owned recent (due _ listed)
          have same := passed.rows row.inviteId row.candidateEmail apart
            (attempt_ne_drawn fresh isRow)
          exact Or.inr ⟨row, attempt_of_same same isRow, onInvite.trans sameId,
            sameAddress, isLive, recent⟩
    | recipient listed =>
        have keeps :=
          List.filter_eq_self.mp (congrArg Invite.recipients kept) address
            listed
        exact Or.inr (settled.sitsSince later owned keeps)
    | delivery delivery listed isAddress =>
        have keeps :=
          List.filter_eq_self.mp (congrArg Invite.deliveries kept) delivery
            listed
        rw [isAddress] at keeps
        exact Or.inr (settled.sitsSince later owned keeps)

namespace Scenario

/-- The candidate saves a draft without having started. -/
def savesDraft : Asked :=
  behind "e" 2 'f' (.saveDraft ⟨"c@x", some "qa", "code", "py"⟩)

/-- A draft of someone who never came. -/
def draftOnly : List Asked :=
  Scenario.invited ++ [keepsOneDay, savesDraft]

/-- What a sweep finds two days later. -/
def twoDaysLater : Surroundings :=
  surroundings (Accounts.days 2) 'k'

theorem real_candidate : ¬IsPseudonym "c@x" := by
  intro ⟨drawn, same⟩
  have length := congrArg String.length same
  simp only [tombstone, tombstoneOf, tombstoneDomain, String.length_append]
    at length
  have shorter : "c@x".length < "erased-".length := by decide
  omega

end Scenario

open Scenario in
/-- The draft still carries the address after the sweep. -/
theorem draft_outlives_window :
    ∃ trace db, Run Scenario.deployment trace db ∧
      db.FreshPseudonyms twoDaysLater ∧
      ¬Retained Scenario.deployment
        (purgeExpired Scenario.deployment twoDaysLater twoDaysLater.now db).1
        twoDaysLater.now := by
  refine ⟨_, _, run_play draftOnly, ⟨by decide, by decide⟩, ?_⟩
  intro retained
  have invite : (⟨16, "e", none, some "ab", none, some 1, [], [], none, false,
      some 30, .active, 1⟩ : Invite) ∈ (purgeExpired Scenario.deployment
        twoDaysLater twoDaysLater.now (play draftOnly).2).1.invites := by
    decide
  have organization : (⟨2, "Ann's organisation", none, "free", "active", none,
      none, none, some 1⟩ : Organization) ∈ (purgeExpired Scenario.deployment
        twoDaysLater twoDaysLater.now (play draftOnly).2).1.organizations := by
    decide
  have draft : ∃ row ∈ (purgeExpired Scenario.deployment twoDaysLater
      twoDaysLater.now (play draftOnly).2).1.drafts,
        row.inviteId = 16 ∧ row.candidateEmail = "c@x" := by
    decide
  have attempts : (purgeExpired Scenario.deployment twoDaysLater
      twoDaysLater.now (play draftOnly).2).1.attempts = [] := by
    decide
  obtain ⟨row, isRow, onInvite, isAddress⟩ := draft
  rcases retained _ invite 1 ⟨_, organization, rfl, by decide, by decide⟩ "c@x"
    (.row (.draft row isRow onInvite isAddress)) with isPseudonym | sits
  · exact real_candidate isPseudonym
  · obtain ⟨attempt, isAttempt, _⟩ := sits
    rw [attempts] at isAttempt
    cases isAttempt

open Scenario in
/-- Where the candidate had started, a sweep is complete. -/
theorem retention_reaches_sits_twice :
    Retained Scenario.deployment
      (purgeExpired Scenario.deployment
        (surroundings (Accounts.days 1 + 10) 'k') (Accounts.days 1 + 10)
        (play sitsTwice).2).1 (Accounts.days 1 + 10) := by
  apply (retention_reaches (run_play sitsTwice)
    (surroundings (Accounts.days 1 + 10) 'k') ⟨by decide, by decide⟩).mpr
  intro invite _ retentionDays _ address held
  have submissions : ∀ row ∈ (play sitsTwice).2.submissions,
      ∃ attempt ∈ (play sitsTwice).2.attempts,
        row.inviteId = some attempt.inviteId ∧
          row.candidateEmail = some attempt.candidateEmail := by decide
  have drafts : (play sitsTwice).2.drafts = [] := by decide
  have events : (play sitsTwice).2.events = [] := by decide
  have slotVariants : (play sitsTwice).2.slotVariants = [] := by decide
  cases held with
  | submission row member onInvite isAddress =>
      obtain ⟨attempt, isAttempt, sameInvite, sameAddress⟩ :=
        submissions row member
      exact Or.inr (Or.inl ⟨attempt, isAttempt,
        Option.some.inj (sameInvite.symm.trans onInvite),
        Option.some.inj (sameAddress.symm.trans isAddress)⟩)
  | draft row member =>
      rw [drafts] at member
      cases member
  | event row member =>
      rw [events] at member
      cases member
  | slotVariant row member =>
      rw [slotVariants] at member
      cases member

end AssessmentPlatform
