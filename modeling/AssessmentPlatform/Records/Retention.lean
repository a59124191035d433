import AssessmentPlatform.Records.Sittings

/-!
# The retention sweep

An organisation's pass erases its expired sittings one after the other and then
drops the addresses of old invites that no live sitting holds.  A pass leaves
nothing that a later pass of the same instant would find.
-/

namespace AssessmentPlatform

open Rows Refusals Database

variable {deployment : Deployment} {around : Surroundings}
variable {db after : Database} {orgId otherId inviteId drawn limit : Nat}
variable {address email pseudonym : String} {now : Time}

/-! ## Pseudonyms -/

theorem mem_addresses :
    address ∈ db.addresses ↔
      (∃ row ∈ db.attempts, row.candidateEmail = address) ∨
      (∃ row ∈ db.submissions, row.candidateEmail = some address) ∨
      (∃ row ∈ db.drafts, row.candidateEmail = address) ∨
      (∃ row ∈ db.events, row.candidateEmail = address) ∨
      (∃ row ∈ db.slotVariants, row.candidateEmail = address) ∨
      (∃ row ∈ db.invites, address ∈ row.recipients) ∨
      ∃ row ∈ db.invites, ∃ delivery ∈ row.deliveries,
        delivery.recipient = address := by
  simp [addresses]

theorem renamed_eq_or {inviteIds : List Nat} (inviteId : Nat)
    (address : String) :
    renamed inviteIds email pseudonym inviteId address = pseudonym ∨
      renamed inviteIds email pseudonym inviteId address = address := by
  unfold renamed
  split
  · exact Or.inl rfl
  · exact Or.inr rfl

/-- An erasure brings no address but its pseudonym. -/
theorem addresses_erase {inviteIds : List Nat} {submissionIds : List String}
    (member : address ∈
      (erase now pseudonym email inviteIds submissionIds db).addresses) :
    address = pseudonym ∨ address ∈ db.addresses := by
  by_cases isPseudonym : address = pseudonym
  · exact Or.inl isPseudonym
  refine Or.inr (mem_addresses.mpr ?_)
  have kept {inviteId : Nat} {was : String}
      (isAddress :
        renamed inviteIds email pseudonym inviteId was = address) :
      was = address := by
    have either : renamed inviteIds email pseudonym inviteId was = pseudonym ∨
        renamed inviteIds email pseudonym inviteId was = was :=
      renamed_eq_or inviteId was
    rcases either with same | same
    · exact absurd (isAddress.symm.trans same) isPseudonym
    · exact same.symm.trans isAddress
  rcases mem_addresses.mp member with ⟨row, isRow, here⟩ | ⟨row, isRow, here⟩ |
    ⟨row, isRow, here⟩ | ⟨row, isRow, here⟩ | ⟨row, isRow, here⟩ |
    ⟨row, isRow, here⟩ | ⟨row, isRow, delivery, isDelivery, here⟩
  · obtain ⟨old, isOld, _, isRenamed⟩ := mem_attempts_erase isRow
    exact Or.inl ⟨old, isOld, kept (isRenamed.symm.trans here)⟩
  · obtain ⟨old, isOld, rfl⟩ := mem_of_mem_updateWhere isRow
    split at here
    · exact absurd (Option.some.inj here).symm isPseudonym
    · exact Or.inr (Or.inl ⟨old, isOld, here⟩)
  · exact Or.inr (Or.inr (Or.inl ⟨row, (mem_deleteWhere.mp isRow).1, here⟩))
  · obtain ⟨old, isOld, _, isRenamed⟩ := mem_events_erase isRow
    iterate 3 apply Or.inr
    exact Or.inl ⟨old, isOld, kept (isRenamed.symm.trans here)⟩
  · obtain ⟨old, isOld, _, isRenamed⟩ := mem_slotVariants_erase isRow
    iterate 4 apply Or.inr
    exact Or.inl ⟨old, isOld, kept (isRenamed.symm.trans here)⟩
  · obtain ⟨old, isOld, rfl⟩ := mem_of_mem_updateWhere isRow
    iterate 5 apply Or.inr
    refine Or.inl ⟨old, isOld, ?_⟩
    split at here
    · exact (List.mem_filter.mp here).1
    · exact here
  · obtain ⟨old, isOld, rfl⟩ := mem_of_mem_updateWhere isRow
    iterate 6 apply Or.inr
    refine ⟨old, isOld, delivery, ?_, here⟩
    split at isDelivery
    · exact (List.mem_filter.mp isDelivery).1
    · exact isDelivery

/-- The attempts that are not erased. -/
def Database.unerased (db : Database) : List CandidateAttempt :=
  db.attempts.filter fun row => row.erasedAt.isNone

/-- There is a fresh pseudonym left for every attempt that is not erased. -/
structure Ready (around : Surroundings) (limit drawn : Nat) (db : Database) :
    Prop where
  enough : drawn + db.unerased.length ≤ limit
  distinct : ∀ first < limit, ∀ second < limit,
    tombstone (around.uuid first) = tombstone (around.uuid second) →
      first = second
  unused : ∀ draw, drawn ≤ draw → draw < limit →
    tombstone (around.uuid draw) ∉ db.addresses

theorem ready_of_fresh (fresh : db.FreshPseudonyms around) :
    Ready around db.attempts.length 0 db where
  enough := by
    rw [Nat.zero_add]
    exact List.length_filter_le _ _
  distinct first isFirst second isSecond same := by
    have nodup := fresh.distinct
    unfold pseudonyms at nodup
    exact List.inj_on_of_nodup_map nodup
      (List.mem_range.mpr (Nat.lt_succ_of_lt isFirst))
      (List.mem_range.mpr (Nat.lt_succ_of_lt isSecond)) same
  unused draw _ inside := by
    apply fresh.unused
    exact List.mem_map_of_mem (List.mem_range.mpr (Nat.lt_succ_of_lt inside))

/-! ## One sitting -/

/-- A sitting that is not erased. -/
def IsLive (db : Database) (sitting : Nat × String) : Prop :=
  ∃ row ∈ db.attempts, (row.inviteId, row.candidateEmail) = sitting ∧
    row.erasedAt = none

/-- What the erasure of a sitting leaves. -/
def Database.withoutSitting (db : Database) (around : Surroundings)
    (drawn inviteId : Nat) (email : String) : Database :=
  erase around.now (tombstone (around.uuid drawn)) email [inviteId]
    (db.sittingIds inviteId email) db

/-- An attempt that an erasure leaves unerased was so before, and is not the
sitting's. -/
theorem unerased_withoutSitting {row : CandidateAttempt}
    (member : row ∈ (db.withoutSitting around drawn inviteId email).attempts)
    (isLive : row.erasedAt = none) :
    row ∈ db.attempts ∧
      (row.inviteId, row.candidateEmail) ≠ (inviteId, email) := by
  obtain ⟨old, isOld, rfl⟩ := mem_of_mem_updateWhere member
  split at isLive
  · cases isLive
  · next unmatched =>
    rw [if_neg unmatched]
    refine ⟨isOld, ?_⟩
    intro same
    obtain ⟨sameInvite, sameEmail⟩ := Prod.mk.inj same
    apply unmatched
    simp [sameInvite, sameEmail]

theorem length_unerased_withoutSitting (isLive : IsLive db (inviteId, email)) :
    (db.withoutSitting around drawn inviteId email).unerased.length <
      db.unerased.length := by
  obtain ⟨row, member, isSitting, unerased⟩ := isLive
  obtain ⟨isInvite, isEmail⟩ := Prod.mk.inj isSitting
  have dropped : (db.withoutSitting around drawn inviteId email).unerased =
      db.unerased.filter fun row => !isErased [inviteId] email row.inviteId
        row.candidateEmail :=
    filter_updateWhere_drop fun _ _ _ => rfl
  rw [dropped, List.length_filter_lt_length_iff_exists]
  refine ⟨row, List.mem_filter.mpr ⟨member, by simp [unerased]⟩, ?_⟩
  simp [isErased, isInvite, isEmail]

theorem eraseSitting_ok (constraints : db.Constraints)
    (ready : Ready around limit drawn db)
    (isLive : IsLive db (inviteId, email)) :
    db.eraseSitting inviteId email around.now
        (tombstone (around.uuid drawn)) =
      .ok (db.withoutSitting around drawn inviteId email) ∧
    (db.withoutSitting around drawn inviteId email).Constraints ∧
    Ready around limit (drawn + 1)
      (db.withoutSitting around drawn inviteId email) := by
  have fewer : (db.withoutSitting around drawn inviteId email).unerased.length <
      db.unerased.length := length_unerased_withoutSitting isLive
  have enough := ready.enough
  have inside : drawn < limit := by omega
  have kept : (db.withoutSitting around drawn inviteId email).Constraints :=
    constraints_erase constraints (ready.unused drawn le_rfl inside)
      (sentBy_sitting constraints.uniqueKeys)
  refine ⟨execute_eq_ok.mpr ⟨kept, rfl⟩, kept, ?_, ready.distinct, ?_⟩
  · omega
  · intro draw later isInside isAddress
    rcases addresses_erase isAddress with same | old
    · have isDrawn := ready.distinct draw isInside drawn inside same
      omega
    · exact ready.unused draw (by omega) isInside old

theorem sound_withoutSitting (deployment : Deployment) (sound : Sound db)
    (constraints :
      (db.withoutSitting around drawn inviteId email).Constraints) :
    Sound (db.withoutSitting around drawn inviteId email) := by
  have change : Change deployment ⟨around, .retentionTick, db⟩ none db
      (db.withoutSitting around drawn inviteId email) :=
    .erased drawn email [inviteId] (db.sittingIds inviteId email) trivial nofun
  exact change.sound sound constraints

theorem isLive_withoutSitting {sitting : Nat × String}
    (isLive : IsLive db sitting) (other : sitting ≠ (inviteId, email)) :
    IsLive (db.withoutSitting around drawn inviteId email) sitting := by
  obtain ⟨row, member, rfl, unerased⟩ := isLive
  refine ⟨row, mem_updateWhere.mpr (Or.inr ⟨member, ?_⟩), rfl, unerased⟩
  intro isMatched
  simp only [Bool.and_eq_true, List.contains_iff_mem, List.mem_singleton,
    beq_iff_eq] at isMatched
  exact other (by rw [isMatched.1, isMatched.2])

/-! ## The sittings of one pass -/

/-- An address that an erasure has left. -/
def IsPseudonym (address : String) : Prop :=
  ∃ drawn, address = tombstone drawn

/-- The rows of a table that carry an address are the old ones of sittings that
were not erased, unless the address is a pseudonym. -/
def LeftOver {Row : Type} (key : Row → Option (Nat × String))
    (sittings : List (Nat × String)) (old new : List Row) : Prop :=
  ∀ row ∈ new, ∀ inviteId address, key row = some (inviteId, address) →
    IsPseudonym address ∨ (row ∈ old ∧ (inviteId, address) ∉ sittings)

/-- An invite without its addresses. -/
def Invite.bare (row : Invite) : Invite :=
  { row with
    recipients := []
    deliveries := [] }

/-- The sitting of a submission. -/
def Submission.sitting (row : Submission) : Option (Nat × String) :=
  row.inviteId.bind fun inviteId => row.candidateEmail.map (inviteId, ·)

theorem Submission.sitting_eq_some {row : Submission} :
    row.sitting = some (inviteId, address) ↔
      row.inviteId = some inviteId ∧ row.candidateEmail = some address := by
  unfold Submission.sitting
  cases row.inviteId <;> cases row.candidateEmail <;> simp

/-- What the erasure of some sittings leaves. -/
structure Swept (around : Surroundings) (limit : Nat)
    (sittings : List (Nat × String)) (db after : Database) : Prop where
  unerased : ∀ row ∈ after.attempts, row.erasedAt = none →
    row ∈ db.attempts ∧ (row.inviteId, row.candidateEmail) ∉ sittings
  others : ∀ inviteId address, (inviteId, address) ∉ sittings →
    (∀ draw < limit, address ≠ tombstone (around.uuid draw)) →
      after.sitting inviteId address = db.sitting inviteId address
  attempts : LeftOver (fun row => some (row.inviteId, row.candidateEmail))
    sittings db.attempts after.attempts
  slotVariants : LeftOver (fun row => some (row.inviteId, row.candidateEmail))
    sittings db.slotVariants after.slotVariants
  events : LeftOver (fun row => some (row.inviteId, row.candidateEmail))
    sittings db.events after.events
  drafts : LeftOver (fun row => some (row.inviteId, row.candidateEmail))
    sittings db.drafts after.drafts
  submissions : LeftOver Submission.sitting sittings db.submissions
    after.submissions
  invites : after.invites.map Invite.bare = db.invites.map Invite.bare
  slices : ∀ orgId, (∀ sitting ∈ sittings, db.ownsInvite orgId sitting.1) →
    ∀ otherId, orgId ≠ otherId → after.slice otherId = db.slice otherId
  ownsInvite : after.ownsInvite = db.ownsInvite
  organizations : after.organizations = db.organizations

theorem LeftOver.nil {Row : Type} (key : Row → Option (Nat × String))
    (rows : List Row) : LeftOver key [] rows rows :=
  fun _ member _ _ _ => Or.inr ⟨member, List.not_mem_nil⟩

theorem LeftOver.cons {Row : Type} {key : Row → Option (Nat × String)}
    {sitting : Nat × String} {sittings : List (Nat × String)}
    {old middle new : List Row} (first : LeftOver key [sitting] old middle)
    (rest : LeftOver key sittings middle new) :
    LeftOver key (sitting :: sittings) old new := by
  intro row member inviteId address isKey
  rcases rest row member inviteId address isKey with isPseudonym | ⟨was, apart⟩
  · exact Or.inl isPseudonym
  rcases first row was inviteId address isKey with isPseudonym | ⟨isOld, other⟩
  · exact Or.inl isPseudonym
  · refine Or.inr ⟨isOld, ?_⟩
    intro isListed
    rcases List.mem_cons.mp isListed with same | later
    · exact other (List.mem_singleton.mpr same)
    · exact apart later

theorem Swept.nil (db : Database) : Swept around limit [] db db where
  unerased _ member _ := ⟨member, List.not_mem_nil⟩
  others _ _ _ _ := rfl
  attempts := .nil _ _
  slotVariants := .nil _ _
  events := .nil _ _
  drafts := .nil _ _
  submissions := .nil _ _
  invites := rfl
  slices _ _ _ _ := rfl
  ownsInvite := rfl
  organizations := rfl

theorem Swept.cons {sitting : Nat × String} {sittings : List (Nat × String)}
    {middle : Database} (first : Swept around limit [sitting] db middle)
    (rest : Swept around limit sittings middle after) :
    Swept around limit (sitting :: sittings) db after where
  unerased row member isLive := by
    obtain ⟨was, apart⟩ := rest.unerased row member isLive
    obtain ⟨isOld, other⟩ := first.unerased row was isLive
    refine ⟨isOld, ?_⟩
    intro isListed
    rcases List.mem_cons.mp isListed with same | later
    · exact other (List.mem_singleton.mpr same)
    · exact apart later
  others inviteId address apart unused := by
    rw [rest.others inviteId address (List.not_mem_of_not_mem_cons apart) unused]
    exact first.others inviteId address
      (by simpa using List.ne_of_not_mem_cons apart) unused
  attempts := first.attempts.cons rest.attempts
  slotVariants := first.slotVariants.cons rest.slotVariants
  events := first.events.cons rest.events
  drafts := first.drafts.cons rest.drafts
  submissions := first.submissions.cons rest.submissions
  invites := rest.invites.trans first.invites
  slices orgId owned otherId other := by
    rw [rest.slices orgId _ otherId other]
    · exact first.slices orgId
        (fun found member => owned found
          (List.mem_singleton.mp member ▸ List.mem_cons_self)) otherId other
    · intro found member
      rw [first.ownsInvite]
      exact owned found (List.mem_cons_of_mem sitting member)
  ownsInvite := rest.ownsInvite.trans first.ownsInvite
  organizations := rest.organizations.trans first.organizations

theorem leftOver_renamed {Row : Type} {rowInvite : Row → Nat}
    {rowAddress : Row → String} {change : Row → Row} {rows : List Row}
    (changed : ∀ row, rowAddress (change row) = tombstone pseudonym) :
    LeftOver (fun row => some (rowInvite row, rowAddress row))
      [(inviteId, email)] rows
      (updateWhere (fun row =>
        isErased [inviteId] email (rowInvite row) (rowAddress row)) change
        rows) := by
  intro row member foundInvite foundAddress isKey
  obtain ⟨rfl, rfl⟩ := Prod.mk.inj (Option.some.inj isKey)
  rcases mem_updateWhere.mp member with ⟨old, _, _, rfl⟩ | ⟨isOld, unmatched⟩
  · exact Or.inl ⟨pseudonym, changed old⟩
  · refine Or.inr ⟨isOld, ?_⟩
    intro listed
    obtain ⟨sameInvite, sameAddress⟩ :=
      Prod.mk.inj (List.mem_singleton.mp listed)
    apply unmatched
    simp [isErased, sameInvite, sameAddress]

/-- The erasure of one sitting, as a sweep. -/
theorem swept_withoutSitting (sound : Sound db) (inside : drawn < limit) :
    Swept around limit [(inviteId, email)] db
      (db.withoutSitting around drawn inviteId email) where
  unerased row member isLive := by
    obtain ⟨isOld, other⟩ := unerased_withoutSitting member isLive
    exact ⟨isOld, by simpa using other⟩
  others foundInvite foundAddress apart unused :=
    sitting_erase sound.constraints.uniqueKeys (by simpa using apart)
      (unused drawn inside)
  attempts := leftOver_renamed fun _ => rfl
  slotVariants := leftOver_renamed fun _ => rfl
  events := leftOver_renamed fun _ => rfl
  drafts row member foundInvite foundAddress isKey := by
    obtain ⟨rfl, rfl⟩ := Prod.mk.inj (Option.some.inj isKey)
    obtain ⟨isOld, unmatched⟩ := mem_deleteWhere.mp member
    refine Or.inr ⟨isOld, ?_⟩
    intro listed
    obtain ⟨sameInvite, sameAddress⟩ :=
      Prod.mk.inj (List.mem_singleton.mp listed)
    apply unmatched
    simp [sameInvite, sameAddress]
  submissions row member foundInvite foundAddress isKey := by
    obtain ⟨old, isOld, rfl⟩ := mem_of_mem_updateWhere member
    obtain ⟨onInvite, sent⟩ := Submission.sitting_eq_some.mp isKey
    split at sent
    · exact Or.inl ⟨_, (Option.some.inj sent).symm⟩
    · next unselected =>
      rw [if_neg unselected] at onInvite ⊢
      refine Or.inr ⟨isOld, ?_⟩
      intro listed
      obtain ⟨sameInvite, sameAddress⟩ :=
        Prod.mk.inj (List.mem_singleton.mp listed)
      apply unselected
      rw [List.contains_iff_mem,
        mem_sittingIds sound.constraints.uniqueKeys isOld]
      exact ⟨onInvite.trans (congrArg some sameInvite),
        sent.trans (congrArg some sameAddress)⟩
  invites := map_updateWhere fun _ => rfl
  slices orgId owned otherId other := by
    have onInvite := owned (inviteId, email) List.mem_cons_self
    apply SameSlice.slice_eq
    apply sameSlice_erase sound other
    · intro id listed
      rw [List.mem_singleton.mp listed]
      exact onInvite
    · intro id selected
      obtain ⟨row, isSitting, rfl⟩ := List.mem_map.mp selected
      obtain ⟨member, sent⟩ := List.mem_filter.mp isSitting
      simp only [Bool.and_eq_true, beq_iff_eq] at sent
      rw [ownsSubmission_iff_collects sound.constraints.uniqueKeys member]
      simp [collects, sent.1, onInvite]
  ownsInvite := ownsInvite_erase
  organizations := rfl

/-- The loop over the sittings of an organisation runs to its end. -/
theorem eraseSittings_ok (deployment : Deployment)
    {sittings : List (Nat × String)} (sound : Sound db)
    (ready : Ready around limit drawn db) (nodup : sittings.Nodup)
    (live : ∀ sitting ∈ sittings, IsLive db sitting) :
    ∃ after, eraseSittings around around.now drawn sittings db =
        (sittings.length, .ok after) ∧
      Sound after ∧ Ready around limit (drawn + sittings.length) after ∧
      Swept around limit sittings db after := by
  induction sittings generalizing drawn db with
  | nil => exact ⟨db, rfl, sound, ready, .nil db⟩
  | cons sitting rest inductionHypothesis =>
      obtain ⟨inviteId, email⟩ := sitting
      have isLive := live (inviteId, email) List.mem_cons_self
      obtain ⟨apart, nodup⟩ := List.nodup_cons.mp nodup
      obtain ⟨erased, constraints, later⟩ :=
        eraseSitting_ok sound.constraints ready isLive
      have inside : drawn < limit := by
        obtain ⟨row, member, _, unerased⟩ := isLive
        have some : 0 < db.unerased.length :=
          List.length_pos_of_mem
            (List.mem_filter.mpr ⟨member, by simp [unerased]⟩)
        have enough := ready.enough
        omega
      obtain ⟨after, swept, isSound, isReady, sweeps⟩ := inductionHypothesis
        (sound_withoutSitting deployment sound constraints) later nodup
        fun found member => isLive_withoutSitting
          (live found (List.mem_cons_of_mem _ member)) fun same =>
            apart (same ▸ member)
      refine ⟨after, ?_, isSound, ?_,
        (swept_withoutSitting sound inside).cons sweeps⟩
      · simp only [eraseSittings, erased, swept, List.length_cons]
      · rw [List.length_cons, Nat.add_comm rest.length 1, ← Nat.add_assoc]
        exact isReady

/-! ## One pass -/

/-- A sitting without the entries of its invite. -/
def SittingRecord.rows (sitting : SittingRecord) : SittingRecord :=
  { sitting with
    recipients := []
    deliveries := [] }

/-- What passes over some expired sittings leave. -/
structure Passed (around : Surroundings) (limit : Nat)
    (sittings : List (Nat × String)) (db after : Database) : Prop where
  unerased : ∀ row ∈ after.attempts, row.erasedAt = none →
    row ∈ db.attempts ∧ (row.inviteId, row.candidateEmail) ∉ sittings
  rows : ∀ inviteId address, (inviteId, address) ∉ sittings →
    (∀ draw < limit, address ≠ tombstone (around.uuid draw)) →
      (after.sitting inviteId address).rows =
        (db.sitting inviteId address).rows
  live : ∀ inviteId address, (inviteId, address) ∉ sittings →
    (∀ draw < limit, address ≠ tombstone (around.uuid draw)) →
      IsLive db (inviteId, address) →
        after.sitting inviteId address = db.sitting inviteId address
  attempts : LeftOver (fun row => some (row.inviteId, row.candidateEmail))
    sittings db.attempts after.attempts
  slotVariants : LeftOver (fun row => some (row.inviteId, row.candidateEmail))
    sittings db.slotVariants after.slotVariants
  events : LeftOver (fun row => some (row.inviteId, row.candidateEmail))
    sittings db.events after.events
  drafts : LeftOver (fun row => some (row.inviteId, row.candidateEmail))
    sittings db.drafts after.drafts
  submissions : LeftOver Submission.sitting sittings db.submissions
    after.submissions
  invites : after.invites.map Invite.bare = db.invites.map Invite.bare
  organizations : after.organizations = db.organizations

theorem LeftOver.append {Row : Type} {key : Row → Option (Nat × String)}
    {first second : List (Nat × String)} {old middle new : List Row}
    (earlier : LeftOver key first old middle)
    (later : LeftOver key second middle new) :
    LeftOver key (first ++ second) old new := by
  intro row member inviteId address isKey
  rcases later row member inviteId address isKey with isPseudonym | ⟨was, apart⟩
  · exact Or.inl isPseudonym
  rcases earlier row was inviteId address isKey with isPseudonym | ⟨isOld, other⟩
  · exact Or.inl isPseudonym
  · exact Or.inr ⟨isOld, List.not_mem_append other apart⟩

theorem Passed.nil (db : Database) : Passed around limit [] db db where
  unerased _ member _ := ⟨member, List.not_mem_nil⟩
  rows _ _ _ _ := rfl
  live _ _ _ _ _ := rfl
  attempts := .nil _ _
  slotVariants := .nil _ _
  events := .nil _ _
  drafts := .nil _ _
  submissions := .nil _ _
  invites := rfl
  organizations := rfl

theorem isLive_of_sitting
    (same : (after.sitting inviteId address).rows =
      (db.sitting inviteId address).rows)
    (isLive : IsLive db (inviteId, address)) :
    IsLive after (inviteId, address) := by
  obtain ⟨row, member, isSitting, unerased⟩ := isLive
  obtain ⟨isInvite, isAddress⟩ := Prod.mk.inj isSitting
  have attempts : after.sittingAttempts inviteId address =
      db.sittingAttempts inviteId address :=
    congrArg SittingRecord.attempts same
  have isRow : row ∈ after.sittingAttempts inviteId address := by
    rw [attempts]
    exact List.mem_filter.mpr ⟨member, by simp [isInvite, isAddress]⟩
  exact ⟨row, (List.mem_filter.mp isRow).1, isSitting, unerased⟩

theorem Passed.append {first second : List (Nat × String)} {middle : Database}
    (earlier : Passed around limit first db middle)
    (later : Passed around limit second middle after) :
    Passed around limit (first ++ second) db after where
  unerased row member isLive := by
    obtain ⟨was, apart⟩ := later.unerased row member isLive
    obtain ⟨isOld, other⟩ := earlier.unerased row was isLive
    exact ⟨isOld, List.not_mem_append other apart⟩
  rows inviteId address apart unused := by
    rw [List.mem_append, not_or] at apart
    rw [later.rows inviteId address apart.2 unused]
    exact earlier.rows inviteId address apart.1 unused
  live inviteId address apart unused isLive := by
    rw [List.mem_append, not_or] at apart
    rw [later.live inviteId address apart.2 unused
      (isLive_of_sitting (earlier.rows inviteId address apart.1 unused) isLive)]
    exact earlier.live inviteId address apart.1 unused isLive
  attempts := earlier.attempts.append later.attempts
  slotVariants := earlier.slotVariants.append later.slotVariants
  events := earlier.events.append later.events
  drafts := earlier.drafts.append later.drafts
  submissions := earlier.submissions.append later.submissions
  invites := later.invites.trans earlier.invites
  organizations := later.organizations.trans earlier.organizations

theorem mem_liveAddresses (isLive : IsLive db (inviteId, address)) :
    deployment.auth.normalizeEmail address ∈
      liveAddresses deployment db inviteId := by
  obtain ⟨row, member, isSitting, unerased⟩ := isLive
  obtain ⟨isInvite, isAddress⟩ := Prod.mk.inj isSitting
  unfold liveAddresses
  refine List.mem_map.mpr ⟨row, List.mem_filter.mpr ⟨member, ?_⟩, ?_⟩
  · simp [isInvite, unerased]
  · rw [isAddress]

theorem filter_live {Row : Type} {rows : List Row} {column : Row → String}
    {isLive : String → Bool} (live : isLive address) :
    (rows.filter fun row => isLive (column row)).filter
        (fun row => column row == address) =
      rows.filter fun row => column row == address := by
  rw [List.filter_filter]
  apply List.filter_congr
  intro row _
  by_cases isRow : column row = address
  · simp [isRow, live]
  · simp [isRow]

/-- Whether an old invite keeps an address. -/
def keepsAddress (deployment : Deployment) (db : Database) (inviteId : Nat)
    (address : String) : Bool :=
  (liveAddresses deployment db inviteId).contains
    (deployment.auth.normalizeEmail address)

theorem keepLiveRecipients_eq (row : Invite) :
    keepLiveRecipients deployment db row =
      { row with
        recipients := row.recipients.filter fun address =>
          keepsAddress deployment db row.id address
        deliveries := row.deliveries.filter fun delivery =>
          keepsAddress deployment db row.id delivery.recipient } :=
  rfl

theorem entries_keepLive {row : Invite}
    (isLive : IsLive db (inviteId, address)) :
    (keepLiveRecipients deployment db row).entries inviteId address =
      row.entries inviteId address := by
  by_cases here : row.id = inviteId
  · have live : keepsAddress deployment db row.id address := by
      rw [here, keepsAddress, List.contains_iff_mem]
      exact mem_liveAddresses isLive
    have deliveries :
        (row.deliveries.filter fun delivery =>
          keepsAddress deployment db row.id delivery.recipient).filter
            (fun delivery => delivery.recipient == address) =
          row.deliveries.filter fun delivery =>
            delivery.recipient == address :=
      filter_live live
    rw [keepLiveRecipients_eq]
    unfold Invite.entries
    dsimp only
    rw [filter_live live, deliveries]
  · simp [Invite.entries, keepLiveRecipients, here]

theorem sitting_expireInviteRecipients {retentionDays : Int}
    (isLive : IsLive db (inviteId, address)) :
    (expireInviteRecipients deployment orgId now retentionDays db).sitting
      inviteId address = db.sitting inviteId address := by
  unfold Database.sitting
  congr 1
  · apply flatMap_updateWhere
    intro row _
    exact congrArg Prod.fst (entries_keepLive isLive)
  · apply flatMap_updateWhere
    intro row _
    exact congrArg Prod.snd (entries_keepLive isLive)

/-- Dropping the addresses without a live sitting leaves the rows of every
sitting, and the entries of the live ones. -/
theorem Swept.passed {sittings : List (Nat × String)} {retentionDays : Int}
    {middle : Database} (swept : Swept around limit sittings db middle) :
    Passed around limit sittings db
      (expireInviteRecipients deployment orgId now retentionDays middle) where
  unerased := swept.unerased
  rows inviteId address apart unused := by
    rw [← swept.others inviteId address apart unused]
    rfl
  live inviteId address apart unused isLive := by
    have same := swept.others inviteId address apart unused
    have stillLive : IsLive middle (inviteId, address) :=
      isLive_of_sitting (congrArg SittingRecord.rows same) isLive
    rw [← same]
    exact sitting_expireInviteRecipients stillLive
  attempts := swept.attempts
  slotVariants := swept.slotVariants
  events := swept.events
  drafts := swept.drafts
  submissions := swept.submissions
  invites := by
    rw [← swept.invites]
    exact map_updateWhere fun _ => rfl
  organizations := swept.organizations

end AssessmentPlatform
