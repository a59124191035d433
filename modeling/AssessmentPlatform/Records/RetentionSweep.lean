import AssessmentPlatform.Records.Retention

/-!
# The sweep over the organisations

Each organisation with a window gets its pass.  A pass reaches only rows of its
organisation, so what one has settled stays settled under the later ones.
-/

namespace AssessmentPlatform

open Rows Refusals Database

variable {deployment : Deployment} {around : Surroundings}
variable {db after : Database} {orgId otherId inviteId drawn limit : Nat}
variable {address : String} {now : Time} {retentionDays : Int}
variable {trace : List Served}

/-! ## What is expired -/

theorem mem_expiredSittings (keys : db.UniqueKeys) {sitting : Nat × String} :
    sitting ∈ expiredSittings db now orgId retentionDays ↔
      ∃ row ∈ db.attempts, (row.inviteId, row.candidateEmail) = sitting ∧
        db.ownsInvite orgId row.inviteId ∧
        row.startedAt < cutoff now retentionDays ∧ row.erasedAt = none := by
  unfold expiredSittings
  simp only [List.mem_map, List.mem_filter, Bool.and_eq_true,
    List.contains_iff_mem, mem_orgInviteIds keys, decide_eq_true_eq,
    Option.isNone_iff_eq_none]
  constructor
  · intro ⟨row, ⟨member, ⟨owned, old⟩, unerased⟩, isSitting⟩
    exact ⟨row, member, isSitting, owned, old, unerased⟩
  · intro ⟨row, member, isSitting, owned, old, unerased⟩
    exact ⟨row, ⟨member, ⟨owned, old⟩, unerased⟩, isSitting⟩

theorem nodup_expiredSittings (keys : db.UniqueKeys) :
    (expiredSittings db now orgId retentionDays).Nodup :=
  keys.attemptCandidate.sublist (List.filter_sublist.map _)

theorem isLive_of_expired (keys : db.UniqueKeys) {sitting : Nat × String}
    (expired : sitting ∈ expiredSittings db now orgId retentionDays) :
    IsLive db sitting := by
  obtain ⟨row, member, isSitting, _, _, unerased⟩ :=
    (mem_expiredSittings keys).mp expired
  exact ⟨row, member, isSitting, unerased⟩

theorem owned_of_expired (keys : db.UniqueKeys) {sitting : Nat × String}
    (expired : sitting ∈ expiredSittings db now orgId retentionDays) :
    db.ownsInvite orgId sitting.1 := by
  obtain ⟨row, _, isSitting, owned, _⟩ := (mem_expiredSittings keys).mp expired
  rw [← isSitting]
  exact owned

/-- Sweeps only take attempts off the ones that are not erased. -/
theorem expired_of_unerased (keys : db.UniqueKeys) (later : after.UniqueKeys)
    (unerased : ∀ row ∈ after.attempts, row.erasedAt = none →
      row ∈ db.attempts)
    (ownsInvite : after.ownsInvite = db.ownsInvite) {sitting : Nat × String}
    (expired : sitting ∈ expiredSittings after now orgId retentionDays) :
    sitting ∈ expiredSittings db now orgId retentionDays := by
  obtain ⟨row, member, isSitting, owned, old, isLive⟩ :=
    (mem_expiredSittings later).mp expired
  rw [ownsInvite] at owned
  exact (mem_expiredSittings keys).mpr
    ⟨row, unerased row member isLive, isSitting, owned, old, isLive⟩

/-! ## Dropping the addresses -/

/-- Fewer entries of invites break no constraint. -/
theorem constraints_expireInviteRecipients (constraints : db.Constraints) :
    (expireInviteRecipients deployment orgId now retentionDays
      db).Constraints := by
  have unique := constraints.uniqueKeys
  have refers := constraints.foreignKeys
  refine ⟨{ unique with
      invite := unique.invite.updateWhere fun _ => rfl
      inviteToken := unique.inviteToken.updateWhere fun _ => rfl },
    { refers with
      inviteQuestion :=
        Refers.updateWhere refers.inviteQuestion fun _ => Or.inr rfl
      inviteAssessment :=
        Refers.updateWhere refers.inviteAssessment fun _ => Or.inr rfl
      inviteSet := Refers.updateWhere refers.inviteSet fun _ => Or.inr rfl
      inviteCreatedBy :=
        Refers.updateWhere refers.inviteCreatedBy fun _ => Or.inr rfl
      attemptInvite := Refers.updateTargets refers.attemptInvite fun _ => rfl
      slotVariantInvite :=
        Refers.updateTargets refers.slotVariantInvite fun _ => rfl
      eventInvite := Refers.updateTargets refers.eventInvite fun _ => rfl
      draftInvite := Refers.updateTargets refers.draftInvite fun _ => rfl
      submissionInvite :=
        Refers.updateTargets refers.submissionInvite fun _ => rfl }⟩

theorem sound_expireInviteRecipients (around : Surroundings)
    (sound : Sound db) :
    Sound (expireInviteRecipients deployment orgId now retentionDays db) := by
  have change : Change deployment ⟨around, .retentionTick, db⟩ none db
      (expireInviteRecipients deployment orgId now retentionDays db) :=
    .recipientsDropped _ _ (keepsInvite_keepLive db)
  exact change.sound sound
    (constraints_expireInviteRecipients sound.constraints)

theorem addresses_expireInviteRecipients
    (member : address ∈
      (expireInviteRecipients deployment orgId now retentionDays
        db).addresses) : address ∈ db.addresses := by
  rw [mem_addresses] at member ⊢
  iterate 5 refine member.imp_right fun member => ?_
  refine member.imp ?_ ?_
  · intro ⟨row, isRow, here⟩
    obtain ⟨old, isOld, rfl⟩ := mem_of_mem_updateWhere isRow
    refine ⟨old, isOld, ?_⟩
    split at here
    · exact (List.mem_filter.mp here).1
    · exact here
  · intro ⟨row, isRow, delivery, isDelivery, here⟩
    obtain ⟨old, isOld, rfl⟩ := mem_of_mem_updateWhere isRow
    refine ⟨old, isOld, delivery, ?_, here⟩
    split at isDelivery
    · exact (List.mem_filter.mp isDelivery).1
    · exact isDelivery

theorem ready_expireInviteRecipients (ready : Ready around limit drawn db) :
    Ready around limit drawn
      (expireInviteRecipients deployment orgId now retentionDays db) where
  enough := ready.enough
  distinct := ready.distinct
  unused draw later inside isAddress :=
    ready.unused draw later inside (addresses_expireInviteRecipients isAddress)

theorem ownsInvite_expireInviteRecipients :
    (expireInviteRecipients deployment orgId now retentionDays db).ownsInvite =
      db.ownsInvite := by
  funext otherId id
  simp only [ownsInvite, expireInviteRecipients, updateWhere, List.any_map]
  congr 1
  funext row
  dsimp only [Function.comp]
  split <;> rfl

/-- The entries that are dropped are those of the organisation's invites. -/
theorem slice_expireInviteRecipients (sound : Sound db)
    (other : orgId ≠ otherId) :
    (expireInviteRecipients deployment orgId now retentionDays db).slice
      otherId = db.slice otherId := by
  have keys := sound.constraints.uniqueKeys
  apply SameSlice.slice_eq
  refine { SameSlice.refl otherId db with invites := filter_updateWhere ?_ }
  intro row member isMatched
  simp only [Bool.and_eq_true, List.contains_iff_mem, mem_orgInviteIds keys]
    at isMatched
  have owned := (ownsInvite_iff_targets keys member).mp isMatched.1
  have notTheirs :=
    targets_apart keys (sound.tenancy.inviteOne row member) owned other
  exact ⟨notTheirs, notTheirs⟩

/-! ## What a pass has settled -/

/-- Nothing of an organisation is left for a pass. -/
structure PassDone (deployment : Deployment) (now : Time) (orgId : Nat)
    (retentionDays : Int) (db : Database) : Prop where
  sittings : expiredSittings db now orgId retentionDays = []
  invites : ∀ row ∈ db.invites, db.ownsInvite orgId row.id →
    row.createdAt < cutoff now retentionDays →
      keepLiveRecipients deployment db row = row

theorem PassDone.expireInviteRecipients_eq (keys : db.UniqueKeys)
    (settled : PassDone deployment now orgId retentionDays db) :
    expireInviteRecipients deployment orgId now retentionDays db = db := by
  have same : (expireInviteRecipients deployment orgId now retentionDays
      db).invites = db.invites := by
    apply updateWhere_eq_self
    intro row member isMatched
    simp only [Bool.and_eq_true, List.contains_iff_mem, mem_orgInviteIds keys,
      decide_eq_true_eq] at isMatched
    exact settled.invites row member isMatched.1 isMatched.2
  exact congrArg (fun invites => { db with invites := invites }) same

/-- A pass over what is settled changes nothing and reports zero. -/
theorem PassDone.purgeExpiredOf_eq {organization : Organization}
    (constraints : db.Constraints)
    (settled : PassDone deployment around.now organization.id retentionDays
      db) :
    purgeExpiredOf deployment around around.now organization retentionDays drawn
      db = (0, .ok db) := by
  unfold purgeExpiredOf
  dsimp only
  rw [settled.sittings]
  refine Prod.ext rfl ?_
  change (expireInviteRecipients deployment organization.id around.now
    retentionDays db).execute = .ok db
  rw [settled.expireInviteRecipients_eq constraints.uniqueKeys]
  exact execute_eq_ok.mpr ⟨constraints, rfl⟩

/-- Whether something is settled shows in the rows of the organisation. -/
theorem PassDone.of_slice (keys : db.UniqueKeys) (later : after.UniqueKeys)
    (settled : PassDone deployment now orgId retentionDays db)
    (same : after.slice orgId = db.slice orgId) :
    PassDone deployment now orgId retentionDays after := by
  have attempts : after.attempts.filter
        (fun row => after.ownsInvite orgId row.inviteId) =
      db.attempts.filter fun row => db.ownsInvite orgId row.inviteId :=
    congrArg Database.attempts same
  have invites : after.invites.filter (after.targets orgId) =
      db.invites.filter (db.targets orgId) :=
    congrArg Database.invites same
  constructor
  · rw [List.eq_nil_iff_forall_not_mem]
    intro sitting expired
    obtain ⟨row, member, isSitting, owned, old, isLive⟩ :=
      (mem_expiredSittings later).mp expired
    have here : row ∈ db.attempts.filter
        fun row => db.ownsInvite orgId row.inviteId := by
      rw [← attempts]
      exact List.mem_filter.mpr ⟨member, owned⟩
    obtain ⟨was, owned⟩ := List.mem_filter.mp here
    have found : sitting ∈ expiredSittings db now orgId retentionDays :=
      (mem_expiredSittings keys).mpr ⟨row, was, isSitting, owned, old, isLive⟩
    rw [settled.sittings] at found
    exact List.not_mem_nil found
  · intro row member owned old
    have here : row ∈ db.invites.filter (db.targets orgId) := by
      rw [← invites]
      exact List.mem_filter.mpr
        ⟨member, (ownsInvite_iff_targets later member).mp owned⟩
    obtain ⟨was, isTarget⟩ := List.mem_filter.mp here
    have wasOwned := (ownsInvite_iff_targets keys was).mpr isTarget
    -- The sittings of the invite are among the rows of the organisation.
    have among {state : Database} (owned : state.ownsInvite orgId row.id) :
        liveAddresses deployment state row.id =
          ((state.attempts.filter fun attempt =>
            state.ownsInvite orgId attempt.inviteId).filter fun attempt =>
              attempt.inviteId == row.id && attempt.erasedAt.isNone).map
            fun attempt => deployment.auth.normalizeEmail
              attempt.candidateEmail := by
      unfold liveAddresses
      congr 1
      rw [List.filter_filter]
      apply List.filter_congr
      intro attempt _
      by_cases onInvite : attempt.inviteId = row.id
      · simp [onInvite, owned]
      · simp [onInvite]
    have live : liveAddresses deployment after row.id =
        liveAddresses deployment db row.id := by
      rw [among owned, among wasOwned, attempts]
    have kept : keepLiveRecipients deployment after row =
        keepLiveRecipients deployment db row := by
      unfold keepLiveRecipients
      rw [live]
    rw [kept]
    exact settled.invites row was wasOwned old

theorem keepLive_keepLive (row : Invite) {middle : Database}
    (same : middle.attempts = db.attempts) :
    keepLiveRecipients deployment middle
        (keepLiveRecipients deployment db row) =
      keepLiveRecipients deployment db row := by
  have live (inviteId : Nat) : liveAddresses deployment middle inviteId =
      liveAddresses deployment db inviteId := by
    unfold liveAddresses
    rw [same]
  unfold keepLiveRecipients
  simp only [live, List.filter_filter, Bool.and_self]

/-- Dropping the addresses settles an organisation without expired sittings. -/
theorem passDone_expireInviteRecipients (keys : db.UniqueKeys)
    (none : expiredSittings db now orgId retentionDays = []) :
    PassDone deployment now orgId retentionDays
      (expireInviteRecipients deployment orgId now retentionDays db) where
  sittings := by
    rw [List.eq_nil_iff_forall_not_mem] at none ⊢
    intro sitting expired
    apply none sitting
    have later : (expireInviteRecipients deployment orgId now retentionDays
        db).UniqueKeys :=
      { keys with
        invite := keys.invite.updateWhere fun _ => rfl
        inviteToken := keys.inviteToken.updateWhere fun _ => rfl }
    exact expired_of_unerased keys later (fun _ member _ => member)
      ownsInvite_expireInviteRecipients expired
  invites row member owned old := by
    rw [ownsInvite_expireInviteRecipients] at owned
    obtain ⟨was, isWas, rfl⟩ := mem_of_mem_updateWhere member
    split
    · exact keepLive_keepLive was rfl
    · next unmatched =>
      rw [if_neg unmatched] at owned old
      apply absurd _ unmatched
      simp [mem_orgInviteIds keys, owned, old]

/-! ## The pass over one organisation -/

/-- What the pass over an organisation leaves. -/
structure PassedOver (deployment : Deployment) (around : Surroundings)
    (limit : Nat) (orgId : Nat) (retentionDays : Int) (db after : Database) :
    Prop where
  sound : Sound after
  passed : Passed around limit
    (expiredSittings db around.now orgId retentionDays) db after
  settled : PassDone deployment around.now orgId retentionDays after
  ownsInvite : after.ownsInvite = db.ownsInvite
  slices : ∀ otherId, orgId ≠ otherId →
    after.slice otherId = db.slice otherId

theorem purgeExpiredOf_ok (deployment : Deployment)
    {organization : Organization} (sound : Sound db)
    (ready : Ready around limit drawn db) (retentionDays : Int) :
    ∃ after, purgeExpiredOf deployment around around.now organization
        retentionDays drawn db =
          ((expiredSittings db around.now organization.id
            retentionDays).length, .ok after) ∧
      Ready around limit (drawn + (expiredSittings db around.now
        organization.id retentionDays).length) after ∧
      PassedOver deployment around limit organization.id retentionDays db
        after := by
  have keys := sound.constraints.uniqueKeys
  obtain ⟨middle, erased, isSound, isReady, swept⟩ :=
    eraseSittings_ok deployment sound ready
      (nodup_expiredSittings keys : (expiredSittings db around.now
        organization.id retentionDays).Nodup)
      fun _ expired => isLive_of_expired keys expired
  have owned : ∀ sitting ∈ expiredSittings db around.now organization.id
      retentionDays, db.ownsInvite organization.id sitting.1 :=
    fun _ expired => owned_of_expired keys expired
  have none : expiredSittings middle around.now organization.id
      retentionDays = [] := by
    rw [List.eq_nil_iff_forall_not_mem]
    intro sitting expired
    have was := expired_of_unerased keys isSound.constraints.uniqueKeys
      (fun row member isLive => (swept.unerased row member isLive).1)
      swept.ownsInvite expired
    obtain ⟨row, member, isSitting, _, _, isLive⟩ :=
      (mem_expiredSittings isSound.constraints.uniqueKeys).mp expired
    apply (swept.unerased row member isLive).2
    rw [isSitting]
    exact was
  have executed : (expireInviteRecipients deployment organization.id around.now
      retentionDays middle).Constraints :=
    constraints_expireInviteRecipients isSound.constraints
  refine ⟨expireInviteRecipients deployment organization.id around.now
    retentionDays middle, ?_, ready_expireInviteRecipients isReady,
    sound_expireInviteRecipients around isSound, swept.passed,
    passDone_expireInviteRecipients isSound.constraints.uniqueKeys none, ?_, ?_⟩
  · unfold purgeExpiredOf
    dsimp only
    rw [erased]
    refine Prod.ext rfl ?_
    exact execute_eq_ok.mpr ⟨executed, rfl⟩
  · exact ownsInvite_expireInviteRecipients.trans swept.ownsInvite
  · intro otherId other
    rw [slice_expireInviteRecipients isSound other]
    exact swept.slices organization.id owned otherId other

/-! ## The loop -/

/-- The retention window of an organisation that has one. -/
def Organization.window (organization : Organization) : Option Int :=
  organization.retentionDays.filter fun retentionDays => 0 < retentionDays

/-- A sitting that one of the organisations has to erase. -/
def IsDue (db : Database) (now : Time) (organizations : List Organization)
    (sitting : Nat × String) : Prop :=
  ∃ organization ∈ organizations, ∃ retentionDays,
    organization.window = some retentionDays ∧
      sitting ∈ expiredSittings db now organization.id retentionDays

/-- What the loop over some organisations leaves. -/
structure SweptOver (deployment : Deployment) (around : Surroundings)
    (limit : Nat) (organizations : List Organization) (db after : Database) :
    Prop where
  sound : Sound after
  passed : ∃ sittings, Passed around limit sittings db after ∧
    ∀ sitting ∈ sittings, IsDue db around.now organizations sitting
  settled : ∀ organization ∈ organizations, ∀ retentionDays,
    organization.window = some retentionDays →
      PassDone deployment around.now organization.id retentionDays after
  ownsInvite : after.ownsInvite = db.ownsInvite
  slices : ∀ orgId, (∀ organization ∈ organizations,
    organization.window ≠ none → organization.id ≠ orgId) →
      after.slice orgId = db.slice orgId

section Loop

variable {organization : Organization} {rest : List Organization}

/-- An organisation without a window is passed over. -/
theorem purgeExpiredLoop_skip (unbounded : organization.window = none) :
    purgeExpiredLoop deployment around now drawn (organization :: rest) db =
      purgeExpiredLoop deployment around now drawn rest db := by
  rw [purgeExpiredLoop]
  unfold Organization.window at unbounded
  split
  · rfl
  · next retentionDays isWindow =>
    rw [isWindow, Option.filter_eq_none_iff] at unbounded
    have nonpositive := unbounded retentionDays rfl
    rw [decide_eq_true_eq, Int.not_lt] at nonpositive
    rw [if_pos nonpositive]

/-- The pass over an organisation with a window comes before the rest. -/
theorem purgeExpiredLoop_run {count : Nat}
    (window : organization.window = some retentionDays)
    (purged : purgeExpiredOf deployment around now organization retentionDays
      drawn db = (count, .ok after)) :
    purgeExpiredLoop deployment around now drawn (organization :: rest) db =
      let later := purgeExpiredLoop deployment around now
        (drawn + (expiredSittings db now organization.id
          retentionDays).length) rest after
      (later.1, count + later.2) := by
  obtain ⟨isWindow, positive⟩ := Option.filter_eq_some_iff.mp window
  rw [decide_eq_true_eq] at positive
  rw [purgeExpiredLoop, isWindow]
  dsimp only
  rw [if_neg (Int.not_le.mpr positive), purged]

/-- A second sweep of the same instant has nothing to do. -/
theorem purgeExpiredLoop_settled {organizations : List Organization}
    (constraints : db.Constraints)
    (settled : ∀ organization ∈ organizations, ∀ retentionDays,
      organization.window = some retentionDays →
        PassDone deployment around.now organization.id retentionDays db) :
    purgeExpiredLoop deployment around around.now drawn organizations db =
      (db, 0) := by
  induction organizations generalizing drawn with
  | nil => rfl
  | cons organization rest inductionHypothesis =>
      have later : ∀ drawn, purgeExpiredLoop deployment around around.now drawn
          rest db = (db, 0) := fun _ =>
        inductionHypothesis fun other member =>
          settled other (List.mem_cons_of_mem organization member)
      cases window : organization.window with
      | none =>
          rw [purgeExpiredLoop_skip window]
          exact later drawn
      | some retentionDays =>
          have here :=
            settled organization List.mem_cons_self retentionDays window
          rw [purgeExpiredLoop_run window (here.purgeExpiredOf_eq constraints)]
          dsimp only
          rw [later]
          rfl

/-- The sweep over the rest, after an organisation was passed over. -/
theorem SweptOver.skip
    (unbounded : organization.window = none)
    (swept : SweptOver deployment around limit rest db after) :
    SweptOver deployment around limit (organization :: rest) db after where
  sound := swept.sound
  passed := by
    obtain ⟨sittings, passed, due⟩ := swept.passed
    refine ⟨sittings, passed, ?_⟩
    intro sitting member
    obtain ⟨other, isOther, found⟩ := due sitting member
    exact ⟨other, List.mem_cons_of_mem organization isOther, found⟩
  settled other member retentionDays window := by
    rcases List.mem_cons.mp member with rfl | later
    · rw [unbounded] at window
      cases window
    · exact swept.settled other later retentionDays window
  ownsInvite := swept.ownsInvite
  slices orgId apart := swept.slices orgId fun other member =>
    apart other (List.mem_cons_of_mem organization member)

/-- The sweep over the rest, after the pass over an organisation. -/
theorem SweptOver.pass {middle : Database}
    (window : organization.window = some retentionDays)
    (apart : ∀ other ∈ rest, other.id ≠ organization.id) (sound : Sound db)
    (first : PassedOver deployment around limit organization.id retentionDays
      db middle)
    (swept : SweptOver deployment around limit rest middle after) :
    SweptOver deployment around limit (organization :: rest) db after where
  sound := swept.sound
  passed := by
    obtain ⟨sittings, passed, due⟩ := swept.passed
    refine ⟨_, first.passed.append passed, ?_⟩
    intro sitting member
    rcases List.mem_append.mp member with here | later
    · exact ⟨organization, List.mem_cons_self, retentionDays, window, here⟩
    · obtain ⟨other, isOther, days, isWindow, expired⟩ := due sitting later
      refine ⟨other, List.mem_cons_of_mem organization isOther, days, isWindow,
        ?_⟩
      exact expired_of_unerased sound.constraints.uniqueKeys
        first.sound.constraints.uniqueKeys
        (fun row isRow isLive => (first.passed.unerased row isRow isLive).1)
        first.ownsInvite expired
  settled other member days isWindow := by
    rcases List.mem_cons.mp member with rfl | later
    · obtain rfl := Option.some.inj (window.symm.trans isWindow)
      apply first.settled.of_slice first.sound.constraints.uniqueKeys
        swept.sound.constraints.uniqueKeys
      exact swept.slices other.id fun found isFound _ => apart found isFound
    · exact swept.settled other later days isWindow
  ownsInvite := swept.ownsInvite.trans first.ownsInvite
  slices orgId others := by
    rw [swept.slices orgId fun other member =>
      others other (List.mem_cons_of_mem organization member)]
    apply first.slices
    apply others organization List.mem_cons_self
    rw [window]
    exact Option.some_ne_none retentionDays

end Loop

/-- The loop runs through all its organisations. -/
theorem purgeExpiredLoop_swept (deployment : Deployment)
    {organizations : List Organization} (sound : Sound db)
    (ready : Ready around limit drawn db)
    (keyed : Keyed Organization.id organizations) :
    SweptOver deployment around limit organizations db
      (purgeExpiredLoop deployment around around.now drawn organizations
        db).1 := by
  induction organizations generalizing drawn db with
  | nil =>
      exact ⟨sound, ⟨[], .nil db, nofun⟩, nofun, rfl, fun _ _ => rfl⟩
  | cons organization rest inductionHypothesis =>
      obtain ⟨apart, keyed⟩ := List.nodup_cons.mp keyed
      cases window : organization.window with
      | none =>
          rw [purgeExpiredLoop_skip window]
          exact (inductionHypothesis sound ready keyed).skip window
      | some retentionDays =>
          obtain ⟨middle, purged, isReady, passed⟩ :=
            purgeExpiredOf_ok deployment sound ready retentionDays
          rw [purgeExpiredLoop_run window purged]
          apply SweptOver.pass window _ sound passed
            (inductionHypothesis passed.sound isReady keyed)
          intro other member same
          exact apart (List.mem_map.mpr ⟨other, member, same⟩)

/-! ## The sweep -/

/-- A sweep is done with every organisation. -/
theorem purgeExpired_swept (deployment : Deployment) (sound : Sound db)
    (fresh : db.FreshPseudonyms around) :
    SweptOver deployment around db.attempts.length
      (db.organizations.filter fun row => row.retentionDays.isSome) db
      (purgeExpired deployment around around.now db).1 :=
  purgeExpiredLoop_swept deployment sound (ready_of_fresh fresh)
    (sound.constraints.uniqueKeys.organization.sublist
      (List.filter_sublist.map _))

theorem isSome_of_window {organization : Organization}
    (window : organization.window = some retentionDays) :
    organization.retentionDays.isSome := by
  rw [(Option.filter_eq_some_iff.mp window).1]
  rfl

/-- A sitting inside of its window is not due. -/
theorem not_due {organization : Organization} {row : CandidateAttempt}
    {organizations : List Organization} (sound : Sound db)
    (isOrganization : organization ∈ db.organizations)
    (among : ∀ other ∈ organizations, other ∈ db.organizations)
    (window : organization.window = some retentionDays)
    (member : row ∈ db.attempts)
    (owned : db.ownsInvite organization.id row.inviteId)
    (recent : cutoff now retentionDays ≤ row.startedAt) :
    ¬IsDue db now organizations (row.inviteId, row.candidateEmail) := by
  have keys := sound.constraints.uniqueKeys
  intro ⟨other, isOther, days, isWindow, expired⟩
  obtain ⟨found, isFound, isSitting, foundOwned, old, _⟩ :=
    (mem_expiredSittings keys).mp expired
  obtain rfl := keys.attemptCandidate.eq isFound member isSitting
  have sameOrg : other.id = organization.id := by
    by_contra different
    have notTheirs := ownsInvite_apart sound foundOwned different
    rw [owned] at notTheirs
    cases notTheirs
  obtain rfl :=
    keys.organization.eq (among other isOther) isOrganization sameOrg
  obtain rfl := Option.some.inj (window.symm.trans isWindow)
  exact absurd old (not_lt.mpr recent)

theorem attempt_ne_drawn {row : CandidateAttempt}
    (fresh : db.FreshPseudonyms around) (member : row ∈ db.attempts) :
    ∀ draw < db.attempts.length,
      row.candidateEmail ≠ tombstone (around.uuid draw) := by
  intro draw inside same
  apply fresh.unused (tombstone (around.uuid draw))
  · exact List.mem_map_of_mem (List.mem_range.mpr (Nat.lt_succ_of_lt inside))
  · rw [← same]
    exact mem_addresses.mpr (Or.inl ⟨row, member, rfl⟩)

/-- A sweep leaves the sittings inside of their window, leaves every row of an
organisation without a window, and leaves nothing for a second sweep of the
same instant. -/
theorem retention_safe (run : Run deployment trace db) (around : Surroundings)
    (fresh : db.FreshPseudonyms around) :
    (∀ organization ∈ db.organizations, ∀ retentionDays,
      organization.window = some retentionDays →
        ∀ row ∈ db.attempts, db.ownsInvite organization.id row.inviteId →
          cutoff around.now retentionDays ≤ row.startedAt →
            (((purgeExpired deployment around around.now db).1.sitting
              row.inviteId row.candidateEmail).rows =
                (db.sitting row.inviteId row.candidateEmail).rows) ∧
            (row.erasedAt = none →
              (purgeExpired deployment around around.now db).1.sitting
                row.inviteId row.candidateEmail =
                  db.sitting row.inviteId row.candidateEmail)) ∧
    (∀ organization ∈ db.organizations, organization.window = none →
      (purgeExpired deployment around around.now db).1.slice organization.id =
        db.slice organization.id) ∧
    ∀ again : Surroundings, again.now = around.now →
      purgeExpired deployment again again.now
          (purgeExpired deployment around around.now db).1 =
        ((purgeExpired deployment around around.now db).1, 0) := by
  have sound := run.sound
  have keys := sound.constraints.uniqueKeys
  have swept := purgeExpired_swept deployment sound fresh
  have among : ∀ other ∈ db.organizations.filter
      (fun row => row.retentionDays.isSome), other ∈ db.organizations :=
    fun _ member => (List.mem_filter.mp member).1
  obtain ⟨sittings, passed, due⟩ := swept.passed
  refine ⟨?_, ?_, ?_⟩
  · intro organization isOrganization retentionDays window row member owned
      recent
    have apart : (row.inviteId, row.candidateEmail) ∉ sittings := fun listed =>
      not_due sound isOrganization among window member owned recent
        (due _ listed)
    have unused := attempt_ne_drawn fresh member
    refine ⟨passed.rows _ _ apart unused, ?_⟩
    intro isLive
    exact passed.live _ _ apart unused ⟨row, member, rfl, isLive⟩
  · intro organization isOrganization unbounded
    apply swept.slices
    intro other isOther hasWindow same
    obtain rfl := keys.organization.eq (among other isOther) isOrganization same
    exact hasWindow unbounded
  · intro again sameInstant
    rw [purgeExpired, passed.organizations]
    apply purgeExpiredLoop_settled swept.sound.constraints
    intro organization member retentionDays window
    rw [sameInstant]
    exact swept.settled organization member retentionDays window

namespace Scenario

/-- The organisation keeps sittings for a day. -/
def keepsOneDay : Asked :=
  asks 1 'h' (.updateOrg none (some (some 1)))

/-- The candidate is invited again the next day, and starts. -/
def sitsAgain : List Asked :=
  [asks (Accounts.days 1) 'i'
      (.createAssessmentInvite "ab" ⟨["c@x"], candidate_invited, none⟩),
    behind "i" (Accounts.days 1) 'j' (.start ⟨"c@x", true, some "Cy"⟩)]

/-- One address with two sittings. -/
def sitsTwice : List Asked :=
  submitted ++ keepsOneDay :: sitsAgain

end Scenario

open Scenario in
/-- The first of the two sittings goes, the second one stays. -/
theorem retention_safe_sits_twice :
    (purgeExpired Scenario.deployment
        (surroundings (Accounts.days 1 + 10) 'k') (Accounts.days 1 + 10)
        (play sitsTwice).2).2 = 1 ∧
      (purgeExpired Scenario.deployment
        (surroundings (Accounts.days 1 + 10) 'k') (Accounts.days 1 + 10)
        (play sitsTwice).2).1.sitting 18 "c@x" =
          (play sitsTwice).2.sitting 18 "c@x" := by
  refine ⟨by decide, ?_⟩
  obtain ⟨recent, _, _⟩ := retention_safe (run_play sitsTwice)
    (surroundings (Accounts.days 1 + 10) 'k') ⟨by decide, by decide⟩
  have organization : (play sitsTwice).2.organizations =
      [⟨2, "Ann's organisation", none, "free", "active", none, none, none,
        some 1⟩] := by decide
  have attempts : ⟨19, 18, "c@x", some "Cy", Accounts.days 1,
      some (Accounts.days 1), some "v1", none, none, Accounts.days 1⟩ ∈
        (play sitsTwice).2.attempts := by decide
  exact (recent _ (organization ▸ List.mem_singleton_self _) 1 rfl _ attempts
    (by decide) (by decide)).2 rfl

end AssessmentPlatform
