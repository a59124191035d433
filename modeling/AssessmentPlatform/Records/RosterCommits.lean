import AssessmentPlatform.Records.Changes

/-!
# What the roster routes commit

Each handler is read backwards from a run that did not raise: the guards it has
passed, and the one transaction that it committed.
-/

namespace AssessmentPlatform

open Rows Refusals

variable {deployment : Deployment} {served : Served} {scope : Option Nat}
variable {db base after : Database} {caller orgId interviewerId : Nat}
variable {org membership : Membership} {account : Interviewer}

/-- One committed transaction is all that a request does. -/
theorem Commits.one (change : Change deployment served scope db after)
    (constraints : after.Constraints) :
    Commits deployment served scope db after :=
  .single ⟨change, constraints⟩

/-- A statement that ends a request commits the change that it makes. -/
theorem Committed.of_execute {result : Database}
    (executed : after.execute = .ok result)
    (change : Change deployment served scope db after) :
    Committed deployment served scope db result := by
  obtain ⟨constraints, rfl⟩ := Database.execute_eq_ok.mp executed
  exact ⟨change, constraints⟩

theorem Commits.of_execute {result : Database}
    (executed : after.execute = .ok result)
    (change : Change deployment served scope db after) :
    Commits deployment served scope db result :=
  .single (Committed.of_execute executed change)

/-! ## Invitations -/

theorem openOrgInvite_eq_ok {around : Surroundings} {token : String}
    {invite : OrgInvite} (opened : openOrgInvite around db token = .ok invite) :
    invite ∈ db.orgInvites ∧ invite.acceptedAt = none := by
  unfold openOrgInvite at opened
  cases found : fetch OrgInvite.token token db.orgInvites with
  | none => simp [found] at opened
  | some row =>
      simp only [found, ite_throw_eq_ok, pure_eq_ok, Bool.or_eq_true,
        not_or] at opened
      obtain ⟨⟨pending, _⟩, rfl⟩ := opened
      exact ⟨mem_of_fetch found, by simpa using pending⟩

theorem admission_eq_ok {around : Surroundings} {body : RegisterIn}
    {email : String} {orgInvite : Option OrgInvite}
    (admitted : admission deployment around db body email = .ok orgInvite) :
    ∀ invite ∈ orgInvite, invite ∈ db.orgInvites ∧
      invite.acceptedAt = none ∧ invite.email = email := by
  unfold admission at admitted
  cases sent : body.orgInviteToken.filter (· != "") with
  | none =>
      simp only [sent, ite_throw_eq_ok, pure_eq_ok] at admitted
      obtain ⟨_, rfl⟩ := admitted
      simp
  | some token =>
      simp only [sent, throw_bind, bind_eq_ok, ite_throw_eq_ok, pure_eq_ok,
        not_not] at admitted
      obtain ⟨invite, opened, addressed, rfl⟩ := admitted
      obtain ⟨member, pending⟩ := openOrgInvite_eq_ok opened
      simpa using ⟨member, pending, addressed⟩

/-! ## Entering an organisation -/

theorem register_committed {body : RegisterIn}
    (asked : served.request = .register body)
    (registered : register deployment served.around db body = .ok after) :
    Committed deployment served none db after := by
  unfold register at registered
  simp only [throw_bind, bind_eq_ok, ite_throw_eq_ok] at registered
  obtain ⟨_, _, _, _, orgInvite, admitted, _, _, _, finished⟩ := registered
  have enters : Enters db
      (newInterviewer deployment served.around db body
        (deployment.auth.normalizeEmail body.email)) none _ :=
    .newcomer rfl
  have writes : served.request.writesAccounts := by
    simp [asked, ApiRequest.writesAccounts]
  cases orgInvite with
  | none =>
      exact Committed.of_execute finished
        (.founded none enters (Or.inr writes))
  | some invite =>
      obtain ⟨member, pending, addressed⟩ := admission_eq_ok admitted invite rfl
      apply Committed.of_execute finished
      exact .joined enters (nomatch ·) member pending (Or.inl addressed.symm)
        (by simp [asked, ApiRequest.joinsAs]) (Or.inr writes)

theorem createOrg_commits {name : String}
    (created : createOrg deployment db caller name = .ok after) :
    Commits deployment served none db after := by
  unfold createOrg at created
  simp only [throw_bind, bind_eq_ok, ite_throw_eq_ok,
    Database.currentInterviewer_eq_ok, Bool.not_eq_true,
    Option.isSome_eq_false_iff, Option.isNone_iff_eq_none] at created
  obtain ⟨current, found, seatless, finished⟩ := created
  apply Commits.of_execute finished
  have isAccount := mem_of_fetch found
  exact .founded (some name) (.seatless isAccount seatless)
    (Or.inl isAccount)

theorem acceptOrgInvite_committed {token : String}
    (asked : served.request = .member caller (.acceptOrgInvite token))
    (accepted :
      acceptOrgInvite deployment served.around db caller token = .ok after) :
    Committed deployment served none db after := by
  unfold acceptOrgInvite at accepted
  simp only [throw_bind, bind_eq_ok, ite_throw_eq_ok,
    Database.currentInterviewer_eq_ok, not_not] at accepted
  obtain ⟨current, found, invite, opened, addressed, elsewhere, _, _, _,
    finished⟩ := accepted
  obtain ⟨member, pending⟩ := openOrgInvite_eq_ok opened
  have isAccount := mem_of_fetch found
  have joins : served.request.joinsAs current := by
    rw [asked]
    exact (key_of_fetch found).symm
  cases seat : db.membershipFor current.id with
  | none =>
      rw [seat] at finished
      apply Committed.of_execute finished
      have elsewhere : none ≠ some invite.orgId := by simp
      exact .joined (.seatless isAccount seat) elsewhere member pending
        (Or.inr addressed) joins (Or.inl isAccount)
  | some membership =>
      rw [seat] at finished elsewhere
      obtain ⟨left, gaveUp, joined⟩ := bind_eq_ok.mp finished
      apply Committed.of_execute joined
      apply Change.joined (.leaving isAccount seat gaveUp) _ member pending
        (Or.inr addressed) joins (Or.inl isAccount)
      simpa using elsewhere

theorem purgeAccount_constraints
    (deleted : db.purgeAccount interviewerId = .ok after) :
    after.Constraints := by
  unfold Database.purgeAccount at deleted
  simp only [bind_eq_ok] at deleted
  obtain ⟨left, _, disowned, _, executed⟩ := deleted
  obtain ⟨constraints, rfl⟩ := Database.execute_eq_ok.mp executed
  exact constraints

theorem deleteMe_commits {password : String}
    (asked : served.request = .member caller (.deleteMe password))
    (deleted : deleteMe deployment db caller password = .ok after) :
    Commits deployment served none db after := by
  unfold deleteMe at deleted
  simp only [throw_bind, bind_eq_ok, ite_throw_eq_ok,
    Database.currentInterviewer_eq_ok] at deleted
  obtain ⟨current, found, _, purged⟩ := deleted
  rw [key_of_fetch found] at purged
  exact Commits.one (.accountDeleted purged ⟨password, asked⟩)
    (purgeAccount_constraints purged)

/-! ## The roster -/

theorem updateMemberRole_commits {role : Role}
    (updated : updateMemberRole db caller interviewerId role = .ok after) :
    MemberCommits deployment served caller db after := by
  unfold updateMemberRole at updated
  simp only [bind_eq_ok, Database.currentMembership_eq_ok] at updated
  obtain ⟨org, ⟨_, seat⟩, _, _, finished⟩ := updated
  apply MemberCommits.seated seat
  cases target : db.memberOf org.orgId interviewerId with
  | none => simp [target] at finished
  | some membership =>
      obtain ⟨_, _, rfl⟩ := Database.memberOf_eq_some target
      rw [target] at finished
      by_cases demoted : role ≠ .admin
      · simp only [demoted, not_false_eq_true, if_true, bind_eq_ok,
          ne_eq] at finished
        obtain ⟨_, guarded, executed⟩ := finished
        exact Commits.of_execute executed
          (.roleSet role target fun _ => guarded)
      · simp only [demoted, if_false] at finished
        exact Commits.of_execute finished
          (.roleSet role target fun changed => absurd changed demoted)

theorem removeMember_commits
    (removed : removeMember db caller interviewerId = .ok after) :
    MemberCommits deployment served caller db after := by
  unfold removeMember at removed
  simp only [bind_eq_ok, Database.currentMembership_eq_ok] at removed
  obtain ⟨org, ⟨_, seat⟩, _, _, finished⟩ := removed
  apply MemberCommits.seated seat
  cases target : db.memberOf org.orgId interviewerId with
  | none => simp [target] at finished
  | some membership =>
      obtain ⟨_, _, rfl⟩ := Database.memberOf_eq_some target
      simp only [target, bind_eq_ok] at finished
      obtain ⟨_, guarded, executed⟩ := finished
      exact Commits.of_execute executed (.memberRemoved target guarded)

theorem createOrgInvite_commits {email : String} {role : Role}
    (created :
      createOrgInvite deployment served.around db caller email role =
        .ok after) :
    MemberCommits deployment served caller db after := by
  unfold createOrgInvite at created
  simp only [throw_bind, bind_eq_ok, ite_throw_eq_ok,
    Database.currentMembership_eq_ok] at created
  obtain ⟨current, _, org, ⟨_, seat⟩, _, _, _, replaced, deleted, _, _, _,
    _, executed⟩ := created
  apply MemberCommits.seated seat
  obtain ⟨_, rfl⟩ := Database.execute_eq_ok.mp deleted
  apply Commits.of_execute executed
  exact .orgInvited
    { id := db.nextId
      orgId := org.orgId
      token := served.around.token 0
      email := deployment.auth.normalizeEmail email
      role := role
      invitedBy := some current.id
      expiresAt := some (served.around.now + orgInviteTtl)
      acceptedAt := none } rfl rfl rfl

theorem revokeOrgInvite_commits {inviteId : Nat}
    (revoked : revokeOrgInvite db caller inviteId = .ok after) :
    MemberCommits deployment served caller db after := by
  unfold revokeOrgInvite at revoked
  simp only [bind_eq_ok, Database.currentMembership_eq_ok] at revoked
  obtain ⟨org, ⟨_, seat⟩, _, _, finished⟩ := revoked
  apply MemberCommits.seated seat
  cases sent : fetch OrgInvite.id inviteId db.orgInvites with
  | none => simp [sent] at finished
  | some invite =>
      simp only [sent, ite_throw_eq_ok, not_or, not_not] at finished
      obtain ⟨⟨owned, pending⟩, executed⟩ := finished
      exact Commits.of_execute executed
        (.orgInviteRevoked (mem_of_fetch sent) owned (by simpa using pending))

/-! ## Settings -/

/-- A change of other settings leaves the logos. -/
theorem keepsLogos_of_row {row saved : Organization}
    (member : row ∈ db.organizations) (sameId : row.id = saved.id)
    (sameLogo : row.logoSha = saved.logoSha) :
    KeepsLogos db saved db.assets where
  named := fun _ named => Or.inl ⟨row, member, sameId, sameLogo ▸ named⟩
  dropped := fun _ kept => Or.inl kept

theorem updateOrg_commits {name : Option String}
    {retentionDays : Option (Option Int)}
    (updated :
      updateOrg deployment db caller name retentionDays = .ok after) :
    MemberCommits deployment served caller db after := by
  unfold updateOrg at updated
  simp only [bind_eq_ok, Database.currentMembership_eq_ok,
    Database.organization_eq_ok] at updated
  obtain ⟨org, ⟨_, seat⟩, _, _, organization, fetched, executed⟩ := updated
  apply MemberCommits.seated seat
  have isRow : organization.id = org.orgId := key_of_fetch fetched
  apply Commits.of_execute executed
  exact .settings _ db.assets db.nextId isRow le_rfl rfl
    (keepsLogos_of_row (mem_of_fetch fetched) rfl rfl)

/-- Moving a logo touches the organisation's row and assets only, and drops no
asset that is still named. -/
theorem settings_of_logo {stored moved : Database} {row : Organization}
    (member : row ∈ db.organizations) (isRow : row.id = orgId)
    (sha : Option String) (later : db.nextId ≤ stored.nextId)
    (kept : stored.assets.filter (fun asset => asset.orgId ≠ orgId) =
      db.assets.filter (fun asset => asset.orgId ≠ orgId))
    (grown : ∀ asset ∈ db.assets, asset ∈ stored.assets)
    (named : ∀ wanted ∈ sha,
      ∃ asset ∈ stored.assets, asset.orgId = orgId ∧ asset.sha256 = wanted)
    (isStored : stored =
      { db with assets := stored.assets, nextId := stored.nextId })
    (isMoved : moved = setLogoSha stored row sha) (dropped : Option String) :
    Change deployment served (some orgId) db
      (dropUnreferencedLogo moved dropped orgId) := by
  have isSettings (assets : List OrgAsset)
      (others : assets.filter (fun asset => asset.orgId ≠ orgId) =
        db.assets.filter (fun asset => asset.orgId ≠ orgId))
      (logos : KeepsLogos db { row with logoSha := sha } assets) :
      Change deployment served (some orgId) db
        { moved with assets := assets } := by
    rw [isMoved, isStored]
    exact .settings { row with logoSha := sha } assets stored.nextId isRow later
      others logos
  have keeping : Change deployment served (some orgId) db moved := by
    have movedAssets : moved.assets = stored.assets := by rw [isMoved]; rfl
    have logos : KeepsLogos db { row with logoSha := sha } moved.assets := by
      rw [movedAssets]
      exact
        { named := fun wanted isWanted => Or.inr (isRow ▸ named wanted isWanted)
          dropped := fun asset isAsset => Or.inl (grown asset isAsset) }
    exact isSettings moved.assets (by rw [movedAssets]; exact kept) logos
  unfold dropUnreferencedLogo
  cases dropped with
  | none => exact keeping
  | some old =>
      dsimp only
      split
      · exact keeping
      · next unnamed =>
        have isSaved : { row with logoSha := sha } ∈ moved.organizations := by
          rw [isMoved]
          have isOld : row ∈ stored.organizations := by
            rw [isStored]
            exact member
          exact mem_updateWhere.mpr (Or.inl ⟨row, isOld, by simp, rfl⟩)
        have isAssessments : moved.assessments = db.assessments := by
          rw [isMoved, isStored]
          rfl
        simp only [Bool.or_eq_true, List.any_eq_true, Bool.and_eq_true,
          beq_iff_eq, not_or, not_exists, not_and] at unnamed
        apply isSettings
        · rw [isMoved, ← kept]
          simp only [setLogoSha, deleteWhere, List.filter_filter]
          apply List.filter_congr
          intro asset _
          by_cases mine : asset.orgId = orgId <;> simp [mine]
        · have notSha : sha ≠ some old := unnamed.1 _ isSaved isRow
          constructor
          · intro wanted isWanted
            obtain ⟨asset, isAsset, inOrg, isSha⟩ := named wanted isWanted
            refine Or.inr ⟨asset, ?_, inOrg.trans isRow.symm, isSha⟩
            rw [isMoved]
            refine mem_deleteWhere.mpr ⟨isAsset, ?_⟩
            have other : asset.sha256 ≠ old := by
              intro same
              apply notSha
              rw [← same, isSha]
              exact isWanted
            simp [other]
          · intro asset isAsset
            by_cases goes : asset.orgId = orgId ∧ asset.sha256 = old
            · right
              rw [goes.2]
              refine ⟨notSha, fun assessment isAssessment inOrg => ?_⟩
              exact
                unnamed.2 assessment (isAssessments ▸ isAssessment)
                  (inOrg.trans isRow)
            · left
              rw [isMoved]
              refine mem_deleteWhere.mpr ⟨grown asset isAsset, ?_⟩
              simpa using goes

/-- What `put` leaves: the assets that were there, and one for the image. -/
structure PutAsset (db stored : Database) (orgId : Nat) (sha : String) :
    Prop where
  later : db.nextId ≤ stored.nextId
  kept : stored.assets.filter (fun asset => asset.orgId ≠ orgId) =
    db.assets.filter (fun asset => asset.orgId ≠ orgId)
  grown : ∀ asset ∈ db.assets, asset ∈ stored.assets
  there : ∃ asset ∈ stored.assets, asset.orgId = orgId ∧ asset.sha256 = sha
  rest : stored = { db with assets := stored.assets, nextId := stored.nextId }

theorem putAsset_puts (db : Database) (orgId : Nat) (sha : String) :
    PutAsset db (putAsset db orgId sha) orgId sha := by
  unfold putAsset
  split
  · next found =>
      obtain ⟨asset, isAsset, isOurs⟩ := List.any_eq_true.mp found
      simp only [Bool.and_eq_true, beq_iff_eq] at isOurs
      exact ⟨le_rfl, rfl, fun _ member => member, ⟨asset, isAsset, isOurs⟩, rfl⟩
  · exact
      ⟨Nat.le_succ _, by simp, fun _ member => List.mem_append_left _ member,
        ⟨_, List.mem_append_right _ List.mem_cons_self, rfl, rfl⟩, rfl⟩

theorem setOrgLogo_commits
    (moved : setOrgLogo served.around db caller = .ok after) :
    MemberCommits deployment served caller db after := by
  unfold setOrgLogo at moved
  simp only [bind_eq_ok, Database.currentMembership_eq_ok] at moved
  obtain ⟨org, ⟨_, seat⟩, _, _, finished⟩ := moved
  apply MemberCommits.seated seat
  cases image : served.around.logo with
  | error rejected => simp [image] at finished
  | ok sha =>
      simp only [image, bind_eq_ok, Database.organization_eq_ok] at finished
      obtain ⟨organization, fetched, executed⟩ := finished
      have puts := putAsset_puts db org.orgId sha
      have isLogo (dropped : Option String) :
          Change deployment served (some org.orgId) db
            (dropUnreferencedLogo
              (setLogoSha (putAsset db org.orgId sha) organization (some sha))
              dropped org.orgId) := by
        apply settings_of_logo (mem_of_fetch fetched) (key_of_fetch fetched)
          (some sha) puts.later puts.kept puts.grown _ puts.rest rfl
        intro wanted isWanted
        cases isWanted
        exact puts.there
      split at executed
      · exact Commits.of_execute executed (isLogo _)
      · exact Commits.of_execute executed (isLogo none)

theorem clearOrgLogo_commits
    (cleared : clearOrgLogo db caller = .ok after) :
    MemberCommits deployment served caller db after := by
  unfold clearOrgLogo at cleared
  simp only [bind_eq_ok, Database.currentMembership_eq_ok,
    Database.organization_eq_ok] at cleared
  obtain ⟨org, ⟨_, seat⟩, _, _, organization, fetched, executed⟩ := cleared
  apply MemberCommits.seated seat
  apply Commits.of_execute executed
  exact settings_of_logo (mem_of_fetch fetched) (key_of_fetch fetched) none
    le_rfl rfl (fun _ member => member) (by simp) rfl rfl _

theorem startCheckout_commits {plan : String}
    (started :
      startCheckout deployment served.around db caller plan = .ok after) :
    MemberCommits deployment served caller db after := by
  unfold startCheckout at started
  simp only [throw_bind, bind_eq_ok, ite_throw_eq_ok,
    Database.currentMembership_eq_ok, Database.organization_eq_ok] at started
  obtain ⟨org, ⟨_, seat⟩, _, _, _, _, organization, fetched, _,
    finished⟩ := started
  apply MemberCommits.seated seat
  split at finished
  · rw [← pure_eq_ok.mp finished]
  · cases created : served.around.customer with
    | none => simp [created] at finished
    | some customer =>
        rw [created] at finished
        have isRow : organization.id = org.orgId := key_of_fetch fetched
        apply Commits.of_execute finished
        exact .settings _ db.assets db.nextId isRow le_rfl rfl
          (keepsLogos_of_row (mem_of_fetch fetched) rfl rfl)

end AssessmentPlatform
