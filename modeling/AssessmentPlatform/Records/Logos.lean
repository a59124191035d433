import AssessmentPlatform.Records.Isolation
import AssessmentPlatform.Records.Sample

/-!
# Logos and their assets

An asset is addressed by its organisation and the digest of its content, and
the organisation's row and its assessments name it by the digest alone.  No
foreign key guards these names: the routes drop an asset only after they have
looked for them.
-/

namespace AssessmentPlatform

open Refusals Rows

variable {deployment : Deployment} {served : Served} {scope : Option Nat}
variable {db after base left : Database} {orgId caller : Nat} {sha : String}

/-! ## Every name resolves -/

/-- The organisation has an asset at the address. -/
def Database.HasAsset (db : Database) (orgId : Nat) (sha : String) : Prop :=
  ∃ asset ∈ db.assets, asset.orgId = orgId ∧ asset.sha256 = sha

/-- Every logo that an organisation or an assessment names has an asset. -/
structure LogosResolve (db : Database) : Prop where
  organization : ∀ row ∈ db.organizations, ∀ sha ∈ row.logoSha,
    db.HasAsset row.id sha
  assessment : ∀ row ∈ db.assessments, ∀ sha ∈ row.logoSha,
    db.HasAsset row.orgId sha

theorem logosResolve_empty : LogosResolve .empty := by
  constructor <;> intro row member <;> cases member

/-- A purge takes an organisation's assets with all that can name them. -/
theorem LogosResolve.purged (resolve : LogosResolve db) (orgId : Nat) :
    LogosResolve (db.purged orgId) where
  organization := by
    intro row member sha named
    obtain ⟨isRow, apart⟩ := mem_deleteWhere.mp member
    obtain ⟨asset, isAsset, inOrg, isSha⟩ :=
      resolve.organization row isRow sha named
    refine ⟨asset, mem_deleteWhere.mpr ⟨isAsset, ?_⟩, inOrg, isSha⟩
    rw [inOrg]
    exact apart
  assessment := by
    intro row member sha named
    obtain ⟨isRow, apart⟩ := mem_deleteWhere.mp member
    obtain ⟨asset, isAsset, inOrg, isSha⟩ :=
      resolve.assessment row isRow sha named
    refine ⟨asset, mem_deleteWhere.mpr ⟨isAsset, ?_⟩, inOrg, isSha⟩
    rw [inOrg]
    exact apart

theorem LogosResolve.entered {account : Interviewer} {gaveUp : Option Nat}
    (resolve : LogosResolve db) (enters : Enters db account gaveUp base) :
    LogosResolve base := by
  cases enters with
  | newcomer => exact { resolve with }
  | seatless => exact resolve
  | leaving _ _ gaveUp =>
      obtain ⟨rfl, _⟩ := leaveEmptyOrg_eq_ok gaveUp
      exact resolve.purged _

theorem Database.Left.logosResolve {interviewerId : Nat}
    (leaving : Database.Left db interviewerId left)
    (resolve : LogosResolve db) : LogosResolve left := by
  cases leaving with
  | seatless => exact resolve
  | shared => exact { resolve with }
  | last => exact resolve.purged _

/-- Assessments that come from earlier ones name nothing new. -/
theorem LogosResolve.assessments (resolve : LogosResolve db)
    {assessments : List Assessment}
    (derived : Derived (fun row => (row.orgId, row.logoSha)) db.assessments
      assessments) :
    ∀ row ∈ assessments, ∀ sha ∈ row.logoSha, db.HasAsset row.orgId sha := by
  intro row member sha named
  obtain ⟨was, isWas, same⟩ := derived row member
  obtain ⟨sameOrg, sameLogo⟩ := Prod.mk.inj same
  rw [← sameOrg]
  exact resolve.assessment was isWas sha (sameLogo ▸ named)

theorem Change.logosResolve
    (change : Change deployment served scope db after)
    (resolve : LogosResolve db) : LogosResolve after := by
  cases change with
  | founded _ enters =>
      have entered := resolve.entered enters
      refine { entered with organization := ?_ }
      intro row member sha named
      rcases List.mem_append.mp member with isOld | isNew
      · exact entered.organization row isOld sha named
      · obtain rfl := List.mem_singleton.mp isNew
        cases named
  | joined enters => exact { resolve.entered enters with }
  | accountDeleted deleted =>
      obtain ⟨left, leaving, rfl⟩ := Database.purgeAccount_left deleted
      have kept := leaving.logosResolve resolve
      exact { kept with
        assessment := kept.assessments (derived_updateWhere fun _ => rfl) }
  | settings row assets nextId isRow _ others logos =>
      have assetKept : ∀ asset ∈ db.assets, asset.orgId ≠ row.id →
          asset ∈ assets := by
        intro asset isAsset apart
        rw [← isRow] at others
        exact
          mem_of_filter_eq others isAsset (by simpa using apart)
      constructor
      · intro other member wanted named
        rcases mem_save member with rfl | ⟨isOld, apart⟩
        · rcases logos.named wanted named with
            ⟨was, isWas, same, wasLogo⟩ | there
          · obtain ⟨asset, isAsset, inOrg, isSha⟩ :=
              resolve.organization was isWas wanted wasLogo
            rcases logos.dropped asset isAsset with kept | ⟨unnamed, _⟩
            · exact ⟨asset, kept, inOrg.trans same, isSha⟩
            · rw [isSha] at unnamed
              exact absurd named unnamed
          · exact there
        · obtain ⟨asset, isAsset, inOrg, isSha⟩ :=
            resolve.organization other isOld wanted named
          exact ⟨asset, assetKept asset isAsset (inOrg ▸ apart), inOrg, isSha⟩
      · intro assessment member wanted named
        obtain ⟨asset, isAsset, inOrg, isSha⟩ :=
          resolve.assessment assessment member wanted named
        refine ⟨asset, ?_, inOrg, isSha⟩
        by_cases mine : assessment.orgId = row.id
        · rcases logos.dropped asset isAsset with kept | ⟨_, unnamed⟩
          · exact kept
          · rw [isSha] at unnamed
            exact absurd named (unnamed assessment member mine)
        · exact assetKept asset isAsset (inOrg ▸ mine)
  | billed organizations _ derived =>
      refine { resolve with organization := ?_ }
      intro row member sha named
      obtain ⟨was, isWas, same⟩ := derived row member
      obtain ⟨sameId, sameLogo⟩ := Prod.mk.inj same
      rw [← sameId]
      exact resolve.organization was isWas sha (sameLogo ▸ named)
  | assessmentAdded assessment _ inOrg _ _ frozen =>
      refine { resolve with assessment := ?_ }
      intro row member sha named
      rcases List.mem_append.mp member with isOld | isNew
      · exact resolve.assessment row isOld sha named
      · obtain rfl := List.mem_singleton.mp isNew
        obtain ⟨organization, isOrganization, same, sameLogo⟩ := frozen
        rw [inOrg, ← same]
        exact
          resolve.organization organization isOrganization sha
            (sameLogo ▸ named)
  | assessmentEdited _ _ _ isAssessment =>
      exact { resolve with
        assessment := resolve.assessments (derived_save isAssessment rfl) }
  | slotsReplaced _ _ _ _ isAssessment =>
      exact { resolve with
        assessment := resolve.assessments (derived_save isAssessment rfl) }
  | assessmentDeleted =>
      exact { resolve with
        assessment := resolve.assessments (derived_deleteWhere _) }
  | _ => exact { resolve with }

theorem Run.logosResolve {trace : List Served}
    (run : Run deployment trace db) : LogosResolve db :=
  run.keeps LogosResolve logosResolve_empty
    fun change _ _ => change.logosResolve

/-! ## Whose assets a request drops -/

/-- The request is one of a member of the organisation. -/
def ApiRequest.actsFor (db : Database) (orgId : Nat) : ApiRequest → Prop
  | .member caller _ =>
      ∃ org, db.membershipFor caller = some org ∧ org.orgId = orgId
  | _ => False

/-- The requests that move an account into an organisation or out of one. -/
def ApiRequest.movesAccount : ApiRequest → Bool
  | .register _ => true
  | .member _ request => request.moves
  | _ => false

theorem movesAccount_of_joinsAs {account : Interviewer} {request : ApiRequest}
    (joins : request.joinsAs account) : request.movesAccount = true := by
  cases request with
  | register => rfl
  | member caller asked =>
      cases asked with
      | acceptOrgInvite => rfl
      | _ => exact joins.elim
  | _ => exact joins.elim

/-- What a request that moves no account does, it does for the organisation of
its caller or for none in particular. -/
theorem serve_scoped (sound : Sound served.before)
    (settled : served.request.movesAccount = false) :
    ∃ scope, Commits deployment served scope served.before
        (served.after deployment) ∧
      ∀ orgId ∈ scope, served.request.actsFor served.before orgId := by
  have unscoped (commits : Commits deployment served none served.before
      (served.after deployment)) :
      ∃ scope, Commits deployment served scope served.before
          (served.after deployment) ∧
        ∀ orgId ∈ scope, served.request.actsFor served.before orgId :=
    ⟨none, commits, nofun⟩
  unfold Served.after at unscoped ⊢
  cases asked : served.request with
  | account =>
      rw [asked] at unscoped
      exact unscoped (lastly_keeps .refl fun _ => serveAccount_commits asked)
  | register =>
      rw [asked] at settled
      cases settled
  | candidate =>
      rw [asked] at unscoped
      exact unscoped (serveCandidate_commits asked sound.constraints)
  | stripeWebhook =>
      rw [asked] at unscoped
      exact unscoped (lastly_keeps .refl fun _ => serveWebhook_commits)
  | assessmentsCallback payload =>
      rw [asked] at unscoped
      exact unscoped
        (run_grading ((assessmentsCallback_all payload).mono
          fun _ => Op.recording.grading) _)
  | reapTick =>
      rw [asked] at unscoped
      exact unscoped
        (run_grading (reapTick_judging.mono fun _ => Op.judging.grading) _)
  | retentionTick =>
      rw [asked] at unscoped
      exact unscoped (purgeExpiredLoop_commits asked)
  | member caller request =>
      rw [asked] at settled
      have commits : MemberCommits deployment served caller served.before
          (serveMember deployment served.around served.before caller
            request).1 :=
        serveMember_commits asked settled sound.constraints
          fun _ _ => sound.submissionsMatch
      generalize isAfter : (serveMember deployment served.around
        served.before caller request).1 = after at commits
      have answers : (serve deployment served.around served.before
          (.member caller request)).1 = after := isAfter
      rw [answers]
      cases commits with
      | refused => exact ⟨none, .refl, nofun⟩
      | seated seat commits =>
          refine ⟨_, commits, fun orgId isOrg => ⟨_, seat, ?_⟩⟩
          exact Option.some.inj isOrg

variable {asset : OrgAsset}

/-- No transaction drops an asset, unless it is on behalf of the asset's
organisation, or of a request that moves an account. -/
theorem Change.assetStays (change : Change deployment served scope db after)
    (settled : served.request.movesAccount = false)
    (isAsset : asset ∈ db.assets) :
    asset ∈ after.assets ∨ scope = some asset.orgId := by
  cases change with
  | founded _ enters => cases enters <;> exact Or.inl isAsset
  | joined _ _ _ _ _ joins =>
      rw [movesAccount_of_joinsAs joins] at settled
      cases settled
  | accountDeleted _ asked =>
      obtain ⟨password, asked⟩ := asked
      rw [asked] at settled
      cases settled
  | @settings _ orgId row assets nextId isRow later others logos =>
      by_cases mine : asset.orgId = orgId
      · exact Or.inr (congrArg some mine.symm)
      · exact Or.inl (mem_of_filter_eq others isAsset (by simpa using mine))
  | _ => exact Or.inl isAsset

theorem Commits.assetStays
    (commits : Commits deployment served scope db after)
    (settled : served.request.movesAccount = false)
    (isAsset : asset ∈ db.assets) :
    asset ∈ after.assets ∨ scope = some asset.orgId := by
  induction commits with
  | refl => exact Or.inl isAsset
  | tail _ committed inductionHypothesis =>
      rcases inductionHypothesis with stays | own
      · exact committed.change.assetStays settled stays
      · exact Or.inr own

/-- A purge takes the assets of its own organisation. -/
theorem mem_assets_purged (isAsset : asset ∈ db.assets) (orgId : Nat) :
    asset ∈ (db.purged orgId).assets ∨ asset.orgId = orgId := by
  by_cases mine : asset.orgId = orgId
  · exact Or.inr mine
  · exact Or.inl (mem_deleteWhere.mpr ⟨isAsset, by simpa using mine⟩)

theorem assetStays_lastly {own : Prop}
    {handled : Except HTTPException Database} (isAsset : asset ∈ db.assets)
    (stays : ∀ after, handled = .ok after → asset ∈ after.assets ∨ own) :
    asset ∈ (lastly db handled).1.assets ∨ own :=
  @lastly_keeps (fun after => asset ∈ after.assets ∨ own) db handled
    (Or.inl isAsset) stays

/-- An account that moves takes along the assets of its own organisation at the
most. -/
theorem serve_assetStays {around : Surroundings} {request : ApiRequest}
    (moves : request.movesAccount = true) (isAsset : asset ∈ db.assets) :
    asset ∈ (serve deployment around db request).1.assets ∨
      request.actsFor db asset.orgId := by
  cases request with
  | register body =>
      apply assetStays_lastly isAsset
      intro after done
      unfold register at done
      simp only [throw_bind, bind_eq_ok, ite_throw_eq_ok] at done
      obtain ⟨_, _, _, _, orgInvite, _, _, _, _, finished⟩ := done
      cases orgInvite with
      | none =>
          obtain ⟨_, rfl⟩ := Database.execute_eq_ok.mp finished
          exact Or.inl isAsset
      | some invite =>
          obtain ⟨_, rfl⟩ := Database.execute_eq_ok.mp finished
          exact Or.inl isAsset
  | member caller asked =>
      cases asked with
      | deleteMe password =>
          apply assetStays_lastly isAsset
          intro after done
          unfold deleteMe at done
          simp only [throw_bind, bind_eq_ok, ite_throw_eq_ok,
            Database.currentInterviewer_eq_ok] at done
          obtain ⟨current, found, _, purged⟩ := done
          rw [key_of_fetch found] at purged
          obtain ⟨left, leaving, rfl⟩ := Database.purgeAccount_left purged
          cases leaving with
          | seatless => exact Or.inl isAsset
          | shared => exact Or.inl isAsset
          | @last membership seat =>
              rcases mem_assets_purged isAsset membership.orgId with
                there | mine
              · exact Or.inl there
              · exact Or.inr ⟨membership, seat, mine.symm⟩
      | createOrg name =>
          apply assetStays_lastly isAsset
          intro after done
          unfold createOrg at done
          simp only [throw_bind, bind_eq_ok, ite_throw_eq_ok] at done
          obtain ⟨current, _, _, executed⟩ := done
          obtain ⟨_, rfl⟩ := Database.execute_eq_ok.mp executed
          exact Or.inl isAsset
      | acceptOrgInvite token =>
          apply assetStays_lastly isAsset
          intro after done
          unfold acceptOrgInvite at done
          simp only [throw_bind, bind_eq_ok, ite_throw_eq_ok,
            Database.currentInterviewer_eq_ok] at done
          obtain ⟨current, found, invite, _, _, _, _, _, _, finished⟩ := done
          rw [key_of_fetch found] at finished
          cases seat : db.membershipFor caller with
          | none =>
              rw [seat] at finished
              obtain ⟨_, rfl⟩ := Database.execute_eq_ok.mp finished
              exact Or.inl isAsset
          | some membership =>
              rw [seat] at finished
              obtain ⟨left, gaveUp, joined⟩ := bind_eq_ok.mp finished
              obtain ⟨_, rfl⟩ := Database.execute_eq_ok.mp joined
              obtain ⟨rfl, _⟩ := leaveEmptyOrg_eq_ok gaveUp
              rcases mem_assets_purged isAsset membership.orgId with
                there | mine
              · exact Or.inl there
              · exact Or.inr ⟨membership, seat, mine.symm⟩
      | _ => cases moves
  | _ => cases moves

/-! ## Moving off a logo -/

/-- The requests that move the logo of an organisation. -/
def ApiRequest.movesLogo : ApiRequest → Prop
  | .member _ .setOrgLogo | .member _ .clearOrgLogo => True
  | _ => False

/-- Whatever logo an organisation has moved off, and none of its assessments
names, has no asset left. -/
def DropsMoved (db after : Database) : Prop :=
  ∀ row ∈ db.organizations, ∀ sha ∈ row.logoSha,
    (∀ moved ∈ after.organizations, moved.id = row.id →
      moved.logoSha ≠ some sha) →
    (∀ assessment ∈ db.assessments, assessment.orgId = row.id →
      assessment.logoSha ≠ some sha) →
    ¬after.HasAsset row.id sha

theorem dropsMoved_refl (db : Database) : DropsMoved db db := by
  intro row member sha named moved
  exact absurd named (moved row member rfl)

theorem organizations_dropUnreferencedLogo {dropped : Option String} :
    (dropUnreferencedLogo db dropped orgId).organizations =
      db.organizations := by
  unfold dropUnreferencedLogo
  split
  · rfl
  · split <;> rfl

/-- A logo that nothing of the organisation names is dropped. -/
theorem not_hasAsset_of_unnamed
    (noOrganization : ∀ row ∈ db.organizations, row.id = orgId →
      row.logoSha ≠ some sha)
    (noAssessment : ∀ row ∈ db.assessments, row.orgId = orgId →
      row.logoSha ≠ some sha) :
    ¬(dropUnreferencedLogo db (some sha) orgId).HasAsset orgId sha := by
  have unnamed : ¬((db.organizations.any (fun row =>
        row.id == orgId && row.logoSha == some sha) ||
      db.assessments.any (fun row =>
        row.orgId == orgId && row.logoSha == some sha)) = true) := by
    simp only [Bool.or_eq_true, List.any_eq_true, Bool.and_eq_true, beq_iff_eq,
      not_or, not_exists, not_and]
    exact ⟨noOrganization, noAssessment⟩
  intro ⟨asset, isAsset, inOrg, isSha⟩
  simp only [dropUnreferencedLogo, if_neg unnamed, mem_deleteWhere] at isAsset
  exact isAsset.2 (by simp [inOrg, isSha])

/-- Moving the logo of one organisation drops what it has moved off. -/
theorem dropsMoved_of_move {stored : Database} {organization : Organization}
    {logo : Option String} (keyed : Keyed Organization.id db.organizations)
    (member : organization ∈ db.organizations)
    (isRow : organization.id = orgId)
    (sameOrganizations : stored.organizations = db.organizations)
    (sameAssessments : stored.assessments = db.assessments) :
    DropsMoved db
      (dropUnreferencedLogo (setLogoSha stored organization logo)
        organization.logoSha orgId) := by
  intro row isOld sha named moved unnamed
  rw [organizations_dropUnreferencedLogo] at moved
  by_cases mine : row.id = orgId
  · obtain rfl : row = organization :=
      keyed.eq isOld member (mine.trans isRow.symm)
    rw [Option.mem_def.mp named, mine]
    apply not_hasAsset_of_unnamed
    · rw [← mine]
      exact moved
    · intro assessment isAssessment inOrg
      exact
        unnamed assessment (sameAssessments ▸ isAssessment)
          (inOrg.trans mine.symm)
  · have stays : row ∈ (setLogoSha stored organization logo).organizations := by
      refine mem_updateWhere.mpr (Or.inr ⟨sameOrganizations ▸ isOld, ?_⟩)
      simpa [isRow] using mine
    exact absurd named (moved row stays rfl)

theorem setOrgLogo_drops {around : Surroundings}
    (constraints : db.Constraints) :
    DropsMoved db (lastly db (setOrgLogo around db caller)).1 := by
  apply lastly_keeps (dropsMoved_refl db)
  intro after done
  unfold setOrgLogo at done
  simp only [bind_eq_ok] at done
  obtain ⟨org, _, _, _, finished⟩ := done
  cases image : around.logo with
  | error rejected => simp [image] at finished
  | ok sha =>
      simp only [image, bind_eq_ok, Database.organization_eq_ok] at finished
      obtain ⟨organization, fetched, executed⟩ := finished
      have puts := putAsset_puts db org.orgId sha
      have sameOrganizations :
          (putAsset db org.orgId sha).organizations = db.organizations := by
        rw [puts.rest]
      have sameAssessments :
          (putAsset db org.orgId sha).assessments = db.assessments := by
        rw [puts.rest]
      have drops (logo : Option String) :
          DropsMoved db
            (dropUnreferencedLogo
              (setLogoSha (putAsset db org.orgId sha) organization logo)
              organization.logoSha org.orgId) :=
        dropsMoved_of_move constraints.uniqueKeys.organization
          (mem_of_fetch fetched) (key_of_fetch fetched) sameOrganizations
          sameAssessments
      split at executed
      · obtain ⟨_, rfl⟩ := Database.execute_eq_ok.mp executed
        exact drops (some sha)
      · -- The same image again: nothing has moved.
        next same =>
        obtain ⟨_, rfl⟩ := Database.execute_eq_ok.mp executed
        intro row isRow old named moved
        have isSame : organization.logoSha = some sha := not_not.mp same
        by_cases mine : row.id = organization.id
        · obtain rfl : row = organization :=
            constraints.uniqueKeys.organization.eq isRow (mem_of_fetch fetched)
              mine
          have isSaved :
              { row with logoSha := some sha } ∈
                (setLogoSha (putAsset db org.orgId sha) row
                  (some sha)).organizations :=
            mem_updateWhere.mpr
              (Or.inl ⟨row, sameOrganizations ▸ isRow, by simp, rfl⟩)
          exact absurd (isSame.symm.trans named) (moved _ isSaved rfl)
        · have stays :
              row ∈ (setLogoSha (putAsset db org.orgId sha) organization
                (some sha)).organizations :=
            mem_updateWhere.mpr
              (Or.inr ⟨sameOrganizations ▸ isRow, by simpa using mine⟩)
          exact absurd named (moved row stays rfl)

theorem clearOrgLogo_drops (constraints : db.Constraints) :
    DropsMoved db (lastly db (clearOrgLogo db caller)).1 := by
  apply lastly_keeps (dropsMoved_refl db)
  intro after done
  unfold clearOrgLogo at done
  simp only [bind_eq_ok, Database.organization_eq_ok] at done
  obtain ⟨org, _, _, _, organization, fetched, executed⟩ := done
  obtain ⟨_, rfl⟩ := Database.execute_eq_ok.mp executed
  exact
    dropsMoved_of_move constraints.uniqueKeys.organization
      (mem_of_fetch fetched) (key_of_fetch fetched) rfl rfl

/-- The names of logos never dangle, in every run: each one has its asset; what
an organisation moves off and none of its assessments names is dropped; and no
request drops or changes an asset of an organisation other than its caller's. -/
theorem logos_never_dangle {trace : List Served}
    (run : Run deployment trace db) :
    LogosResolve db ∧
      ∀ (around : Surroundings) (request : ApiRequest),
        (request.movesLogo →
          DropsMoved db (serve deployment around db request).1) ∧
        ∀ asset ∈ db.assets,
          asset ∈ (serve deployment around db request).1.assets ∨
            request.actsFor db asset.orgId := by
  refine ⟨run.logosResolve, fun around request => ⟨fun moves => ?_, ?_⟩⟩
  · cases request with
    | member caller asked =>
        cases asked with
        | setOrgLogo => exact setOrgLogo_drops run.constraints
        | clearOrgLogo => exact clearOrgLogo_drops run.constraints
        | _ => exact moves.elim
    | _ => exact moves.elim
  · intro asset isAsset
    cases settled : request.movesAccount with
    | true => exact serve_assetStays settled isAsset
    | false =>
        have behalf :
            ∃ scope, Commits deployment ⟨around, request, db⟩ scope db
                (serve deployment around db request).1 ∧
              ∀ orgId ∈ scope, request.actsFor db orgId :=
          serve_scoped run.sound settled
        obtain ⟨scope, commits, acts⟩ := behalf
        rcases commits.assetStays settled isAsset with there | own
        · exact Or.inl there
        · exact Or.inr (acts asset.orgId own)

namespace Scenario

/-- Two organisations with the same logo. -/
def sameLogos : List Asked :=
  [registers,
    (surroundings 1 'b',
      .register ⟨"b@x", "long enough pw", "Bob", none, none⟩),
    asks 2 'c' .setOrgLogo,
    (surroundings 3 'd', .member 4 .setOrgLogo)]

/-- The first one clears it. -/
def clears : Asked :=
  asks 4 'e' .clearOrgLogo

end Scenario

open Scenario in
/-- What the first organisation clears stays the logo of the second one. -/
theorem logos_never_dangle_shared :
    ¬(serve Scenario.deployment clears.1 (play sameLogos).2
        clears.2).1.HasAsset 2 "logo" ∧
      ∀ asset ∈ (play sameLogos).2.assets, asset.orgId = 5 →
        asset ∈ (serve Scenario.deployment clears.1 (play sameLogos).2
          clears.2).1.assets := by
  obtain ⟨drops, stays⟩ :=
    (logos_never_dangle (run_play sameLogos)).2 clears.1 clears.2
  constructor
  · have named :
        ∃ row ∈ (play sameLogos).2.organizations, row.id = 2 ∧
          row.logoSha = some "logo" := by
      decide
    obtain ⟨row, isRow, isId, isLogo⟩ := named
    rw [← isId]
    exact drops trivial row isRow "logo" isLogo (by rw [isId]; decide)
      (by rw [isId]; decide)
  · intro asset isAsset inOrg
    rcases stays asset isAsset with there | acts
    · exact there
    · obtain ⟨org, seat, same⟩ := acts
      have own : (play sameLogos).2.membershipFor 1 =
          some ⟨3, 2, 1, .admin, none⟩ := by
        decide
      rw [own] at seat
      cases seat
      rw [inOrg] at same
      cases same

end AssessmentPlatform
