import AssessmentPlatform.Records.Sample
import AssessmentPlatform.Records.Tenancy

/-!
# Organisations keep an admin, and invitations are spent once

Whatever takes an admin's seat away passes `_last_admin_guard`, or takes the
organisation along; and a seat in an organisation that exists is an invitation
that was open.
-/

namespace AssessmentPlatform

open Rows

variable {deployment : Deployment} {served : Served} {scope : Option Nat}
variable {db after left base : Database} {orgId : Nat}
variable {membership : Membership}

/-! ## Admins -/

/-- An organisation has a member whose role is admin. -/
def Database.HasAdmin (db : Database) (orgId : Nat) : Prop :=
  ∃ seat ∈ db.memberships, seat.orgId = orgId ∧ seat.role = .admin

/-- Every organisation has an admin. -/
def Administered (db : Database) : Prop :=
  ∀ orgId, db.Stands orgId → db.HasAdmin orgId

theorem hasAdmin_purged {purgedId : Nat} (admin : db.HasAdmin orgId)
    (apart : orgId ≠ purgedId) : (db.purged purgedId).HasAdmin orgId := by
  obtain ⟨seat, isSeat, inOrg, isAdmin⟩ := admin
  refine ⟨seat, mem_deleteWhere.mpr ⟨isSeat, ?_⟩, inOrg, isAdmin⟩
  simpa [inOrg] using apart

theorem administered_purged {purgedId : Nat} (administered : Administered db) :
    Administered (db.purged purgedId) := by
  intro orgId stands
  obtain ⟨stood, apart⟩ := stands_purged.mp stands
  exact hasAdmin_purged (administered orgId stood) apart

theorem Enters.administered {account : Interviewer} {gaveUp : Option Nat}
    (enters : Enters db account gaveUp base)
    (administered : Administered db) : Administered base := by
  cases enters with
  | newcomer => exact administered
  | seatless => exact administered
  | leaving _ _ gaveUp =>
      obtain ⟨rfl, _⟩ := leaveEmptyOrg_eq_ok gaveUp
      exact administered_purged administered

/-- Past the guard, a member is not the only admin. -/
theorem exists_other_admin (keyed : Keyed Membership.id db.memberships)
    (target : db.memberOf orgId membership.interviewerId = some membership)
    (guarded : lastAdminGuard db orgId membership.interviewerId = .ok ())
    (admin : db.HasAdmin orgId) :
    ∃ seat ∈ db.memberships,
      seat.orgId = orgId ∧ seat.role = .admin ∧ seat.id ≠ membership.id := by
  obtain ⟨seat, isSeat, inOrg, isAdmin⟩ := admin
  by_cases same : seat.id = membership.id
  · obtain ⟨isTarget, _, _⟩ := Database.memberOf_eq_some target
    obtain rfl := keyed.eq isSeat isTarget same
    have several : 1 < db.adminCount orgId :=
      lastAdminGuard_eq_ok.mp guarded seat target isAdmin
    obtain ⟨other, isOther, matched, different⟩ :=
      keyed.exists_other several seat
    simp only [Bool.and_eq_true, beq_iff_eq] at matched
    exact ⟨other, isOther, matched.1, matched.2, different⟩
  · exact ⟨seat, isSeat, inOrg, isAdmin, same⟩

theorem memberOf_of_membershipFor {interviewerId : Nat}
    (keyed : Keyed Membership.interviewerId db.memberships)
    (seat : db.membershipFor interviewerId = some membership) :
    db.memberOf membership.orgId membership.interviewerId =
      some membership := by
  apply keyed.find_eq (Database.mem_of_membershipFor seat) (by simp)
  intro other matched
  simp only [Bool.and_eq_true, beq_iff_eq] at matched
  exact matched.2

theorem Database.Left.administered {interviewerId : Nat}
    (leaving : Database.Left db interviewerId left)
    (unique : db.UniqueKeys) (administered : Administered db) :
    Administered left := by
  cases leaving with
  | seatless => exact administered
  | @shared membership seat guarded =>
      intro orgId stands
      have isCaller := Database.interviewerId_of_membershipFor seat
      have target :=
        memberOf_of_membershipFor unique.membershipInterviewer seat
      by_cases here : orgId = membership.orgId
      · subst here
        obtain ⟨other, isOther, inOrg, isAdmin, different⟩ :=
          exists_other_admin unique.membership target
            (isCaller.symm ▸ guarded) (administered _ stands)
        refine ⟨other, mem_deleteWhere.mpr ⟨isOther, ?_⟩, inOrg, isAdmin⟩
        intro isDeleted
        apply different
        rw [unique.membershipInterviewer.eq isOther
          (Database.mem_of_membershipFor seat)
          ((beq_iff_eq.mp isDeleted).trans isCaller.symm)]
      · obtain ⟨other, isOther, inOrg, isAdmin⟩ := administered orgId stands
        refine ⟨other, mem_deleteWhere.mpr ⟨isOther, ?_⟩, inOrg, isAdmin⟩
        intro isDeleted
        apply here
        rw [← inOrg, unique.membershipInterviewer.eq isOther
          (Database.mem_of_membershipFor seat)
          ((beq_iff_eq.mp isDeleted).trans isCaller.symm)]
  | last => exact administered_purged administered

theorem administered_disown {interviewerId : Nat}
    (administered : Administered db) :
    Administered (db.disown interviewerId) := by
  intro orgId stands
  obtain ⟨seat, isSeat, inOrg, isAdmin⟩ := administered orgId stands
  have columns : (orgId, Role.admin) ∈
      db.memberships.map fun row => (row.orgId, row.role) :=
    List.mem_map.mpr ⟨seat, isSeat, by rw [inOrg, isAdmin]⟩
  have kept : (orgId, Role.admin) ∈
      (db.disown interviewerId).memberships.map fun row =>
        (row.orgId, row.role) :=
    mem_map_updateWhere (fun _ => rfl) columns
  obtain ⟨other, isOther, same⟩ := List.mem_map.mp kept
  exact ⟨other, isOther, (Prod.mk.inj same).1, (Prod.mk.inj same).2⟩

theorem administered_append {seat : Membership} {after : Database}
    (administered : Administered db)
    (seats : after.memberships = db.memberships ++ [seat])
    (stands : ∀ orgId, after.Stands orgId →
      db.Stands orgId ∨ (orgId = seat.orgId ∧ seat.role = .admin)) :
    Administered after := by
  intro orgId standsNow
  rcases stands orgId standsNow with stood | ⟨rfl, isAdmin⟩
  · obtain ⟨old, isOld, inOrg, isAdmin⟩ := administered orgId stood
    exact ⟨old, seats ▸ List.mem_append_left _ isOld, inOrg, isAdmin⟩
  · exact ⟨seat, seats ▸ List.mem_append_right _ List.mem_cons_self, rfl,
      isAdmin⟩

/-- Every transaction leaves every organisation an admin. -/
theorem Change.administered
    (change : Change deployment served scope db after)
    (unique : db.UniqueKeys) (administered : Administered db) :
    Administered after := by
  cases change with
  | founded _ enters =>
      apply administered_append (enters.administered administered) rfl
      intro orgId stands
      simp only [Database.Stands, foundOrg, List.map_append, List.mem_append,
        List.map_cons, List.map_nil, List.mem_singleton,
        newOrganization] at stands
      exact stands.imp_right fun isNew => ⟨isNew, rfl⟩
  | joined enters =>
      apply administered_append (enters.administered administered) rfl
      exact fun _ stands => Or.inl stands
  | @roleSet _ ownId membership role target guarded =>
      intro orgId stands
      obtain ⟨isTarget, inOwn, _⟩ := Database.memberOf_eq_some target
      by_cases here : orgId = ownId
      · subst here
        by_cases isAdmin : role = .admin
        · refine ⟨{ membership with role := role }, ?_, inOwn, isAdmin⟩
          exact mem_updateWhere.mpr
            (Or.inl ⟨membership, isTarget, by simp, rfl⟩)
        · obtain ⟨other, isOther, inOrg, otherAdmin, different⟩ :=
            exists_other_admin unique.membership target (guarded isAdmin)
              (administered orgId stands)
          exact ⟨other, mem_updateWhere.mpr
            (Or.inr ⟨isOther, by simpa using different⟩), inOrg, otherAdmin⟩
      · obtain ⟨other, isOther, inOrg, otherAdmin⟩ := administered orgId stands
        refine ⟨other, mem_updateWhere.mpr (Or.inr ⟨isOther, ?_⟩), inOrg,
          otherAdmin⟩
        intro same
        apply here
        rw [← inOrg, ← inOwn,
          unique.membership.eq isOther isTarget (beq_iff_eq.mp same)]
  | @memberRemoved _ ownId membership target guarded =>
      intro orgId stands
      obtain ⟨isTarget, inOwn, _⟩ := Database.memberOf_eq_some target
      by_cases here : orgId = ownId
      · subst here
        obtain ⟨other, isOther, inOrg, otherAdmin, different⟩ :=
          exists_other_admin unique.membership target guarded
            (administered orgId stands)
        exact ⟨other, mem_deleteWhere.mpr
          ⟨isOther, by simpa using different⟩, inOrg, otherAdmin⟩
      · obtain ⟨other, isOther, inOrg, otherAdmin⟩ := administered orgId stands
        refine ⟨other, mem_deleteWhere.mpr ⟨isOther, ?_⟩, inOrg, otherAdmin⟩
        intro same
        apply here
        rw [← inOrg, ← inOwn,
          unique.membership.eq isOther isTarget (beq_iff_eq.mp same)]
  | accountDeleted deleted =>
      obtain ⟨left, leaving, rfl⟩ := Database.purgeAccount_left deleted
      exact administered_disown (leaving.administered unique administered)
  | settings =>
      intro orgId stands
      rw [Database.Stands, map_key_save] at stands
      exact administered orgId stands
  | billed _ same =>
      intro orgId stands
      rw [Database.Stands, same] at stands
      exact administered orgId stands
  | _ => exact administered

theorem Run.administered {trace : List Served}
    (run : Run deployment trace db) : Administered db :=
  run.keepsSound Administered (fun _ stands => nomatch stands)
    fun change sound _ => change.administered sound.constraints.uniqueKeys

/-! ## Seats and invitations -/

/-- A transaction that turns an invitation into a seat. -/
inductive Joins (deployment : Deployment) (served : Served) (db : Database) :
    Database → Prop where
  | seat {base : Database} {account : Interviewer} {invite : OrgInvite}
      {gaveUp : Option Nat} :
      Enters db account gaveUp base → gaveUp ≠ some invite.orgId →
      invite ∈ db.orgInvites → invite.acceptedAt = none →
      (account.email = invite.email ∨
        deployment.auth.normalizeEmail account.email = invite.email) →
      served.request.joinsAs account →
      Joins deployment served db (joinOrg served.around base account.id invite)

/-- No invitation is spent, and no seat is new in an organisation that is
not. -/
structure Quiet (db after : Database) : Prop where
  nextId : db.nextId ≤ after.nextId
  seats : ∀ seat ∈ after.memberships, seat.orgId < db.nextId →
    ∃ was ∈ db.memberships, (was.id, was.orgId) = (seat.id, seat.orgId)
  spent : ∀ row ∈ after.orgInvites, row.acceptedAt ≠ none →
    ∃ was ∈ db.orgInvites,
      (was.id, was.acceptedAt) = (row.id, row.acceptedAt)

theorem Quiet.refl (db : Database) : Quiet db db where
  nextId := Nat.le_refl _
  seats seat member _ := ⟨seat, member, rfl⟩
  spent row member _ := ⟨row, member, rfl⟩

theorem Quiet.trans {middle : Database} (first : Quiet db middle)
    (second : Quiet middle after) : Quiet db after where
  nextId := first.nextId.trans second.nextId
  seats seat member isOld := by
    obtain ⟨was, isWas, same⟩ := second.seats seat member
      (Nat.lt_of_lt_of_le isOld first.nextId)
    have inOrg := (Prod.mk.inj same).2
    obtain ⟨old, isOldSeat, sameOld⟩ :=
      first.seats was isWas (by rw [inOrg]; exact isOld)
    exact ⟨old, isOldSeat, sameOld.trans same⟩
  spent row member accepted := by
    obtain ⟨was, isWas, same⟩ := second.spent row member accepted
    have sameTime := (Prod.mk.inj same).2
    obtain ⟨old, isOld, sameOld⟩ :=
      first.spent was isWas (by rw [sameTime]; exact accepted)
    exact ⟨old, isOld, sameOld.trans same⟩

/-- Seats and invitations that all come from earlier ones. -/
theorem Quiet.derived (nextId : db.nextId ≤ after.nextId)
    (seats : Derived (fun row => (row.id, row.orgId)) db.memberships
      after.memberships)
    (invites : Derived (fun row => (row.id, row.acceptedAt)) db.orgInvites
      after.orgInvites) :
    Quiet db after where
  nextId := nextId
  seats seat member _ := seats seat member
  spent row member _ := invites row member

theorem quiet_purged (db : Database) (orgId : Nat) :
    Quiet db (db.purged orgId) :=
  .derived (Nat.le_refl _) (derived_deleteWhere _) (derived_deleteWhere _)

theorem Enters.quiet {account : Interviewer} {gaveUp : Option Nat}
    (enters : Enters db account gaveUp base) : Quiet db base := by
  cases enters with
  | newcomer => exact .derived (Nat.le_succ _) (.refl _) (.refl _)
  | seatless => exact .refl db
  | leaving _ _ gaveUp =>
      obtain ⟨rfl, _⟩ := leaveEmptyOrg_eq_ok gaveUp
      exact quiet_purged db _

theorem Database.Left.quiet {interviewerId : Nat}
    (leaving : Database.Left db interviewerId left) : Quiet db left := by
  cases leaving with
  | seatless => exact .refl db
  | shared => exact .derived (Nat.le_refl _) (derived_deleteWhere _) (.refl _)
  | last => exact quiet_purged db _

/-- What a transaction does to seats and invitations. -/
def MovesSeats (deployment : Deployment) (served : Served)
    (db after : Database) : Prop :=
  Joins deployment served db after ∨ Quiet db after

theorem Change.movesSeats
    (change : Change deployment served scope db after) :
    MovesSeats deployment served db after := by
  have later := change.nextId_le
  cases change with
  | joined enters elsewhere member pending addressed joins =>
      exact Or.inl (.seat enters elsewhere member pending addressed joins)
  | founded _ enters =>
      right
      apply enters.quiet.trans
      refine { Quiet.refl _ with nextId := Nat.le_add_right _ 2, seats := ?_ }
      intro seat member isOld
      rcases List.mem_append.mp member with old | new
      · exact ⟨seat, old, rfl⟩
      · obtain rfl := List.mem_singleton.mp new
        exact absurd isOld (Nat.lt_irrefl _)
  | roleSet _ target =>
      exact Or.inr (.derived later
        (derived_save (Database.memberOf_eq_some target).1 rfl) (.refl _))
  | memberRemoved =>
      exact Or.inr (.derived later (derived_deleteWhere _) (.refl _))
  | accountDeleted deleted =>
      right
      obtain ⟨left, leaving, rfl⟩ := Database.purgeAccount_left deleted
      apply leaving.quiet.trans
      exact .derived (Nat.le_refl _) (derived_updateWhere fun _ => rfl)
        (derived_updateWhere fun _ => rfl)
  | orgInvited invite _ _ pending =>
      right
      refine { Quiet.refl db with nextId := later, spent := ?_ }
      intro row member accepted
      rcases List.mem_append.mp member with old | new
      · exact ⟨row, (mem_deleteWhere.mp old).1, rfl⟩
      · obtain rfl := List.mem_singleton.mp new
        exact absurd pending accepted
  | orgInviteRevoked =>
      exact Or.inr (.derived later (.refl _) (derived_deleteWhere _))
  | _ => exact Or.inr (.derived later (.refl _) (.refl _))

/-- A whole request turns one invitation into a seat at most. -/
theorem Run.movesSeats {trace : List Served}
    (run : Run deployment trace db) (member : served ∈ trace) :
    MovesSeats deployment served served.before (served.after deployment) := by
  obtain ⟨constraints, transactions⟩ := run.transactions member
  by_cases joins : ∃ account, served.request.joinsAs account
  · -- The two requests that join are one transaction each.
    obtain ⟨account, joins⟩ := joins
    unfold Served.after
    cases asked : served.request with
    | register body =>
        exact lastly_keeps (Or.inr (.refl _)) fun _ done =>
          (register_committed asked done).change.movesSeats
    | member caller request =>
        rw [asked] at joins
        cases request with
        | acceptOrgInvite token =>
            exact lastly_keeps (Or.inr (.refl _)) fun _ done =>
              (acceptOrgInvite_committed asked done).change.movesSeats
        | _ => cases joins
    | _ =>
        rw [asked] at joins
        cases joins
  · right
    apply (transactions.keeps (Quiet served.before) constraints _
      (.refl _)).2
    intro scope state next change _ _ quiet
    rcases change.movesSeats with joined | more
    · cases joined with
      | seat _ _ _ _ _ joinsAs => exact absurd ⟨_, joinsAs⟩ joins
    · exact quiet.trans more

/-- A request that found an invitation open and left it accepted. -/
def Served.Accepts (deployment : Deployment) (served : Served) (id : Nat) :
    Prop :=
  (∃ row ∈ served.before.orgInvites, row.id = id ∧ row.acceptedAt = none) ∧
    ∃ row ∈ (served.after deployment).orgInvites,
      row.id = id ∧ row.acceptedAt ≠ none

/-- An account that asked for it, under the address that the invitation names,
has a seat by the invitation. -/
structure SeatedBy (deployment : Deployment) (served : Served)
    (invite : OrgInvite) (account : Interviewer) : Prop where
  isInvite : invite ∈ served.before.orgInvites
  addressed : account.email = invite.email ∨
    deployment.auth.normalizeEmail account.email = invite.email
  asked : served.request.joinsAs account
  isAccount : account ∈ (served.after deployment).interviewers
  seat : ∃ seat ∈ (served.after deployment).memberships,
    seat.interviewerId = account.id ∧ seat.orgId = invite.orgId

theorem Quiet.not_accepts (quiet : Quiet served.before (served.after deployment))
    (keyed : Keyed OrgInvite.id served.before.orgInvites) (id : Nat) :
    ¬served.Accepts deployment id := by
  intro ⟨⟨row, isRow, isId, pending⟩, spent, isSpent, same, accepted⟩
  obtain ⟨was, isWas, kept⟩ := quiet.spent spent isSpent accepted
  obtain ⟨sameId, sameTime⟩ := Prod.mk.inj kept
  obtain rfl := keyed.eq isWas isRow (sameId.trans (same.trans isId.symm))
  exact accepted (sameTime.symm.trans pending)

theorem Enters.account_mem {account : Interviewer} {gaveUp : Option Nat}
    (enters : Enters db account gaveUp base) : account ∈ base.interviewers := by
  cases enters with
  | newcomer => exact List.mem_append_right _ List.mem_cons_self
  | seatless isAccount => exact isAccount
  | leaving isAccount _ gaveUp =>
      obtain ⟨rfl, _⟩ := leaveEmptyOrg_eq_ok gaveUp
      exact isAccount

theorem Enters.orgInvite_mem {account : Interviewer} {gaveUp : Option Nat}
    {invite : OrgInvite} (enters : Enters db account gaveUp base)
    (elsewhere : gaveUp ≠ some invite.orgId) (member : invite ∈ db.orgInvites) :
    invite ∈ base.orgInvites := by
  cases enters with
  | newcomer => exact member
  | seatless => exact member
  | leaving _ _ gaveUp =>
      obtain ⟨rfl, _⟩ := leaveEmptyOrg_eq_ok gaveUp
      refine mem_deleteWhere.mpr ⟨member, ?_⟩
      intro same
      exact elsewhere (congrArg some (beq_iff_eq.mp same).symm)

theorem Joins.seatedBy
    (joins : Joins deployment served served.before (served.after deployment))
    (keyed : Keyed OrgInvite.id served.before.orgInvites) :
    ∃ invite account, SeatedBy deployment served invite account ∧
      (∀ id, served.Accepts deployment id ↔ id = invite.id) ∧
      ∀ seat ∈ (served.after deployment).memberships,
        seat.orgId < served.before.nextId →
          (∀ was ∈ served.before.memberships, was.id ≠ seat.id) →
            seat.orgId = invite.orgId := by
  generalize isAfter : served.after deployment = after at joins
  cases joins with
  | @seat base account invite gaveUp enters elsewhere member pending addressed
      asked =>
      have isOpen := enters.orgInvite_mem elsewhere member
      have isSpent :
          ({ invite with acceptedAt := some served.around.now } : OrgInvite) ∈
            (joinOrg served.around base account.id invite).orgInvites :=
        mem_updateWhere.mpr (Or.inl ⟨invite, isOpen, by simp, rfl⟩)
      refine ⟨invite, account, ⟨member, addressed, asked, ?_, ?_⟩, ?_, ?_⟩
      · rw [isAfter]
        exact enters.account_mem
      · rw [isAfter]
        exact ⟨_, List.mem_append_right _ List.mem_cons_self, rfl, rfl⟩
      · intro id
        unfold Served.Accepts
        rw [isAfter]
        constructor
        · intro ⟨⟨row, isRow, isId, isPending⟩, spent, member, same, accepted⟩
          rcases mem_save member with rfl | ⟨isOld, _⟩
          · exact same.symm
          · obtain ⟨was, isWas, kept⟩ := enters.quiet.spent spent isOld accepted
            obtain ⟨sameId, sameTime⟩ := Prod.mk.inj kept
            obtain rfl :=
              keyed.eq isWas isRow (sameId.trans (same.trans isId.symm))
            exact absurd (sameTime.symm.trans isPending) accepted
        · rintro rfl
          exact ⟨⟨invite, member, rfl, pending⟩, _, isSpent, rfl, nofun⟩
      · intro seat isSeat isOld fresh
        rcases List.mem_append.mp isSeat with old | new
        · obtain ⟨was, isWas, same⟩ := enters.quiet.seats seat old isOld
          exact absurd (Prod.mk.inj same).1 (fresh was isWas)
        · obtain rfl := List.mem_singleton.mp new
          rfl

/-! ## Over a run -/

/-- An invitation that cannot be accepted any more. -/
def Spent (id : Nat) (db : Database) : Prop :=
  id < db.nextId ∧ ∀ row ∈ db.orgInvites, row.id = id → row.acceptedAt ≠ none

theorem Spent.derived {id : Nat} (spent : Spent id db)
    (later : db.nextId ≤ after.nextId)
    (invites : Derived (fun row => (row.id, row.acceptedAt)) db.orgInvites
      after.orgInvites) : Spent id after := by
  refine ⟨Nat.lt_of_lt_of_le spent.1 later, ?_⟩
  intro row member isId
  obtain ⟨was, isWas, same⟩ := invites row member
  obtain ⟨sameId, sameTime⟩ := Prod.mk.inj same
  rw [← sameTime]
  exact spent.2 was isWas (sameId.trans isId)

theorem Enters.spent {account : Interviewer} {gaveUp : Option Nat} {id : Nat}
    (enters : Enters db account gaveUp base) (spent : Spent id db) :
    Spent id base := by
  apply spent.derived enters.nextId_le
  cases enters with
  | newcomer => exact .refl _
  | seatless => exact .refl _
  | leaving _ _ gaveUp =>
      obtain ⟨rfl, _⟩ := leaveEmptyOrg_eq_ok gaveUp
      exact derived_deleteWhere _

theorem Change.spent {id : Nat}
    (change : Change deployment served scope db after) (spent : Spent id db) :
    Spent id after := by
  have later := change.nextId_le
  cases change with
  | founded _ enters =>
      exact (enters.spent spent).derived (Nat.le_add_right _ 2) (.refl _)
  | joined enters =>
      have here := enters.spent spent
      refine ⟨Nat.lt_succ_of_lt here.1, ?_⟩
      intro row member isId
      rcases mem_save member with rfl | ⟨old, _⟩
      · exact nofun
      · exact here.2 row old isId
  | accountDeleted deleted =>
      obtain ⟨left, leaving, rfl⟩ := Database.purgeAccount_left deleted
      have leaves : Derived (fun row => (row.id, row.acceptedAt))
          db.orgInvites left.orgInvites := by
        cases leaving with
        | last => exact derived_deleteWhere _
        | _ => exact .refl _
      exact spent.derived later
        (leaves.trans (derived_updateWhere fun _ => rfl))
  | orgInvited invite isNext =>
      refine ⟨Nat.lt_succ_of_lt spent.1, ?_⟩
      intro row member isId
      rcases List.mem_append.mp member with old | new
      · exact spent.2 row (mem_deleteWhere.mp old).1 isId
      · obtain rfl := List.mem_singleton.mp new
        exact absurd (isId.symm.trans isNext) (Nat.ne_of_lt spent.1)
  | orgInviteRevoked => exact spent.derived later (derived_deleteWhere _)
  | _ => exact spent.derived later (.refl _)

/-- An invitation that was accepted stays so for the rest of the run. -/
theorem Served.Accepts.spent {id : Nat} {trace : List Served}
    (accepts : served.Accepts deployment id) (run : Run deployment trace db)
    (member : served ∈ trace) : Spent id db := by
  obtain ⟨constraints, transactions⟩ := run.transactions member
  have sound := (transactions.keeps Sound constraints
    (fun change _ next held => change.sound held next)
    (run.sound_before member)).2
  obtain ⟨_, spent, isSpent, rfl, accepted⟩ := accepts
  apply run.afterwards (Spent spent.id) member _ fun change _ _ => change.spent
  refine ⟨sound.ids.orgInvite spent isSpent, ?_⟩
  intro row isRow same
  rw [sound.constraints.uniqueKeys.orgInvite.eq isRow isSpent same]
  exact accepted

theorem Run.accepts_once {trace : List Served}
    (run : Run deployment trace db) :
    trace.Pairwise fun earlier later =>
      ∀ id, earlier.Accepts deployment id → ¬later.Accepts deployment id := by
  induction run with
  | start => exact .nil
  | @step trace db around request run inductionHypothesis =>
      rw [List.pairwise_append]
      refine ⟨inductionHypothesis, List.pairwise_singleton _ _, ?_⟩
      intro earlier isEarlier later isLater id accepts again
      obtain rfl := List.mem_singleton.mp isLater
      obtain ⟨row, isRow, isId, pending⟩ := again.1
      exact (accepts.spent run isEarlier).2 row isRow isId pending

/-- Every organisation has an admin and so is never left behind, every account
has one seat at most, and whatever seats an account in an organisation that
exists spends an invitation that names its address, once. -/
theorem roster_sound {trace : List Served} (run : Run deployment trace db) :
    (∀ org ∈ db.organizations, ∃ seat ∈ db.memberships,
      seat.orgId = org.id ∧ seat.role = .admin) ∧
    (∀ seat ∈ db.memberships, ∀ other ∈ db.memberships,
      seat.interviewerId = other.interviewerId → seat = other) ∧
    (trace.Pairwise fun earlier later =>
      ∀ id, earlier.Accepts deployment id → ¬later.Accepts deployment id) ∧
    (∀ served ∈ trace, ∀ id, served.Accepts deployment id →
      ∃ (invite : OrgInvite) (account : Interviewer),
        invite.id = id ∧ SeatedBy deployment served invite account) ∧
    ∀ served ∈ trace, ∀ seat ∈ (served.after deployment).memberships,
      served.before.Stands seat.orgId →
      (∀ was ∈ served.before.memberships, was.id ≠ seat.id) →
        ∃ invite : OrgInvite, invite.orgId = seat.orgId ∧
          served.Accepts deployment invite.id := by
  refine ⟨?_, ?_, run.accepts_once, ?_, ?_⟩
  · intro org isOrg
    exact run.administered org.id (List.mem_map_of_mem isOrg)
  · intro seat isSeat other isOther same
    exact run.constraints.uniqueKeys.membershipInterviewer.eq isSeat isOther same
  · intro served member id accepts
    have keyed := (run.sound_before member).constraints.uniqueKeys.orgInvite
    rcases run.movesSeats member with joins | quiet
    · obtain ⟨invite, account, seated, spends, _⟩ := joins.seatedBy keyed
      exact ⟨invite, account, ((spends id).mp accepts).symm, seated⟩
    · exact absurd accepts (quiet.not_accepts keyed id)
  · intro served member seat isSeat stands fresh
    have sound := run.sound_before member
    have isOld : seat.orgId < served.before.nextId := by
      obtain ⟨org, isOrg, same⟩ := List.mem_map.mp stands
      exact same ▸ sound.ids.organization org isOrg
    rcases run.movesSeats member with joins | quiet
    · obtain ⟨invite, _, _, spends, seats⟩ :=
        joins.seatedBy sound.constraints.uniqueKeys.orgInvite
      exact ⟨invite, (seats seat isSeat isOld fresh).symm,
        (spends invite.id).mpr rfl⟩
    · obtain ⟨was, isWas, same⟩ := quiet.seats seat isSeat isOld
      exact absurd (Prod.mk.inj same).1 (fresh was isWas)

namespace Scenario

/-- A colleague is invited. -/
def colleague : List Asked :=
  [registers, asks 1 'b' (.createOrgInvite "b@x" .member)]

/-- The colleague registers by the link. -/
def joins (now : Time) (tag : Char) : Asked :=
  (surroundings now tag,
    .register ⟨"b@x", "long enough pw", "Bob", none, some "b"⟩)

end Scenario

open Scenario in
/-- The seat of a colleague comes from an invitation, which the link does not
offer again. -/
theorem roster_sound_joins :
    ∃ invite : OrgInvite, invite.orgId = 2 ∧
      (servedAfter colleague (joins 2 'c')).Accepts
        Scenario.deployment invite.id :=
  (roster_sound (run_play (colleague ++ [joins 2 'c', joins 3 'd']))).2.2.2.2 _
    (mem_play colleague (joins 2 'c') [joins 3 'd']) ⟨6, 2, 5, .member, some 1⟩
    (by decide) (by unfold Database.Stands; decide) (by decide)

end AssessmentPlatform
