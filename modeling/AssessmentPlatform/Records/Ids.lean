import AssessmentPlatform.Records.Purged
import AssessmentPlatform.Records.ServeCommits

/-!
# Identifiers are never given out again

The sequence only moves forward, and every key that was drawn from it lies
behind it.
-/

namespace AssessmentPlatform

open Rows

variable {deployment : Deployment} {served : Served} {scope : Option Nat}
variable {db after left base : Database}

theorem Enters.nextId_le {account : Interviewer} {gaveUp : Option Nat}
    (enters : Enters db account gaveUp base) : db.nextId ≤ base.nextId := by
  cases enters with
  | newcomer => exact Nat.le_succ _
  | seatless => exact Nat.le_refl _
  | leaving _ _ gaveUp =>
      obtain ⟨rfl, _⟩ := leaveEmptyOrg_eq_ok gaveUp
      exact Nat.le_refl _

theorem Change.nextId_le (change : Change deployment served scope db after) :
    db.nextId ≤ after.nextId := by
  cases change with
  | founded _ enters => exact enters.nextId_le.trans (Nat.le_add_right _ 2)
  | joined enters => exact enters.nextId_le.trans (Nat.le_succ _)
  | accountDeleted deleted =>
      obtain ⟨left, leaving, rfl⟩ := Database.purgeAccount_left deleted
      cases leaving <;> exact Nat.le_refl _
  | settings _ _ _ _ later => exact later
  | setAdded _ _ _ _ _ later => exact later
  | _ => simp [addQuestion, addInvites, erase]

/-- The keys that were drawn from the sequence lie behind a bound. -/
structure IdsBelow (db : Database) (bound : Nat) : Prop where
  organization : Below Organization.id db.organizations bound
  orgInvite : Below OrgInvite.id db.orgInvites bound
  slot : Below AssessmentQuestion.id db.slots bound
  invite : Below Invite.id db.invites bound
  attempt : Below CandidateAttempt.id db.attempts bound
  slotVariant : Below CandidateSlotVariant.id db.slotVariants bound

theorem IdsBelow.mono {bound later : Nat} (below : IdsBelow db bound)
    (reached : bound ≤ later) : IdsBelow db later where
  organization := below.organization.mono reached
  orgInvite := below.orgInvite.mono reached
  slot := below.slot.mono reached
  invite := below.invite.mono reached
  attempt := below.attempt.mono reached
  slotVariant := below.slotVariant.mono reached

theorem IdsBelow.purged {bound orgId : Nat} (below : IdsBelow db bound) :
    IdsBelow (db.purged orgId) bound where
  organization := below.organization.deleteWhere
  orgInvite := below.orgInvite.deleteWhere
  slot := below.slot.deleteWhere
  invite := below.invite.deleteWhere
  attempt := below.attempt.deleteWhere
  slotVariant := below.slotVariant.deleteWhere

theorem IdsBelow.entered {account : Interviewer} {gaveUp : Option Nat}
    (below : IdsBelow db db.nextId) (enters : Enters db account gaveUp base) :
    IdsBelow base base.nextId := by
  cases enters with
  | newcomer => exact { below.mono (Nat.le_succ db.nextId) with }
  | seatless => exact below
  | leaving _ _ gaveUp =>
      obtain ⟨rfl, _⟩ := leaveEmptyOrg_eq_ok gaveUp
      exact below.purged

theorem Database.Left.idsBelow {interviewerId : Nat}
    (leaving : Database.Left db interviewerId left)
    (below : IdsBelow db db.nextId) : IdsBelow left left.nextId := by
  cases leaving with
  | seatless => exact below
  | shared => exact { below with }
  | last => exact below.purged

theorem Change.idsBelow (change : Change deployment served scope db after)
    (below : IdsBelow db db.nextId) : IdsBelow after after.nextId := by
  have later := below.mono change.nextId_le
  cases change with
  | founded _ enters =>
      have entered := below.entered enters
      exact { entered.mono (Nat.le_add_right _ 2) with
        organization := entered.organization.append (Nat.lt_add_of_pos_right
          Nat.two_pos) (Nat.le_add_right _ 2) }
  | joined enters =>
      have entered := (below.entered enters).mono (Nat.le_succ _)
      exact { entered with
        orgInvite := entered.orgInvite.of_map_eq map_key_save }
  | accountDeleted deleted =>
      obtain ⟨left, leaving, rfl⟩ := Database.purgeAccount_left deleted
      have kept := leaving.idsBelow below
      exact { kept with
        orgInvite := kept.orgInvite.updateWhere fun _ => rfl
        invite := kept.invite.updateWhere fun _ => rfl }
  | orgInvited invite isNext =>
      exact { later with
        orgInvite := below.orgInvite.deleteWhere.append
          (isNext ▸ Nat.lt_succ_self _) (Nat.le_succ _) }
  | orgInviteRevoked => exact { later with
      orgInvite := below.orgInvite.deleteWhere }
  | settings => exact { later with
      organization := later.organization.of_map_eq map_key_save }
  | billed _ same => exact { later with
      organization := below.organization.of_map_eq same }
  | questionDeleted => exact { later with
      invite := below.invite.deleteWhere }
  | assessmentAdded _ _ _ rows => exact { later with
      slot := below.slot.append_range rows.id }
  | slotsReplaced _ _ _ _ _ _ _ rows => exact { later with
      slot := below.slot.deleteWhere.append_range rows.id }
  | assessmentDeleted => exact { later with
      slot := below.slot.deleteWhere }
  | invitesAdded invites isNext => exact { later with
      invite := below.invite.append_range isNext }
  | inviteRevoked => exact { later with
      invite := below.invite.of_map_eq map_key_save }
  | drawn => exact { later with
      slotVariant := below.slotVariant.append (Nat.lt_succ_self _)
        (Nat.le_succ _) }
  | started attempt _ _ isNext => exact { later with
      attempt := below.attempt.append (isNext ▸ Nat.lt_succ_self _)
        (Nat.le_succ _) }
  | named => exact { later with
      attempt := below.attempt.updateWhere fun _ => rfl }
  | stamped _ _ keeps => exact { later with
      attempt := below.attempt.updateWhere keeps.id }
  | erased => exact { later with
      attempt := below.attempt.updateWhere fun _ => rfl
      slotVariant := below.slotVariant.updateWhere fun _ => rfl
      invite := below.invite.updateWhere fun _ => rfl }
  | recipientsDropped _ _ keeps => exact { later with
      invite := below.invite.updateWhere fun row => by
        obtain ⟨_, _, same⟩ := keeps.rest row
        rw [same] }
  | _ => exact { later with }

/-! ## Organisations -/

/-- An organisation has its row. -/
def Database.Stands (db : Database) (orgId : Nat) : Prop :=
  orgId ∈ db.organizations.map Organization.id

theorem stands_purged {orgId purgedId : Nat} :
    (db.purged purgedId).Stands orgId ↔ db.Stands orgId ∧ orgId ≠ purgedId := by
  simp only [Database.Stands, Database.purged, List.mem_map, mem_deleteWhere,
    beq_iff_eq]
  constructor
  · rintro ⟨row, ⟨isRow, apart⟩, same⟩
    exact ⟨⟨row, isRow, same⟩, same ▸ apart⟩
  · rintro ⟨⟨row, isRow, same⟩, apart⟩
    exact ⟨row, ⟨isRow, same.symm ▸ apart⟩, same⟩

theorem Enters.stands {account : Interviewer} {gaveUp : Option Nat}
    {orgId : Nat} (enters : Enters db account gaveUp base)
    (stands : base.Stands orgId) : db.Stands orgId := by
  cases enters with
  | newcomer => exact stands
  | seatless => exact stands
  | leaving _ _ gaveUp =>
      obtain ⟨rfl, _⟩ := leaveEmptyOrg_eq_ok gaveUp
      exact (stands_purged.mp stands).1

/-- An organisation that stands and is not new stood before. -/
theorem Change.stands {orgId : Nat}
    (change : Change deployment served scope db after)
    (old : orgId < db.nextId) (stands : after.Stands orgId) :
    db.Stands orgId := by
  cases change with
  | founded _ enters =>
      apply enters.stands
      simp only [Database.Stands, foundOrg, List.map_append, List.mem_append,
        List.map_cons, List.map_nil, List.mem_singleton,
        newOrganization] at stands ⊢
      rcases stands with stood | isNew
      · exact stood
      · have later := enters.nextId_le
        omega
  | joined enters => exact enters.stands stands
  | accountDeleted deleted =>
      obtain ⟨left, leaving, rfl⟩ := Database.purgeAccount_left deleted
      cases leaving with
      | seatless => exact stands
      | shared => exact stands
      | last => exact (stands_purged.mp stands).1
  | settings => rw [Database.Stands, map_key_save] at stands; exact stands
  | billed _ same => rw [Database.Stands, same] at stands; exact stands
  | _ => exact stands

theorem idsBelow_empty : IdsBelow .empty 1 where
  organization := by simp [Below, Database.empty]
  orgInvite := by simp [Below, Database.empty]
  slot := by simp [Below, Database.empty]
  invite := by simp [Below, Database.empty]
  attempt := by simp [Below, Database.empty]
  slotVariant := by simp [Below, Database.empty]

end AssessmentPlatform
