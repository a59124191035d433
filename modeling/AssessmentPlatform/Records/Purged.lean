import AssessmentPlatform.Records.Roster

/-!
# What the cascade leaves

Every subquery of `_purge_org` is answered from tables that the cascade has not
reached yet, so each DELETE selects what it would have selected at the start.
-/

namespace AssessmentPlatform

open Rows Refusals

namespace Database

variable {db after : Database} {orgId interviewerId : Nat}

/-- The database without the rows of an organisation. -/
def purged (db : Database) (orgId : Nat) : Database where
  organizations := deleteWhere (fun row => row.id == orgId) db.organizations
  usage := deleteWhere (fun row => row.orgId == orgId) db.usage
  assets := deleteWhere (fun row => row.orgId == orgId) db.assets
  interviewers := db.interviewers
  memberships := deleteWhere (fun row => row.orgId == orgId) db.memberships
  orgInvites := deleteWhere (fun row => row.orgId == orgId) db.orgInvites
  variantSets := deleteWhere (fun row => row.orgId == orgId) db.variantSets
  questions := deleteWhere (fun row => row.orgId == orgId) db.questions
  testCases :=
    deleteWhere (fun row => db.ownsQuestion orgId row.questionId) db.testCases
  assessments := deleteWhere (fun row => row.orgId == orgId) db.assessments
  slots :=
    deleteWhere (fun row => db.ownsAssessment orgId row.assessmentId) db.slots
  invites := deleteWhere (fun row => db.ownsInvite orgId row.id) db.invites
  attempts :=
    deleteWhere (fun row => db.ownsInvite orgId row.inviteId) db.attempts
  slotVariants :=
    deleteWhere (fun row => db.ownsInvite orgId row.inviteId) db.slotVariants
  events := deleteWhere (fun row => db.ownsInvite orgId row.inviteId) db.events
  drafts := deleteWhere (fun row => db.ownsInvite orgId row.inviteId) db.drafts
  feedback := deleteWhere (fun row => row.orgId == orgId) db.feedback
  submissions :=
    deleteWhere (fun row => db.ownsSubmission orgId row.id) db.submissions
  results :=
    deleteWhere (fun row => db.ownsSubmission orgId row.submissionId)
      db.results
  nextId := db.nextId

theorem foldl_of_foldlM_execute {steps : List (Database → Database)}
    (ran : steps.foldlM (fun db step => (step db).execute) db = .ok after) :
    after = steps.foldl (fun db step => step db) db := by
  induction steps generalizing db with
  | nil => exact (pure_eq_ok.mp ran).symm
  | cons step rest inductionHypothesis =>
      rw [List.foldlM_cons] at ran
      obtain ⟨middle, executed, later⟩ := bind_eq_ok.mp ran
      obtain ⟨_, rfl⟩ := execute_eq_ok.mp executed
      exact inductionHypothesis later

theorem foldl_purgeSteps (db : Database) (orgId : Nat) :
    (purgeSteps orgId).foldl (fun db step => step db) db = db.purged orgId :=
  rfl

theorem purgeOrg_eq_purged (ran : db.purgeOrg orgId = .ok after) :
    after = db.purged orgId := by
  rw [foldl_of_foldlM_execute ran, foldl_purgeSteps]

/-! ## Accounts -/

/-- How the organisation of an account that is deleted is left. -/
inductive Left (db : Database) (interviewerId : Nat) : Database → Prop where
  | seatless :
      db.membershipFor interviewerId = none → Left db interviewerId db
  | shared {membership : Membership} :
      db.membershipFor interviewerId = some membership →
      lastAdminGuard db membership.orgId interviewerId = .ok () →
      Left db interviewerId { db with
        memberships := deleteWhere
          (fun row => row.interviewerId == interviewerId) db.memberships }
  | last {membership : Membership} :
      db.membershipFor interviewerId = some membership →
      (∀ row ∈ db.memberships, row.orgId = membership.orgId →
        row.interviewerId = interviewerId) →
      Left db interviewerId (db.purged membership.orgId)

theorem leaveOrg_left (ran : db.leaveOrg interviewerId = .ok after) :
    Left db interviewerId after := by
  unfold leaveOrg at ran
  split at ran
  · next seatless =>
    obtain rfl := pure_eq_ok.mp ran
    exact .seatless seatless
  · next membership seat =>
    split at ran
    · obtain ⟨_, guarded, executed⟩ := bind_eq_ok.mp ran
      obtain ⟨_, rfl⟩ := execute_eq_ok.mp executed
      exact .shared seat guarded
    · next alone =>
      rw [purgeOrg_eq_purged ran]
      apply Left.last seat
      simpa using alone

/-- What `_purge_account` leaves. -/
theorem purgeAccount_left (ran : db.purgeAccount interviewerId = .ok after) :
    ∃ left, Left db interviewerId left ∧ after = { left.disown interviewerId with
      interviewers :=
        deleteWhere (fun row => row.id == interviewerId) left.interviewers } := by
  unfold purgeAccount at ran
  simp only [bind_eq_ok] at ran
  obtain ⟨left, leaving, disowned, cut, executed⟩ := ran
  obtain ⟨_, rfl⟩ := execute_eq_ok.mp cut
  obtain ⟨_, rfl⟩ := execute_eq_ok.mp executed
  exact ⟨left, leaveOrg_left leaving, rfl⟩

end Database

theorem leaveEmptyOrg_eq_ok {db left : Database} {membership : Membership}
    (gaveUp : leaveEmptyOrg db membership = .ok left) :
    left = db.purged membership.orgId ∧ db.memberCount membership.orgId ≤ 1 := by
  unfold leaveEmptyOrg at gaveUp
  simp only [ite_throw_eq_ok, not_lt] at gaveUp
  obtain ⟨alone, _, purged⟩ := gaveUp
  exact ⟨Database.purgeOrg_eq_purged purged, alone⟩

end AssessmentPlatform
