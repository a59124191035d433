import AssessmentPlatform.Grading.Requests
import AssessmentPlatform.Records.Session

/-!
# Erasure and retention

What `privacy.py` does to the tables: one candidate's data in an organisation
on request, and expired sittings with the addresses of old invites on a
schedule.
-/

namespace AssessmentPlatform

open Rows

variable (deployment : Deployment) (around : Surroundings)

/-! ## Erasure -/

namespace Database

variable (db : Database)

/-- `org_invite_ids` -/
def orgInviteIds (orgId : Nat) : List Nat :=
  (db.invites.filter fun invite =>
    (invite.questionId.bind db.questionOrg) == some orgId ||
      (invite.assessmentId.bind db.assessmentOrg) == some orgId).map Invite.id

end Database

/-- `_scrub_invite_recipients`: drop one address from an invite. -/
def scrubInviteRecipients (email : String) (invite : Invite) : Invite :=
  { invite with
    recipients := invite.recipients.filter (· ≠ email)
    deliveries := invite.deliveries.filter fun delivery =>
      delivery.recipient ≠ email }

/-- `_tombstone`, from a drawn identifier. -/
def tombstone (drawn : String) : String :=
  tombstoneOf (String.ofList (drawn.toList.take 16))

/-- `_erase`: anonymise one candidate across a fixed set of invites and
submissions. -/
def erase (now : Time) (pseudonym email : String) (inviteIds : List Nat)
    (submissionIds : List String) (db : Database) : Database :=
  let onInvite (inviteId : Nat) (address : String) : Bool :=
    inviteIds.contains inviteId && address == email
  { db with
    results := updateWhere
      (fun row => submissionIds.contains row.submissionId)
      AssessmentResult.erase db.results
    submissions := updateWhere (fun row => submissionIds.contains row.id)
      (Submission.erase pseudonym now) db.submissions
    feedback := deleteWhere
      (fun row => db.attempts.any fun attempt =>
        attempt.id == row.attemptId &&
          onInvite attempt.inviteId attempt.candidateEmail)
      db.feedback
    attempts := updateWhere
      (fun row => onInvite row.inviteId row.candidateEmail)
      (CandidateAttempt.erase pseudonym now) db.attempts
    slotVariants := updateWhere
      (fun row => onInvite row.inviteId row.candidateEmail)
      (fun row => { row with candidateEmail := pseudonym }) db.slotVariants
    events := updateWhere
      (fun row => onInvite row.inviteId row.candidateEmail)
      (fun row => { row with candidateEmail := pseudonym }) db.events
    drafts := deleteWhere
      (fun row => onInvite row.inviteId row.candidateEmail) db.drafts
    invites := updateWhere (fun row => inviteIds.contains row.id)
      (scrubInviteRecipients email) db.invites }

/-- The submissions that the erasure of a candidate in an organisation
selects. -/
def erasableSubmissions (db : Database) (orgId : Nat) (email : String) :
    List String :=
  (db.submissions.filter fun row =>
    row.candidateEmail == some email &&
      (db.questionOrg row.questionId == some orgId ||
        row.inviteId.any fun inviteId =>
          (db.orgInviteIds orgId).contains inviteId)).map Submission.id

/-- `erase_candidate` -/
def Database.eraseCandidate (db : Database) (orgId : Nat) (email : String)
    (now : Time) (pseudonym : String) : Except HTTPException Database :=
  (erase now pseudonym email (db.orgInviteIds orgId)
    (erasableSubmissions db orgId email) db).execute

/-- `erase_candidate_data` -/
def eraseCandidateData (caller : Nat) (email : String) (db : Database) :
    Except HTTPException Database := do
  let org ← db.currentMembership caller
  requireAdmin org
  db.eraseCandidate org.orgId (deployment.auth.normalizeEmail email)
    around.now (tombstone (around.uuid 0))

/-- `erase_sitting` -/
def Database.eraseSitting (db : Database) (inviteId : Nat) (email : String)
    (now : Time) (pseudonym : String) : Except HTTPException Database :=
  let submissionIds :=
    (db.submissions.filter fun row =>
      row.inviteId == some inviteId &&
        row.candidateEmail == some email).map Submission.id
  (erase now pseudonym email [inviteId] submissionIds db).execute

/-! ## Retention -/

/-- What lies before the window of a retention policy. -/
def cutoff (now : Time) (retentionDays : Int) : Time :=
  now - Accounts.days retentionDays

/-- `expired_sittings` -/
def expiredSittings (db : Database) (now : Time) (orgId : Nat)
    (retentionDays : Int) : List (Nat × String) :=
  (db.attempts.filter fun row =>
    (db.orgInviteIds orgId).contains row.inviteId &&
      decide (row.startedAt < cutoff now retentionDays) &&
      row.erasedAt.isNone).map
    fun row => (row.inviteId, row.candidateEmail)

/-- The addresses of an invite with a sitting that is not erased. -/
def liveAddresses (db : Database) (inviteId : Nat) : List String :=
  (db.attempts.filter fun row =>
    row.inviteId == inviteId && row.erasedAt.isNone).map
    fun row => deployment.auth.normalizeEmail row.candidateEmail

/-- An invite with the addresses it keeps past the window. -/
def keepLiveRecipients (db : Database) (invite : Invite) : Invite :=
  let live := liveAddresses deployment db invite.id
  let isLive (address : String) : Bool :=
    live.contains (deployment.auth.normalizeEmail address)
  { invite with
    recipients := invite.recipients.filter isLive
    deliveries := invite.deliveries.filter fun delivery =>
      isLive delivery.recipient }

/-- `_expire_invite_recipients` -/
def expireInviteRecipients (orgId : Nat) (now : Time) (retentionDays : Int)
    (db : Database) : Database :=
  { db with
    invites := updateWhere
      (fun invite => (db.orgInviteIds orgId).contains invite.id &&
        decide (invite.createdAt < cutoff now retentionDays))
      (keepLiveRecipients deployment db) db.invites }

/-- The loop of `purge_expired` over the expired sittings of an organisation,
each under the next pseudonym: how many were erased, and the rows then. -/
def eraseSittings (now : Time) :
    Nat → List (Nat × String) → Database → Nat × Except HTTPException Database
  | _, [], db => (0, .ok db)
  | drawn, (inviteId, email) :: rest, db =>
      match db.eraseSitting inviteId email now
          (tombstone (around.uuid drawn)) with
      | .error refused => (0, .error refused)
      | .ok erased =>
          let later := eraseSittings now (drawn + 1) rest erased
          (later.1 + 1, later.2)

/-- The part of `purge_expired` for one organisation, up to its commit. -/
def purgeExpiredOf (now : Time) (organization : Organization)
    (retentionDays : Int) (drawn : Nat) (db : Database) :
    Nat × Except HTTPException Database :=
  let sittings := expiredSittings db now organization.id retentionDays
  let erased := eraseSittings around now drawn sittings db
  (erased.1, do
    let rows ← erased.2
    (expireInviteRecipients deployment organization.id now retentionDays
      rows).execute)

/-- The loop of `purge_expired` over the organisations with a window; one that
fails is rolled back. -/
def purgeExpiredLoop (now : Time) :
    Nat → List Organization → Database → Database × Nat
  | _, [], db => (db, 0)
  | drawn, organization :: rest, db =>
      match organization.retentionDays with
      | none => purgeExpiredLoop now drawn rest db
      | some retentionDays =>
          if retentionDays ≤ 0 then purgeExpiredLoop now drawn rest db
          else
            let sittings :=
              expiredSittings db now organization.id retentionDays
            let purged :=
              purgeExpiredOf deployment around now organization retentionDays
                drawn db
            let rows := match purged.2 with
              | .ok after => after
              | .error _ => db
            let later :=
              purgeExpiredLoop now (drawn + sittings.length) rest rows
            (later.1, purged.1 + later.2)

/-- `purge_expired`, with the number of sittings it reports. -/
def purgeExpired (now : Time) (db : Database) : Database × Nat :=
  purgeExpiredLoop deployment around now 0
    (db.organizations.filter fun row => row.retentionDays.isSome) db

end AssessmentPlatform
