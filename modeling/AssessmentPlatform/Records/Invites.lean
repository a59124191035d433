import AssessmentPlatform.Records.Library

/-!
# Candidate invites

The three routes that mint invites and the two that revoke them.  What the
mailer answers for each recipient is kept on the invite.
-/

namespace AssessmentPlatform

open Rows

variable (deployment : Deployment) (around : Surroundings) (db : Database)

/-- `InviteCreate` -/
structure InviteCreate where
  recipients : List String
  recipients_nonempty : recipients ≠ []
  expiresAt : Option Time
  deriving DecidableEq, Repr

/-- `VariantSetInviteCreate` -/
structure VariantSetInviteCreate extends InviteCreate where
  overrides : List (String × String)
  deriving DecidableEq, Repr

/-- `_expiry_in_future`, as the request validation answers it. -/
def checkExpiry (body : InviteCreate) : Except HTTPException Unit :=
  if body.expiresAt.any fun expiry => expiry ≤ around.now then
    throw ⟨422, "expires_at must be in the future"⟩
  else return ()

/-- `_check_invite_capacity` -/
def checkInviteCapacity (org : Membership) (count : Nat) :
    Except HTTPException Unit :=
  if !deployment.billingEnforced then return ()
  else do
    let organization ← db.organization org.orgId
    let row := db.usageRow org.orgId (deployment.periodKey around.now)
    let limit := allowance organization .sittings row
    if limit - row.sittings < count then
      throw (quotaError organization (planFor organization).sittings limit
        "candidate sittings" " this month")
    else return ()

/-- `email_client.send_invite_emails`: one outcome for each recipient. -/
def sendInviteEmails (recipients : List String) : List InviteDelivery :=
  recipients.map fun recipient =>
    ⟨recipient, (around.mail recipient).1, (around.mail recipient).2⟩

/-- An invite as the routes mint it, with the outcome of its mails. -/
def newInvite (id drawn : Nat) (caller : Nat) (recipients : List String)
    (expiresAt : Option Time) : Invite where
  id := id
  token := around.token drawn
  questionId := none
  assessmentId := none
  variantSetId := none
  createdBy := some caller
  recipients := recipients
  deliveries := sendInviteEmails around recipients
  expiresAt := expiresAt
  proctored := true
  durationMinutes := none
  status := .active
  createdAt := around.now

/-- `session.add(invite)` -/
def addInvites (db : Database) (invites : List Invite) : Database :=
  { db with
    invites := db.invites ++ invites
    nextId := db.nextId + invites.length }

/-- `create_invite` -/
def createInvite (caller : Nat) (questionId : String) (body : InviteCreate) :
    Except HTTPException Database := do
  checkExpiry around body
  let current ← db.currentInterviewer caller
  let org ← db.currentMembership caller
  let question ← db.ownedQuestion questionId org
  checkInviteCapacity deployment around db org body.recipients.length
  let invite :=
    { newInvite around db.nextId 0 current.id
        (body.recipients.map deployment.auth.normalizeEmail) body.expiresAt with
      questionId := some questionId
      durationMinutes := question.durationMinutes }
  (addInvites db [invite]).execute

/-- `create_assessment_invite` -/
def createAssessmentInvite (caller : Nat) (assessmentId : String)
    (body : InviteCreate) : Except HTTPException Database := do
  checkExpiry around body
  let current ← db.currentInterviewer caller
  let org ← db.currentMembership caller
  let assessment ← db.ownedAssessment assessmentId org
  if db.slotsOf assessmentId = [] then
    throw ⟨400, "cannot invite to an assessment with no questions."⟩
  checkInviteCapacity deployment around db org body.recipients.length
  let invite :=
    { newInvite around db.nextId 0 current.id
        (body.recipients.map deployment.auth.normalizeEmail) body.expiresAt with
      assessmentId := some assessmentId
      proctored := assessment.proctored
      durationMinutes := assessment.durationMinutes }
  (addInvites db [invite]).execute

/-- The variant that the loop of `create_variant_set_invites` hands a
recipient, and where the rotation then stands. -/
def chooseVariant (variants : List Question) (overrides : List (String × String))
    (recipient email : String) (cursor : Nat) :
    Except HTTPException (Question × Nat) :=
  let override :=
    ((overrides.lookup recipient).filter (· != "")).or (overrides.lookup email)
  match override with
  | some pinned =>
      match variants.find? fun question => question.id == pinned with
      | none => throw ⟨422, s!"variant '{pinned}' is not part of this set."⟩
      | some chosen => return (chosen, cursor)
  | none =>
      match variants[cursor % variants.length]? with
      | none => throw internalError
      | some chosen => return (chosen, cursor + 1)

/-- The loop of `create_variant_set_invites`: one invite for each recipient. -/
def variantInvites (caller : Nat) (setId : String) (variants : List Question)
    (body : VariantSetInviteCreate) (first : Nat) :
    Nat → Nat → List String → Except HTTPException (List Invite)
  | _, _, [] => return []
  | drawn, cursor, recipient :: rest => do
      let email := deployment.auth.normalizeEmail recipient
      let (chosen, next) ←
        chooseVariant variants body.overrides recipient email cursor
      let invite :=
        { newInvite around (first + drawn) drawn caller [email]
            body.expiresAt with
          questionId := some chosen.id
          variantSetId := some setId
          durationMinutes := chosen.durationMinutes }
      let invites ←
        variantInvites caller setId variants body first (drawn + 1) next rest
      return invite :: invites

/-- `create_variant_set_invites` -/
def createVariantSetInvites (caller : Nat) (setId : String)
    (body : VariantSetInviteCreate) : Except HTTPException Database := do
  checkExpiry around body.toInviteCreate
  let current ← db.currentInterviewer caller
  let org ← db.currentMembership caller
  let _ ← db.ownedVariantSet setId org
  let variants := db.variantsOf setId
  if variants = [] then
    throw ⟨400, "cannot invite to a variant set with no variants."⟩
  checkInviteCapacity deployment around db org body.recipients.length
  let cursor :=
    (db.invites.filter fun row => row.variantSetId == some setId).length
  let invites ←
    variantInvites deployment around current.id setId variants body db.nextId 0
      cursor body.recipients
  (addInvites db invites).execute

/-- Mark an invite as revoked. -/
def markRevoked (invite : Invite) : Except HTTPException Database :=
  Database.execute { db with
    invites := save Invite.id { invite with status := .revoked } db.invites }

/-- `revoke_any_invite` -/
def revokeAnyInvite (caller : Nat) (token : String) :
    Except HTTPException Database := do
  let org ← db.currentMembership caller
  match fetch Invite.token token db.invites with
  | none => throw ⟨404, "invalid invite token."⟩
  | some invite =>
      if db.inviteOrg invite ≠ some org.orgId then
        throw ⟨404, "invalid invite token."⟩
      else markRevoked db invite

/-- `revoke_invite` -/
def revokeInvite (caller : Nat) (questionId token : String) :
    Except HTTPException Database := do
  let org ← db.currentMembership caller
  let _ ← db.ownedQuestion questionId org
  match fetch Invite.token token db.invites with
  | none => throw ⟨404, "invalid invite token."⟩
  | some invite =>
      if invite.questionId ≠ some questionId then
        throw ⟨404, "invalid invite token."⟩
      else markRevoked db invite

end AssessmentPlatform
