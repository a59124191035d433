import AssessmentPlatform.Records.Purge

/-!
# The roster: founding, inviting, joining and leaving organisations

The routes that move accounts between organisations, and the settings of an
organisation.
-/

namespace AssessmentPlatform

open Rows

variable (deployment : Deployment) (around : Surroundings) (db : Database)

/-! ## Invitations to an organisation -/

/-- `_open_org_invite` -/
def openOrgInvite (token : String) : Except HTTPException OrgInvite :=
  match fetch OrgInvite.token token db.orgInvites with
  | none => throw invalid
  | some invite =>
      if invite.acceptedAt.isSome ||
          invite.expiresAt.any fun expiry => expiry ≤ around.now then
        throw invalid
      else return invite
where
  invalid : HTTPException :=
    ⟨404, "this invitation link is no longer valid."⟩

/-- `_join_org`: turn an invitation into a seat of an account. -/
def joinOrg (interviewerId : Nat) (invite : OrgInvite) : Database :=
  { db with
    memberships := db.memberships ++
      [{ id := db.nextId
         orgId := invite.orgId
         interviewerId := interviewerId
         role := invite.role
         invitedBy := invite.invitedBy }]
    orgInvites :=
      save OrgInvite.id { invite with acceptedAt := some around.now }
        db.orgInvites
    nextId := db.nextId + 1 }

/-- An organisation as `_found_org` creates it. -/
def newOrganization (id : Nat) (name : String) : Organization where
  id := id
  name := name
  logoSha := none
  plan := "free"
  planStatus := "active"
  stripeCustomerId := none
  stripeSubscriptionId := none
  currentPeriodEnd := none
  retentionDays := none

/-- The name `_found_org` gives an organisation. -/
def organizationName (interviewer : Interviewer) (name : Option String) :
    String :=
  let chosen := deployment.auth.strip (name.getD "")
  let who := deployment.auth.strip interviewer.name
  if chosen ≠ "" then chosen
  else if who ≠ "" then who ++ "'s organisation"
  else "My organisation"

/-- `_found_org`: an organisation with the account as its first admin. -/
def foundOrg (interviewer : Interviewer) (name : Option String) : Database :=
  { db with
    organizations := db.organizations ++
      [newOrganization db.nextId (organizationName deployment interviewer name)]
    memberships := db.memberships ++
      [{ id := db.nextId + 1
         orgId := db.nextId
         interviewerId := interviewer.id
         role := .admin
         invitedBy := none }]
    nextId := db.nextId + 2 }

/-- `_leave_empty_org`: give up an organisation that is a shell. -/
def leaveEmptyOrg (membership : Membership) :
    Except HTTPException Database :=
  let orgId := membership.orgId
  if db.memberCount orgId > 1 then
    throw ⟨409, "you belong to an organisation with other members; ask one " ++
      "of its admins to remove you first."⟩
  else if db.questions.any (fun row => row.orgId == orgId) ||
      db.assessments.any (fun row => row.orgId == orgId) ||
      db.variantSets.any (fun row => row.orgId == orgId) then
    throw ⟨409, "your current organisation still has questions or " ++
      "assessments; they cannot be moved between organisations."⟩
  else db.purgeOrg orgId

/-! ## Accounts -/

/-- `RegisterIn` -/
structure RegisterIn where
  email : String
  password : String
  name : String
  registrationCode : Option String
  orgInviteToken : Option String
  deriving DecidableEq, Repr

/-- The admission part of `register`: the invitation that the address joins by,
or the registration code. -/
def admission (body : RegisterIn) (email : String) :
    Except HTTPException (Option OrgInvite) :=
  match body.orgInviteToken.filter (· != "") with
  | some token => do
      let invite ← openOrgInvite around db token
      if invite.email ≠ email then
        throw ⟨403, s!"this invitation was sent to '{invite.email}'."⟩
      return some invite
  | none =>
      if deployment.registrationCode ≠ "" ∧
          body.registrationCode ≠ some deployment.registrationCode then
        throw ⟨403, "invalid or missing registration code."⟩
      else return none

/-- The account that `register` creates. -/
def newInterviewer (body : RegisterIn) (email : String) : Interviewer where
  id := db.nextId
  email := email
  passwordHash := deployment.auth.hashpw body.password around.salt
  name := body.name
  tokenVersion := 0
  emailVerifiedAt := none

/-- `session.add(interviewer)` -/
def addInterviewer (interviewer : Interviewer) : Database :=
  { db with
    interviewers := db.interviewers ++ [interviewer]
    nextId := db.nextId + 1 }

/-- `register` -/
def register (body : RegisterIn) : Except HTTPException Database := do
  Accounts.checkPasswordPolicy body.password
  Accounts.checkLimiter around.toSurroundings
  let email := deployment.auth.normalizeEmail body.email
  let orgInvite ← admission deployment around db body email
  if (Accounts.byEmail db.interviewers email).isSome then
    throw (Accounts.alreadyRegistered email)
  Accounts.rejectBreached around.toSurroundings
  let interviewer := newInterviewer deployment around db body email
  let added := addInterviewer db interviewer
  match orgInvite with
  | some invite => (joinOrg around added interviewer.id invite).execute
  | none => (foundOrg deployment added interviewer none).execute

/-- `delete_me` -/
def deleteMe (caller : Nat) (password : String) :
    Except HTTPException Database := do
  let current ← db.currentInterviewer caller
  if !deployment.auth.checkpw password current.passwordHash then
    throw ⟨403, "password is incorrect."⟩
  db.purgeAccount current.id

/-- `create_org` -/
def createOrg (caller : Nat) (name : String) :
    Except HTTPException Database := do
  let current ← db.currentInterviewer caller
  if (db.membershipFor current.id).isSome then
    throw ⟨409, "this account already belongs to an organisation."⟩
  (foundOrg deployment db current (some name)).execute

/-! ## The roster -/

/-- `update_member_role` -/
def updateMemberRole (caller interviewerId : Nat) (role : Role) :
    Except HTTPException Database := do
  let org ← db.currentMembership caller
  requireAdmin org
  match db.memberOf org.orgId interviewerId with
  | none => throw ⟨404, "no such member of this organisation."⟩
  | some membership =>
      if role ≠ .admin then lastAdminGuard db org.orgId interviewerId
      Database.execute { db with
        memberships :=
          save Membership.id { membership with role := role }
            db.memberships }

/-- `remove_member` -/
def removeMember (caller interviewerId : Nat) :
    Except HTTPException Database := do
  let org ← db.currentMembership caller
  requireAdmin org
  match db.memberOf org.orgId interviewerId with
  | none => throw ⟨404, "no such member of this organisation."⟩
  | some membership =>
      lastAdminGuard db org.orgId interviewerId
      Database.execute { db with
        memberships :=
          deleteWhere (fun row => row.id == membership.id) db.memberships }

/-- `_seats_used`: members and open invitations. -/
def seatsUsed (orgId : Nat) : Nat :=
  db.memberCount orgId +
    (db.orgInvites.filter fun row =>
      row.orgId == orgId && row.acceptedAt.isNone &&
        row.expiresAt.all fun expiry => around.now < expiry).length

/-- `_check_seat_capacity` -/
def checkSeatCapacity (org : Membership) : Except HTTPException Unit :=
  if !deployment.billingEnforced then return ()
  else do
    let organization ← db.organization org.orgId
    let plan := planFor organization
    if max 0 (plan.seats - seatsUsed around db org.orgId) ≤ 0 then
      throw (quotaError organization plan.seats plan.seats "seats" "")
    else return ()

/-- `ORG_INVITE_TTL` -/
def orgInviteTtl : Time := Accounts.days 7

/-- `create_org_invite` -/
def createOrgInvite (caller : Nat) (email : String) (role : Role) :
    Except HTTPException Database := do
  let current ← db.currentInterviewer caller
  let org ← db.currentMembership caller
  requireAdmin org
  let email := deployment.auth.normalizeEmail email
  if db.interviewers.any fun row =>
      row.email == email && (db.memberOf org.orgId row.id).isSome then
    throw ⟨409, s!"'{email}' is already a member of this organisation."⟩
  let replaced ← Database.execute { db with
    orgInvites := deleteWhere
      (fun row => row.orgId == org.orgId && row.email == email &&
        row.acceptedAt.isNone)
      db.orgInvites }
  checkSeatCapacity deployment around replaced org
  let _ ← replaced.organization org.orgId
  Database.execute { replaced with
    orgInvites := replaced.orgInvites ++
      [{ id := replaced.nextId
         orgId := org.orgId
         token := around.token 0
         email := email
         role := role
         invitedBy := some current.id
         expiresAt := some (around.now + orgInviteTtl)
         acceptedAt := none }]
    nextId := replaced.nextId + 1 }

/-- `revoke_org_invite` -/
def revokeOrgInvite (caller inviteId : Nat) :
    Except HTTPException Database := do
  let org ← db.currentMembership caller
  requireAdmin org
  match fetch OrgInvite.id inviteId db.orgInvites with
  | none => throw missing
  | some invite =>
      if invite.orgId ≠ org.orgId ∨ invite.acceptedAt.isSome then throw missing
      else
        Database.execute { db with
          orgInvites :=
            deleteWhere (fun row => row.id == invite.id) db.orgInvites }
where
  missing : HTTPException := ⟨404, "no pending invitation with that id."⟩

/-- `accept_org_invite` -/
def acceptOrgInvite (caller : Nat) (token : String) :
    Except HTTPException Database := do
  let current ← db.currentInterviewer caller
  let invite ← openOrgInvite around db token
  if deployment.auth.normalizeEmail current.email ≠ invite.email then
    throw ⟨403, s!"this invitation was sent to '{invite.email}'; " ++
      "sign in as that address."⟩
  let existing := db.membershipFor current.id
  if existing.any fun membership => membership.orgId == invite.orgId then
    throw ⟨409, "you are already a member of this organisation."⟩
  let organization ← db.organization invite.orgId
  if deployment.billingEnforced ∧
      max 0 ((planFor organization).seats - db.memberCount invite.orgId) ≤ 0
  then
    throw ⟨409, "this organisation has no seat available; " ++
      "ask an admin to upgrade its plan and invite you again."⟩
  match existing with
  | none => (joinOrg around db current.id invite).execute
  | some membership => do
      let left ← leaveEmptyOrg db membership
      (joinOrg around left current.id invite).execute

/-! ## Settings of an organisation -/

/-- `update_org`, of the columns kept here; `none` stands for a field that was
not sent. -/
def updateOrg (caller : Nat) (name : Option String)
    (retentionDays : Option (Option Int)) : Except HTTPException Database := do
  let org ← db.currentMembership caller
  requireAdmin org
  let organization ← db.organization org.orgId
  Database.execute { db with
    organizations :=
      save Organization.id
        { organization with
          name := (name.map deployment.auth.strip).getD organization.name
          retentionDays :=
            retentionDays.getD organization.retentionDays }
        db.organizations }

/-- `_drop_unreferenced_logo` -/
def dropUnreferencedLogo (db : Database) (sha256 : Option String)
    (orgId : Nat) : Database :=
  match sha256 with
  | none => db
  | some sha =>
      if db.organizations.any (fun row =>
            row.id == orgId && row.logoSha == some sha) ||
          db.assessments.any (fun row =>
            row.orgId == orgId && row.logoSha == some sha) then
        db
      else
        { db with
          assets := deleteWhere
            (fun row => row.orgId == orgId && row.sha256 == sha) db.assets }

/-- `blobstore.put` -/
def putAsset (db : Database) (orgId : Nat) (sha : String) : Database :=
  if db.assets.any fun row => row.orgId == orgId && row.sha256 == sha then db
  else
    { db with
      assets := db.assets ++ [⟨db.nextId, orgId, sha⟩]
      nextId := db.nextId + 1 }

/-- Move the logo of an organisation. -/
def setLogoSha (db : Database) (organization : Organization)
    (sha : Option String) : Database :=
  { db with
    organizations :=
      save Organization.id { organization with logoSha := sha }
        db.organizations }

/-- `set_org_logo` -/
def setOrgLogo (caller : Nat) : Except HTTPException Database := do
  let org ← db.currentMembership caller
  requireAdmin org
  match around.logo with
  | .error rejected => throw ⟨422, rejected⟩
  | .ok sha =>
      let organization ← db.organization org.orgId
      let stored := putAsset db org.orgId sha
      let moved := setLogoSha stored organization (some sha)
      if organization.logoSha ≠ some sha then
        (dropUnreferencedLogo moved organization.logoSha org.orgId).execute
      else moved.execute

/-- `clear_org_logo` -/
def clearOrgLogo (caller : Nat) : Except HTTPException Database := do
  let org ← db.currentMembership caller
  requireAdmin org
  let organization ← db.organization org.orgId
  let cleared := setLogoSha db organization none
  (dropUnreferencedLogo cleared organization.logoSha org.orgId).execute

/-- `start_checkout`, up to the call of Stripe: `_stripe_customer` stores the
customer that it creates. -/
def startCheckout (caller : Nat) (plan : String) :
    Except HTTPException Database := do
  let org ← db.currentMembership caller
  requireAdmin org
  if !deployment.billingEnabled then
    throw ⟨503, "payments are not configured on this deployment."⟩
  if !deployment.payments.priceIds.any fun (key, price) =>
      key == plan && price.any (· != "") then
    throw ⟨503, s!"the {plan} plan is not available on this deployment."⟩
  let organization ← db.organization org.orgId
  if (organization.stripeSubscriptionId.any (· != "")) ∧
      organization.planStatus ∈ entitledStatuses then
    throw ⟨409, "this organisation already has a subscription; " ++
      "change the plan in the payment portal."⟩
  if organization.stripeCustomerId.any (· != "") then return db
  match around.customer with
  | none => throw ⟨502, "Stripe refused the request"⟩
  | some customer =>
      Database.execute { db with
        organizations :=
          save Organization.id
            { organization with stripeCustomerId := some customer }
            db.organizations }

end AssessmentPlatform
