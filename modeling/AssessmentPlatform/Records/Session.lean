import AssessmentPlatform.Accounts.Sessions
import AssessmentPlatform.Grading.Billing
import AssessmentPlatform.Payments.Webhook
import AssessmentPlatform.Records.Database

/-!
# Deployments, and what a request finds around it

A request is executed as one step at one instant.  Whatever it draws at random
or asks of the world outside is part of its surroundings.
-/

namespace AssessmentPlatform

open Rows

/-- The configuration of a deployment, and the library functions it uses. -/
structure Deployment where
  auth : Accounts.AuthSettings
  payments : Payments.Settings
  /-- `config.REGISTRATION_CODE` -/
  registrationCode : String
  /-- `config.billing_enabled` -/
  billingEnabled : Bool
  /-- `config.BILLING_ENFORCED` -/
  billingEnforced : Bool
  /-- `config.MAX_TRIGGER_ATTEMPTS` -/
  maxTriggerAttempts : Nat
  /-- `config.TRIGGER_RETRY_AFTER_S` -/
  triggerRetryAfterS : Int
  /-- `config.REAP_RUNNING_AFTER_S` -/
  reapRunningAfterS : Int
  /-- `config.SUBMIT_GRACE_SECONDS` -/
  submitGraceSeconds : Int
  /-- `config.PRIVACY_POLICY_VERSION` -/
  privacyPolicyVersion : String
  /-- The calendar: the month a moment falls in. -/
  periodKey : Time → Period
  /-- Python's `str` of a JSON value that is not a string. -/
  render : Json → String
  /-- Python's `float` of a string, when it parses. -/
  parseFloat : String → Option Double
  /-- The database and its driver, where the agent's values meet them. -/
  engine : Engine

/-- What a request finds around it: the clock, the limiter and bcrypt's salt,
the random draws, and the answers of the mailer, of Stripe, of the image
library and of the agent. -/
structure Surroundings extends Accounts.Surroundings where
  /-- `secrets.token_urlsafe(32)`, by the order of the calls. -/
  token : Nat → String
  /-- `secrets.token_hex(3)`, by the identifier drawn and the attempt. -/
  suffix : Nat → Nat → String
  /-- `uuid.uuid4().hex`, by the order of the calls. -/
  uuid : Nat → String
  /-- `secrets.choice`, by the order of the calls. -/
  choice : Nat → Nat
  /-- Whether an address can be mailed, and the error. -/
  mail : String → Bool × Option String
  /-- `images.normalize_logo`: the digest of the image. -/
  logo : Except String String
  /-- `stripe_client.create_customer` -/
  customer : Option String
  /-- How the agent answers the trigger call for a claim of a submission. -/
  agent : String → Nat → AgentAnswer

namespace Database

variable (db : Database)

/-- `get_current_interviewer`, for a token that names the account. -/
def currentInterviewer (caller : Nat) : Except HTTPException Interviewer :=
  match fetch Interviewer.id caller db.interviewers with
  | none => throw ⟨401, "invalid or expired token."⟩
  | some current => return current

/-- `membership_for` -/
def membershipFor (interviewerId : Nat) : Option Membership :=
  fetch Membership.interviewerId interviewerId db.memberships

/-- `get_current_membership` -/
def currentMembership (caller : Nat) : Except HTTPException Membership := do
  let current ← db.currentInterviewer caller
  match db.membershipFor current.id with
  | none => throw ⟨403, "account belongs to no organisation."⟩
  | some membership => return membership

/-- `_organization` -/
def organization (orgId : Nat) : Except HTTPException Organization :=
  match fetch Organization.id orgId db.organizations with
  | none => throw ⟨500, "organisation row is missing."⟩
  | some row => return row

/-- `_member_count` -/
def memberCount (orgId : Nat) : Nat :=
  (db.memberships.filter fun row => row.orgId == orgId).length

/-- `_admin_count` -/
def adminCount (orgId : Nat) : Nat :=
  (db.memberships.filter fun row =>
    row.orgId == orgId && row.role == .admin).length

/-- A member of an organisation. -/
def memberOf (orgId interviewerId : Nat) : Option Membership :=
  db.memberships.find? fun row =>
    row.orgId == orgId && row.interviewerId == interviewerId

section Reads

variable {db} {caller orgId interviewerId : Nat} {current : Interviewer}
variable {org membership : Membership} {row : Organization}

theorem currentInterviewer_eq_ok :
    db.currentInterviewer caller = .ok current ↔
      fetch Interviewer.id caller db.interviewers = some current := by
  unfold currentInterviewer
  cases fetch Interviewer.id caller db.interviewers <;> simp

theorem currentMembership_eq_ok :
    db.currentMembership caller = .ok org ↔
      (fetch Interviewer.id caller db.interviewers).isSome ∧
        db.membershipFor caller = some org := by
  simp only [currentMembership, Refusals.bind_eq_ok, currentInterviewer_eq_ok]
  constructor
  · rintro ⟨current, found, isMember⟩
    rw [key_of_fetch found] at isMember
    cases seat : db.membershipFor caller with
    | none => simp [seat] at isMember
    | some membership => simpa [seat, found] using isMember
  · rintro ⟨found, isMember⟩
    obtain ⟨current, found⟩ := Option.isSome_iff_exists.mp found
    exact ⟨current, found, by simp [key_of_fetch found, isMember]⟩

theorem organization_eq_ok :
    db.organization orgId = .ok row ↔
      fetch Organization.id orgId db.organizations = some row := by
  unfold organization
  cases fetch Organization.id orgId db.organizations <;> simp

theorem mem_of_membershipFor
    (found : db.membershipFor interviewerId = some membership) :
    membership ∈ db.memberships :=
  mem_of_fetch found

theorem interviewerId_of_membershipFor
    (found : db.membershipFor interviewerId = some membership) :
    membership.interviewerId = interviewerId :=
  key_of_fetch found

theorem memberOf_eq_some
    (found : db.memberOf orgId interviewerId = some membership) :
    membership ∈ db.memberships ∧ membership.orgId = orgId ∧
      membership.interviewerId = interviewerId := by
  have matched := List.find?_some found
  simp only [Bool.and_eq_true, beq_iff_eq] at matched
  exact ⟨List.mem_of_find?_eq_some found, matched⟩

end Reads

/-- `billing.usage`: the month's row, or a transient one. -/
def usageRow (orgId : Nat) (period : Period) : OrgUsage :=
  let find (wanted : Period) : Option OrgUsage :=
    fetch (fun row => (row.orgId, row.period)) (orgId, wanted) db.usage
  (find period).getD
    (freshUsage orgId period (carriedOf (find (previousPeriod period))))

end Database

/-- `_require_admin` -/
def requireAdmin (org : Membership) : Except HTTPException Unit :=
  if org.role ≠ .admin then
    throw ⟨403, "only an organisation admin can manage the team."⟩
  else return ()

/-- `Plan.label` -/
def planLabel (plan : Plan) : String :=
  match plan.key with
  | "starter" => "Starter"
  | "growth" => "Growth"
  | _ => "Free"

/-- `quota_error`, for the plan's own limit of a noun. -/
def quotaError (org : Organization) (published limit : Int)
    (noun period : String) : HTTPException :=
  let label := planLabel (planFor org)
  let usedUp :=
    if limit < published then
      s!"the {label} plan allows {published} {noun} a month, and " ++
        s!"{published - limit} carried over from last month, so this " ++
        s!"month's limit of {limit} is used up. "
    else s!"the {label} plan's limit of {limit} {noun}{period} is used up. "
  ⟨402, usedUp ++ "Upgrade the plan in Settings → Billing to continue."⟩

/-- `_last_admin_guard` -/
def lastAdminGuard (db : Database) (orgId interviewerId : Nat) :
    Except HTTPException Unit :=
  match db.memberOf orgId interviewerId with
  | none => return ()
  | some target =>
      if target.role = .admin ∧ db.adminCount orgId ≤ 1 then
        throw ⟨409, "this is the organisation's only admin; promote someone " ++
          "else first."⟩
      else return ()

theorem lastAdminGuard_eq_ok {db : Database} {orgId interviewerId : Nat} :
    lastAdminGuard db orgId interviewerId = .ok () ↔
      ∀ target ∈ db.memberOf orgId interviewerId,
        target.role = .admin → 1 < db.adminCount orgId := by
  unfold lastAdminGuard
  cases db.memberOf orgId interviewerId with
  | none => simp
  | some target =>
      by_cases isLast : target.role = .admin ∧ db.adminCount orgId ≤ 1
      · simp [isLast]
      · simp only [isLast, if_false, Refusals.pure_eq_ok, Option.mem_def,
          Option.some.injEq, forall_eq', true_iff]
        intro isAdmin
        exact Nat.lt_of_not_le fun few => isLast ⟨isAdmin, few⟩

/-! ## Identifiers -/

/-- Whether a character stays in a slug. -/
def slugChar (char : Char) : Bool :=
  ('a' ≤ char && char ≤ 'z') || ('0' ≤ char && char ≤ '9')

/-- `re.sub(r"[^a-z0-9]+", "-", …).strip("-")`: the runs of slug characters,
joined by hyphens. -/
def hyphenate (text : List Char) : List Char :=
  List.intercalate ['-']
    ((text.splitOnP fun char => !slugChar char).filter (· ≠ []))

/-- `_slugify` -/
def slugify (settings : Accounts.AuthSettings) (text : String) : String :=
  let slug := (hyphenate (settings.lower text).toList).take 48
  if slug = [] then "item" else String.ofList slug

/-- `_generate_id`: a slug and a short random suffix, retried until unused. -/
def generateId (settings : Accounts.AuthSettings) (around : Surroundings)
    (title : String) (drawn : Nat) (exists' : String → Bool) : String :=
  let base := slugify settings title
  let candidates :=
    (List.range 6).map fun attempt =>
      base ++ "-" ++ around.suffix drawn attempt
  (candidates.find? fun candidate => !exists' candidate).getD
    (base ++ "-" ++ String.ofList ((around.uuid drawn).toList.take 8))

end AssessmentPlatform
