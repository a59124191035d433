import AssessmentPlatform.Json

/-!
# The platform's tables

One structure per table, with the columns that the modelled functions read or
write.  Timestamps are integers in microseconds; a column that is a foreign key
keeps the type of the key it refers to.
-/

namespace AssessmentPlatform

/-- A point in time, in microseconds. -/
abbrev Time := Int

/-! ## Organisations and accounts -/

/-- A row of `organization`, the tenant. -/
structure Organization where
  id : Nat
  name : String
  logoSha : Option String
  plan : String
  planStatus : String
  stripeCustomerId : Option String
  stripeSubscriptionId : Option String
  currentPeriodEnd : Option Time
  retentionDays : Option Int
  deriving DecidableEq, Repr

/-- A UTC calendar month. -/
structure Period where
  year : Nat
  month : Nat
  deriving DecidableEq, Repr

/-- A row of `orgusage`: one organisation's metered usage of one month. -/
structure OrgUsage where
  orgId : Nat
  period : Period
  sittings : Int
  drafts : Int
  sittingsOver : Int
  draftsOver : Int
  sittingsCarried : Int
  draftsCarried : Int
  judgeCostUsd : Double
  draftCostUsd : Double
  deriving DecidableEq, Repr

/-- A row of `orgasset`: a logo, addressed by the digest of its content. -/
structure OrgAsset where
  id : Nat
  orgId : Nat
  sha256 : String
  deriving DecidableEq, Repr

/-- A row of `interviewer`, the login. -/
structure Interviewer where
  id : Nat
  email : String
  passwordHash : String
  name : String
  tokenVersion : Nat
  emailVerifiedAt : Option Time
  deriving DecidableEq, Repr

/-- `Membership.role`. -/
inductive Role where
  | admin
  | member
  deriving DecidableEq, Repr

/-- A row of `membership`. -/
structure Membership where
  id : Nat
  orgId : Nat
  interviewerId : Nat
  role : Role
  invitedBy : Option Nat
  deriving DecidableEq, Repr

/-- A row of `orginvite`: an invitation to join an organisation. -/
structure OrgInvite where
  id : Nat
  orgId : Nat
  token : String
  email : String
  role : Role
  invitedBy : Option Nat
  expiresAt : Option Time
  acceptedAt : Option Time
  deriving DecidableEq, Repr

/-! ## The question library -/

/-- A row of `variantset`. -/
structure VariantSet where
  id : String
  ownerId : Option Nat
  orgId : Nat
  title : String
  deriving DecidableEq, Repr

/-- A row of `question`. -/
structure Question where
  id : String
  ownerId : Option Nat
  orgId : Nat
  title : String
  variantSetId : Option String
  variantLabel : Option String
  durationMinutes : Option Int
  deriving DecidableEq, Repr

/-- A row of `questiontestcase`. -/
structure QuestionTestCase where
  id : Nat
  questionId : String
  deriving DecidableEq, Repr

/-- A row of `assessment`. -/
structure Assessment where
  id : String
  ownerId : Option Nat
  orgId : Nat
  title : String
  durationMinutes : Option Int
  logoSha : Option String
  proctored : Bool
  deriving DecidableEq, Repr

/-- A row of `assessmentquestion`: one slot, either a fixed question or a
variant set. -/
structure AssessmentQuestion where
  id : Nat
  assessmentId : String
  questionId : Option String
  variantSetId : Option String
  position : Nat
  deriving DecidableEq, Repr

/-! ## Invites and sittings -/

/-- One entry of `Invite.deliveries`. -/
structure InviteDelivery where
  recipient : String
  sent : Bool
  error : Option String
  deriving DecidableEq, Repr

/-- `Invite.status`. -/
inductive InviteStatus where
  | active
  | revoked
  deriving DecidableEq, Repr

/-- A row of `invite`. -/
structure Invite where
  id : Nat
  token : String
  questionId : Option String
  assessmentId : Option String
  variantSetId : Option String
  createdBy : Option Nat
  recipients : List String
  deliveries : List InviteDelivery
  expiresAt : Option Time
  proctored : Bool
  durationMinutes : Option Int
  status : InviteStatus
  createdAt : Time
  deriving DecidableEq, Repr

/-- A row of `candidateattempt`: one candidate's sitting on one invite. -/
structure CandidateAttempt where
  id : Nat
  inviteId : Nat
  candidateEmail : String
  candidateName : Option String
  startedAt : Time
  consentAt : Option Time
  consentVersion : Option String
  resultsNotifiedAt : Option Time
  erasedAt : Option Time
  updatedAt : Time
  deriving DecidableEq, Repr

/-- A row of `candidateslotvariant`: the variant drawn for a candidate's slot. -/
structure CandidateSlotVariant where
  id : Nat
  inviteId : Nat
  candidateEmail : String
  assessmentQuestionId : Nat
  questionId : String
  deriving DecidableEq, Repr

/-- A row of `integrityevent`. -/
structure IntegrityEvent where
  id : Nat
  inviteId : Nat
  candidateEmail : String
  questionId : Option String
  kind : String
  offsetMs : Int
  durationMs : Option Int
  size : Option Int
  blocked : Bool
  deriving DecidableEq, Repr

/-- A row of `candidatedraft`. -/
structure CandidateDraft where
  id : Nat
  inviteId : Nat
  candidateEmail : String
  questionId : String
  code : String
  language : String
  updatedAt : Time
  deriving DecidableEq, Repr

/-- A row of `candidatefeedback`. -/
structure CandidateFeedback where
  id : Nat
  orgId : Nat
  attemptId : Nat
  rating : Nat
  difficultyFair : String
  comment : String
  deriving DecidableEq, Repr

/-! ## Submissions and results -/

/-- `Submission.status`. -/
inductive Status where
  | pending
  | running
  | done
  | error
  deriving DecidableEq, Repr

/-- `notify.TERMINAL`: the agent is finished with the submission. -/
def Status.terminal : Status → Bool
  | .done | .error => true
  | .pending | .running => false

/-- A row of `submission`. -/
structure Submission where
  id : String
  questionId : String
  inviteId : Option Nat
  candidate : String
  candidateEmail : Option String
  language : String
  code : String
  status : Status
  late : Bool
  agentJobId : Option String
  attempts : Nat
  errorReason : Option String
  judgeCostUsd : Option Double
  updatedAt : Time
  deriving DecidableEq, Repr

/-- A row of `assessmentresult`. -/
structure AssessmentResult where
  submissionId : String
  verdict : String
  scorePct : Double
  reason : String
  fullResult : Json
  deriving DecidableEq, Repr

/-! ## Rate limits -/

/-- The primary key of `ratelimitcounter`. -/
structure CounterKey where
  bucket : String
  client : String
  windowStart : Int
  deriving DecidableEq, Repr

/-- A row of `ratelimitcounter`: the hits of one client on one bucket within
one window. -/
structure RateLimitCounter where
  key : CounterKey
  count : Int
  deriving DecidableEq, Repr

end AssessmentPlatform
