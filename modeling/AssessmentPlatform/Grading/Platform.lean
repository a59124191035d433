import AssessmentPlatform.Models
import Mathlib.Algebra.Group.Nat.Defs

/-!
# What a run of the grading machinery takes as fixed

Settings, and the rows that no request of this part of the platform writes: the
questions, the assessments with their slots, the invites and the organisations.
-/

namespace AssessmentPlatform

/-- Microseconds in a second. -/
def second : Time := 1000000

/-- Whether a `datetime` can hold an instant: those of the years 1 to 9999. -/
def representable (instant : Time) : Bool :=
  -62135596800 * second ≤ instant && instant < 253402300800 * second

/-- What the database and its driver make of the values that Python hands
them.  A string with a lone surrogate is refused by all of them. -/
structure Engine where
  /-- Whether a text can be bound; PostgreSQL refuses one with a NUL. -/
  takesText : String → Bool
  /-- The text that another value is bound as, unless that raises. -/
  bindOther : Json → Option String
  /-- What a column keeps of a number: `none` for NULL, which SQLite stores for
  NaN. -/
  keepsNumber : Double → Option Double
  /-- Whether a column takes a JSON value; PostgreSQL refuses NaN. -/
  takesJson : Json → Bool
  /-- Whether the month of an organisation takes a further cost: whether the
  total that it adds up to can be stored. -/
  takesCost : Nat → Double → Bool

/-- The text that a JSON value is bound as, unless that raises. -/
def Engine.bindText (engine : Engine) : Json → Option String
  | .str (.text value) => if engine.takesText value then some value else none
  | .str (.broken _) => none
  | other => engine.bindOther other

/-- One deployment of the platform. -/
structure Platform where
  /-- `config.MAX_TRIGGER_ATTEMPTS` -/
  maxTriggerAttempts : Nat
  /-- `config.TRIGGER_RETRY_AFTER_S` -/
  triggerRetryAfterS : Int
  /-- `config.REAP_RUNNING_AFTER_S` -/
  reapRunningAfterS : Int
  /-- `config.SUBMIT_GRACE_SECONDS` -/
  submitGraceSeconds : Int
  /-- `config.BILLING_ENFORCED` -/
  billingEnforced : Bool
  /-- `config.PRIVACY_POLICY_VERSION` -/
  privacyPolicyVersion : String
  organization : Nat → Option Organization
  question : String → Option Question
  assessment : String → Option Assessment
  /-- `Assessment.questions`, in order. -/
  slots : String → List AssessmentQuestion
  invite : Nat → Option Invite
  /-- Invites are looked up by primary key. -/
  invite_id : ∀ {id row}, invite id = some row → row.id = id
  /-- The question a slot presents to one candidate of one invite; the draw of
  a variant-set slot is frozen (`CandidateSlotVariant`). -/
  slotQuestion : Nat → String → AssessmentQuestion → String
  /-- The calendar: the month a moment falls in. -/
  periodKey : Time → Period
  /-- Python's `str` of a JSON value that is not a string. -/
  render : Json → String
  /-- Python's `float` of a string, when it parses. -/
  parseFloat : String → Option Double
  engine : Engine

namespace Platform

/-- `support.invite_org`: the organisation behind an invite. -/
def inviteOrg (platform : Platform) (invite : Invite) : Option Nat :=
  let viaAssessment :=
    (invite.assessmentId.bind platform.assessment).map Assessment.orgId
  let viaQuestion :=
    (invite.questionId.bind platform.question).map Question.orgId
  viaAssessment.or viaQuestion

/-- `_invite_questions`: the questions an invite presents to one candidate. -/
def inviteQuestions
    (platform : Platform) (invite : Invite) (email : String) : List String :=
  match invite.assessmentId with
  | some assessmentId =>
      (platform.slots assessmentId).map
        (platform.slotQuestion invite.id email)
  | none => invite.questionId.toList

/-- `notify._slot_count`: how many terminal submissions complete a sitting. -/
def slotCount (platform : Platform) (invite : Invite) : Nat :=
  match invite.assessmentId with
  | none => 1
  | some assessmentId =>
      if (platform.slots assessmentId).length = 0 then 1
      else (platform.slots assessmentId).length

/-- Python's `str`. -/
def str (platform : Platform) : Json → PyStr
  | .str value => value
  | other => platform.render other

/-- Whether Python's `float` takes an integer: a larger one rounds to no finite
double, and raises OverflowError. -/
def fitsDouble (value : Int) : Bool :=
  value.natAbs < 2 ^ 1024 - 2 ^ 970

/-- Python's `float`: `none` where it raises. -/
def float (platform : Platform) : Json → Option Double
  | .int value => if fitsDouble value then some (.ofInt value) else none
  | .float value => some value
  | .bool value => some (.finite (if value then 1 else 0))
  | .str (.text value) => platform.parseFloat value
  | .null | .str (.broken _) | .arr _ | .obj _ => none

theorem slotCount_pos (platform : Platform) (invite : Invite) :
    0 < platform.slotCount invite := by
  unfold slotCount
  cases invite.assessmentId with
  | none => exact Nat.one_pos
  | some assessmentId =>
      dsimp only
      split
      · exact Nat.one_pos
      · next slots => exact Nat.pos_of_ne_zero slots

/-- A candidate has at most as many questions to submit as the sitting has
slots. -/
theorem length_inviteQuestions_le
    (platform : Platform) (invite : Invite) (email : String) :
    (platform.inviteQuestions invite email).length ≤
      platform.slotCount invite := by
  unfold inviteQuestions slotCount
  cases invite.assessmentId with
  | none =>
      cases invite.questionId <;> simp
  | some assessmentId =>
      by_cases noSlots : (platform.slots assessmentId).length = 0
      · simp [noSlots]
      · simp [noSlots]

end Platform

end AssessmentPlatform
