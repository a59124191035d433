import AssessmentPlatform.Grading.Requests

/-!
# A small deployment

One organisation with two questions, one assessment of both, and an invite to
each kind of sitting: enough for the concrete runs that stand beside the
general results.
-/

namespace AssessmentPlatform

open Interleaving

namespace Sample

/-- The organisation, on the free plan. -/
def organization : Organization where
  id := 1
  name := "Acme"
  logoSha := none
  plan := "free"
  planStatus := "active"
  stripeCustomerId := none
  stripeSubscriptionId := none
  currentPeriodEnd := none
  retentionDays := none

/-- A question of the organisation. -/
def question (id : String) : Question where
  id := id
  ownerId := none
  orgId := 1
  title := id
  variantSetId := none
  variantLabel := none
  durationMinutes := none

/-- Invite 1 is a quick screen of question `a`; invite 2 is a sitting of the
assessment. -/
def invite (id : Nat) : Option Invite :=
  if id = 1 ∨ id = 2 then
    some
      { id := id
        token := "token"
        questionId := if id = 1 then some "a" else none
        assessmentId := if id = 1 then none else some "ab"
        variantSetId := none
        createdBy := none
        recipients := ["c@x"]
        deliveries := []
        expiresAt := none
        proctored := false
        durationMinutes := none
        status := .active
        createdAt := 0 }
  else
    none

/-- The assessment of questions `a` and `b`. -/
def assessment : Assessment where
  id := "ab"
  ownerId := none
  orgId := 1
  title := "ab"
  durationMinutes := none
  logoSha := none
  proctored := false

/-- One slot of the assessment. -/
def slot (id : Nat) (questionId : String) : AssessmentQuestion where
  id := id
  assessmentId := "ab"
  questionId := some questionId
  variantSetId := none
  position := id

/-- SQLite, the database by default: NaN becomes NULL, and no month takes it. -/
def sqlite : Engine where
  takesText := fun _ => true
  bindOther := fun _ => none
  keepsNumber := fun number => if number = .nan then none else some number
  takesJson := fun _ => true
  takesCost := fun _ cost => cost != .nan

/-- The deployment, with `maxTriggerAttempts` left open. -/
def platform (maxTriggerAttempts : Nat) : Platform where
  maxTriggerAttempts := maxTriggerAttempts
  triggerRetryAfterS := 120
  reapRunningAfterS := 900
  submitGraceSeconds := 15
  billingEnforced := true
  privacyPolicyVersion := "v1"
  organization := fun id => if id = 1 then some organization else none
  question := fun id =>
    if id = "a" ∨ id = "b" then some (question id) else none
  assessment := fun id => if id = "ab" then some assessment else none
  slots := fun id => if id = "ab" then [slot 1 "a", slot 2 "b"] else []
  invite := invite
  invite_id := by
    intro id row found
    unfold invite at found
    split at found
    · cases found
      rfl
    · cases found
  slotQuestion := fun _ _ slot => slot.questionId.getD ""
  periodKey := fun _ => ⟨2026, 1⟩
  render := fun _ => ""
  parseFloat := fun _ => none
  engine := sqlite

/-- A direct submission of question `a`. -/
def direct : Request :=
  .createSubmission ⟨"a", "Ada", "py", "x", "s"⟩

theorem candidate_addressed : "c@x" ≠ "" := by decide

/-- A candidate's submission of question `a`. -/
def candidate : Request :=
  .candidateSubmit
    { inviteId := 1
      email := "c@x"
      email_nonempty := candidate_addressed
      questionId := "a"
      candidateName := "Cy"
      consent := true
      language := "py"
      code := "x"
      submissionId := "s"
      attemptId := 1 }

/-- The agent's verdict on submission `s`. -/
def verdict (value : String) : Payload :=
  [("job_id", .str "s"), ("verdict", .str value)]

/-- Whether submission `s` has a status. -/
def statusIs (store : Store) (status : Status) : Bool :=
  (store.submissions.row "s").map Submission.status == some status

/-- Whether submission `s` counts that many attempts. -/
def attemptsAre (store : Store) (attempts : Nat) : Bool :=
  (store.submissions.row "s").map Submission.attempts == some attempts

/-- Let one thread take a number of steps; the agent accepts every job under
the submission's own id. -/
def steps (tid count : Nat) : List (Nat × AgentAnswer) :=
  List.replicate count (tid, .accepted "s")

end Sample

end AssessmentPlatform
