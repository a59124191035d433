import AssessmentPlatform.Grading.Sample
import AssessmentPlatform.Records.Api

/-!
# A small scenario

One organisation whose admin has two questions and an assessment of them, and
one candidate who is invited to it: the concrete runs beside the general
results are played from here.
-/

namespace AssessmentPlatform

namespace Scenario

/-- The deployment, with the stored form of an address left open. -/
def deploymentWith (lower : String → String) : Deployment where
  auth :=
    { jwtExpireMin := 15
      refreshExpireDays := 7
      strip := id
      lower := lower
      hashpw := fun password _ => password
      checkpw := fun password hash => password == hash
      hashFingerprint := id }
  payments :=
    { webhookSecret := none
      priceIds := []
      asDict := some
      str := fun _ => ""
      isDigit := fun text => text.toList.all Char.isDigit
      int := fun digits =>
        some (digits.toList.foldl
          (fun value digit => 10 * value + (digit.toNat - '0'.toNat)) 0) }
  registrationCode := ""
  billingEnabled := false
  billingEnforced := false
  maxTriggerAttempts := 3
  triggerRetryAfterS := 120
  reapRunningAfterS := 900
  submitGraceSeconds := 15
  privacyPolicyVersion := "v1"
  periodKey := fun _ => ⟨2026, 1⟩
  render := fun _ => ""
  parseFloat := fun _ => none
  engine := Sample.sqlite

/-- The deployment, where addresses are stored as they are sent. -/
def deployment : Deployment := deploymentWith id

/-- What a request finds at an instant; its draws begin with a tag of its
own. -/
def surroundings (now : Time) (tag : Char) : Surroundings where
  now := now
  admitted := true
  breached := false
  salt := ""
  token := fun drawn => String.ofList (tag :: List.replicate drawn 'x')
  suffix := fun drawn attempt =>
    String.ofList
      (tag :: (List.replicate drawn 'x' ++ List.replicate attempt 'y'))
  uuid := fun drawn => String.ofList (tag :: List.replicate drawn 'x')
  choice := fun _ => 0
  mail := fun _ => (true, none)
  logo := .ok "logo"
  customer := none
  agent := fun _ _ => .accepted "job"

/-! ## Scripts -/

/-- A request, with what it finds around it. -/
abbrev Asked := Surroundings × ApiRequest

/-- Serve one more request. -/
def record (played : List Served × Database) (asked : Asked) :
    List Served × Database :=
  (played.1 ++ [⟨asked.1, asked.2, played.2⟩],
    (serve deployment asked.1 played.2 asked.2).1)

/-- The run that serves a script from an empty database. -/
def play (script : List Asked) : List Served × Database :=
  script.foldl record ([], .empty)

theorem run_foldl {trace : List Served} {db : Database}
    (run : Run deployment trace db) (script : List Asked) :
    Run deployment (script.foldl record (trace, db)).1
      (script.foldl record (trace, db)).2 := by
  induction script generalizing trace db with
  | nil => exact run
  | cons asked rest inductionHypothesis =>
      exact inductionHypothesis (.step asked.1 asked.2 run)

theorem run_play (script : List Asked) :
    Run deployment (play script).1 (play script).2 :=
  run_foldl .start script

/-- A request after a script. -/
def servedAfter (script : List Asked) (asked : Asked) : Served :=
  ⟨asked.1, asked.2, (play script).2⟩

theorem mem_foldl {served : Served} {played : List Served × Database}
    (member : served ∈ played.1) (script : List Asked) :
    served ∈ (script.foldl record played).1 := by
  induction script generalizing played with
  | nil => exact member
  | cons asked rest inductionHypothesis =>
      exact inductionHypothesis (List.mem_append_left _ member)

theorem mem_play (first : List Asked) (asked : Asked) (rest : List Asked) :
    servedAfter first asked ∈ (play (first ++ asked :: rest)).1 := by
  rw [play, List.foldl_append]
  exact mem_foldl (List.mem_append_right _ List.mem_cons_self) rest

/-! ## Requests -/

/-- The account 1 registers, and founds the organisation 2. -/
def registers : Asked :=
  (surroundings 0 'a',
    .register ⟨"a@x", "long enough pw", "Ann", none, none⟩)

/-- A request of the account 1. -/
def asks (now : Time) (tag : Char) (request : MemberRequest) : Asked :=
  (surroundings now tag, .member 1 request)

/-- A request behind a token. -/
def behind (token : String) (now : Time) (tag : Char)
    (request : CandidateRequest) : Asked :=
  (surroundings now tag, .candidate token request)

/-- Enough test cases for a question. -/
def testCases : List String :=
  ["correctness", "correctness", "correctness", "correctness", "performance"]

/-- The question with an id. -/
def createsQuestion (tag : Char) (id : String) : Asked :=
  asks 0 tag (.createQuestion ⟨⟨id, none, testCases⟩, some id⟩)

/-- A slot with a fixed question. -/
def fixedSlot (id : String) (named : given (some id) ≠ given none) :
    AssessmentSlotIn :=
  ⟨some id, none, named⟩

theorem fixed_qa : given (some "qa") ≠ given none := by decide

/-- The assessment `ab` of the questions `qa` and `qb`, of half an hour. -/
def assessmentIn : AssessmentIn where
  id := some "ab"
  title := "ab"
  durationMinutes := some 30
  proctored := false
  slots := [fixedSlot "qa" fixed_qa, fixedSlot "qb" (by decide)]
  slots_nonempty := by decide

/-- The assessment is created. -/
def createsAssessment : Asked :=
  asks 0 'd' (.createAssessment assessmentIn)

theorem candidate_invited : ["c@x"] ≠ [] := by decide

/-- The candidate is invited to it, behind the token `e`. -/
def invites : Asked :=
  asks 1 'e' (.createAssessmentInvite "ab" ⟨["c@x"], candidate_invited, none⟩)

/-- The candidate agrees, and starts. -/
def starts : Asked :=
  behind "e" 2 'f' (.start ⟨"c@x", true, some "Cy"⟩)

/-- The candidate submits question `qa`. -/
def submits : Asked :=
  behind "e" 3 'g' (.submit ⟨"Cy", "c@x", "py", "code", some "qa", true⟩)

/-- The organisation with its assessment. -/
def prepared : List Asked :=
  [registers, createsQuestion 'b' "qa", createsQuestion 'c' "qb",
    createsAssessment]

/-- The candidate is invited. -/
def invited : List Asked :=
  prepared ++ [invites]

/-- The candidate has submitted one of the questions. -/
def submitted : List Asked :=
  invited ++ [starts, submits]

end Scenario

end AssessmentPlatform
