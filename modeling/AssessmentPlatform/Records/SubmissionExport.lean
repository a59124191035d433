import AssessmentPlatform.Csv
import AssessmentPlatform.Records.Listings
import AssessmentPlatform.Records.RetentionReach
import AssessmentPlatform.Records.Sample

/-!
# The export of submissions

`GET /submissions/export`: every submission of an organisation as a row of
comma-separated values, in the order of the list.
-/

namespace AssessmentPlatform

open Rows Integrity Refusals

/-! ## The route -/

/-- How Python prints a float and a timestamp. -/
structure Printing where
  floatRepr : Double → String
  isoformat : Time → String

/-- `f"{value:.6f}"` -/
def fixedSix : Double → String
  | .finite value =>
      let units := (Double.roundHalfEven (value * 1000000)).natAbs
      let fraction := toString (units % 1000000)
      (if value < 0 then "-" else "") ++ toString (units / 1000000) ++ "." ++
        String.ofList (List.replicate (6 - fraction.length) '0') ++ fraction
  | .infinite negative => if negative then "-inf" else "inf"
  | .nan => "nan"

/-- The value of a risk level. -/
def riskName : RiskLevel → String
  | .none => "none"
  | .low => "low"
  | .elevated => "elevated"
  | .high => "high"

/-- The first row of the export. -/
def exportHeader : List String :=
  ["submission_id", "question_id", "question_title", "candidate",
    "candidate_email", "language", "status", "verdict", "score_pct", "late",
    "integrity_signals", "integrity_blocked_pastes", "integrity_risk",
    "judge_cost_usd", "created_at"]

namespace Database

variable (printing : Printing) (created : CreatedAt) (db : Database)

/-- `titles.get(question_id, "")` -/
def exportTitle (orgId : Nat) (questionId : String) : String :=
  ((lastOf (db.questions.filter fun question => question.orgId == orgId)
    fun question => question.id == questionId).map Question.title).getD ""

/-- The row of a submission. -/
def exportRow (orgId : Nat) (sub : Submission) : List String :=
  let result := Analytics.resultOf db.results sub.id
  let (signals, blockedPastes, risk) := db.integrityOf sub
  [ sub.id,
    sub.questionId,
    db.exportTitle orgId sub.questionId,
    if sub.isErased then "Erased candidate" else sub.candidate,
    if sub.isErased then "" else sub.candidateEmail.getD "",
    sub.language,
    statusName sub.status,
    (result.map AssessmentResult.verdict).getD "",
    (result.map fun result => printing.floatRepr result.scorePct).getD "",
    if sub.late then "True" else "False",
    (signals.map toString).getD "",
    if signals.isSome then toString blockedPastes else "",
    (risk.map riskName).getD "",
    (sub.judgeCostUsd.map fixedSix).getD "",
    printing.isoformat (created.submission sub.id) ]

/-- The rows that are written. -/
def exportRows (orgId : Nat) : List (List String) :=
  exportHeader ::
    (db.listedSubmissions created orgId).map
      (db.exportRow printing created orgId)

/-- `export_submissions` -/
def exportSubmissions (caller : Nat) : Except HTTPException String := do
  let org ← db.currentMembership caller
  return String.ofList (Csv.write
    ((db.exportRows printing created org.orgId).map (·.map String.toList)))

end Database

/-! ## Reading it back -/

variable {deployment : Deployment} {printing : Printing} {created : CreatedAt}
variable {db : Database} {trace : List Served} {orgId : Nat} {sub : Submission}

/-- A sitting whose integrity signals are counted. -/
def Monitored (db : Database) (sub : Submission) : Prop :=
  sub.candidateEmail.isSome ∧ ∃ inviteId ∈ sub.inviteId, db.monitored inviteId

/-- The cells of the signals, of the blocked pastes and of the risk. -/
def integrityColumns : List Nat := [10, 11, 12]

/-- What a record of the export tells about a submission. -/
structure Exports (db : Database) (orgId : Nat) (sub : Submission)
    (record : List String) : Prop where
  complete : record.length = exportHeader.length
  id : record[0]? = some sub.id
  title : ∃ question ∈ db.questions, question.id = sub.questionId ∧
    question.orgId = orgId ∧ record[2]? = some question.title
  named : sub.isErased = false → record[3]? = some sub.candidate ∧
    record[4]? = some (sub.candidateEmail.getD "")
  anonymous : sub.isErased = true →
    record[3]? = some "Erased candidate" ∧ record[4]? = some ""
  monitored : ∀ column ∈ integrityColumns,
    (record[column]? = some "" ↔ ¬Monitored db sub)

/-- The signals and the risk are told for a monitored sitting, or neither. -/
theorem integrityOf_isSome :
    ((db.integrityOf sub).1.isSome = true ↔ Monitored db sub) ∧
      ((db.integrityOf sub).2.2.isSome = true ↔ Monitored db sub) := by
  unfold Database.integrityOf Monitored
  cases sub.inviteId with
  | none => simp
  | some inviteId =>
      cases sub.candidateEmail with
      | none => simp
      | some email =>
          cases isMonitored : db.monitored inviteId <;> simp [isMonitored]

/-- What a dictionary holds under a key that one row has. -/
theorem lastOf_eq {Row : Type} {rows : List Row} {isKey : Row → Bool}
    {row : Row} (member : row ∈ rows) (hasKey : isKey row = true)
    (only : ∀ other ∈ rows, isKey other = true → other = row) :
    lastOf rows isKey = some row := by
  cases found : lastOf rows isKey with
  | none =>
      have absent := List.filter_eq_nil_iff.mp
        (List.getLast?_eq_none_iff.mp found) row member
      exact absurd hasKey absent
  | some other =>
      obtain ⟨isOther, otherKey⟩ := mem_of_lastOf found
      rw [only other isOther otherKey]

/-- The title of a row is found, among the organisation's own questions. -/
theorem exportTitle_eq (keys : db.UniqueKeys)
    (owned : db.ownsQuestion orgId sub.questionId = true) :
    ∃ question ∈ db.questions, question.id = sub.questionId ∧
      question.orgId = orgId ∧
        db.exportTitle orgId sub.questionId = question.title := by
  simp only [Database.ownsQuestion, List.any_eq_true, Bool.and_eq_true,
    beq_iff_eq] at owned
  obtain ⟨question, isQuestion, isId, inOrg⟩ := owned
  refine ⟨question, isQuestion, isId, inOrg, ?_⟩
  have found : lastOf (db.questions.filter fun other => other.orgId == orgId)
      (fun other => other.id == sub.questionId) = some question := by
    apply lastOf_eq
    · exact List.mem_filter.mpr ⟨isQuestion, by simpa using inOrg⟩
    · simpa using isId
    · intro other isOther otherId
      exact keys.question.eq (List.mem_filter.mp isOther).1 isQuestion
        ((beq_iff_eq.mp otherId).trans isId.symm)
  rw [Database.exportTitle, found]
  rfl

theorem exports_exportRow (keys : db.UniqueKeys)
    (owned : db.ownsQuestion orgId sub.questionId = true) :
    Exports db orgId sub (db.exportRow printing created orgId sub) where
  complete := rfl
  id := rfl
  title := by
    obtain ⟨question, isQuestion, isId, inOrg, isTitle⟩ :=
      exportTitle_eq keys owned
    exact ⟨question, isQuestion, isId, inOrg, congrArg some isTitle⟩
  named isNamed := by simp [Database.exportRow, isNamed]
  anonymous erased := by simp [Database.exportRow, erased]
  monitored := by
    obtain ⟨isSignals, isRisk⟩ := @integrityOf_isSome db sub
    have signals : (((db.integrityOf sub).1.map toString).getD "" = "" ↔
        ¬Monitored db sub) := by
      rw [← isSignals]
      cases (db.integrityOf sub).1 <;> simp
    have pastes : ((if (db.integrityOf sub).1.isSome then
          toString (db.integrityOf sub).2.1 else "") = "" ↔
        ¬Monitored db sub) := by
      rw [← isSignals]
      cases (db.integrityOf sub).1 <;> simp
    have risk : (((db.integrityOf sub).2.2.map riskName).getD "" = "" ↔
        ¬Monitored db sub) := by
      rw [← isRisk]
      cases (db.integrityOf sub).2.2 with
      | none => simp
      | some level => cases level <;> simp [riskName]
    intro column isColumn
    simp only [integrityColumns, List.mem_cons, List.not_mem_nil,
      or_false] at isColumn
    rcases isColumn with rfl | rfl | rfl
    · exact Option.some_inj.trans signals
    · exact Option.some_inj.trans pastes
    · exact Option.some_inj.trans risk

theorem mem_listedSubmissions :
    sub ∈ db.listedSubmissions created orgId ↔
      sub ∈ db.submissions ∧ db.ownsQuestion orgId sub.questionId := by
  rw [Database.listedSubmissions, List.mem_insertionSort, mem_orgSubmissions]

/-- The submissions of a sitting that was erased carry its pseudonym. -/
theorem Run.isErased_submission (run : Run deployment trace db)
    {attempt : CandidateAttempt} (isAttempt : attempt ∈ db.attempts)
    (erased : attempt.erasedAt ≠ none)
    (ofSitting :
      Store.ofSitting attempt.inviteId attempt.candidateEmail sub = true) :
    sub.isErased = true := by
  obtain ⟨drawn, isPseudonym⟩ := run.erasedRenamed attempt isAttempt erased
  rw [Submission.isErased, (ofSitting_iff.mp ofSitting).2, isPseudonym,
    Option.any_some, tombstone]
  exact isErasedAddress_tombstoneOf _

/-- A reader of the export finds the header and one complete record for each
submission of the organisation, newest first, whatever characters the texts
hold; the records of erased sittings name nobody. -/
theorem export_reads_back (run : Run deployment trace db) {caller : Nat}
    {text : String}
    (exported : db.exportSubmissions printing created caller = .ok text) :
    ∃ org, db.currentMembership caller = .ok org ∧
      ∃ listed records,
        listed.Perm (db.orgSubmissions org.orgId) ∧
        (listed.map Submission.id).Nodup ∧
        (listed.map Submission.id).Pairwise (newestFirst created.submission) ∧
        Csv.read text.toList =
          (exportHeader :: records).map (·.map String.toList) ∧
        List.Forall₂ (Exports db org.orgId) listed records ∧
        ∀ attempt ∈ db.attempts, attempt.erasedAt ≠ none → ∀ sub ∈ listed,
          Store.ofSitting attempt.inviteId attempt.candidateEmail sub = true →
            sub.isErased = true := by
  unfold Database.exportSubmissions at exported
  obtain ⟨org, isMember, written⟩ := bind_eq_ok.mp exported
  have keys := run.constraints.uniqueKeys
  have isSorted :
      ((db.listedSubmissions created org.orgId).map Submission.id).Pairwise
        (newestFirst created.submission) := by
    rw [ids_listedSubmissions]
    exact List.pairwise_insertionSort _ _
  have distinct :
      ((db.listedSubmissions created org.orgId).map Submission.id).Nodup := by
    rw [ids_listedSubmissions, (List.perm_insertionSort _ _).nodup_iff]
    exact (List.filter_sublist.map _).nodup keys.submission
  refine ⟨org, isMember, db.listedSubmissions created org.orgId,
    (db.listedSubmissions created org.orgId).map
      (db.exportRow printing created org.orgId),
    List.perm_insertionSort _ _, distinct, isSorted, ?_, ?_, ?_⟩
  · rw [← pure_eq_ok.mp written, String.toList_ofList, Csv.read_write]
    · rfl
    · intro row isRow
      obtain ⟨record, isRecord, rfl⟩ := List.mem_map.mp isRow
      rcases List.mem_cons.mp isRecord with rfl | isRecord
      · simp [exportHeader]
      · obtain ⟨sub, _, rfl⟩ := List.mem_map.mp isRecord
        simp [Database.exportRow]
  · rw [List.forall₂_map_right_iff, List.forall₂_same]
    intro sub isListed
    exact exports_exportRow keys (mem_listedSubmissions.mp isListed).2
  · intro attempt isAttempt erased sub _ ofSitting
    exact run.isErased_submission isAttempt erased ofSitting

theorem ok_of_toBool {Error Value : Type} {answer : Except Error Value}
    (answers : answer.toBool = true) : ∃ value, answer = .ok value := by
  cases answer with
  | ok value => exact ⟨value, rfl⟩
  | error => cases answers

namespace Scenario

/-- The candidate submits under a name that has to be quoted. -/
def submitsQuoted : List Asked :=
  invited ++ [starts, behind "e" 3 'g'
    (.submit ⟨"Cy, \"C\"", "c@x", "py", "code", some "qa", true⟩)]

/-- Numbers and timestamps left out. -/
def bare : Printing := ⟨fun _ => "", fun _ => ""⟩

/-- All at one time. -/
def atOnce : CreatedAt := ⟨fun _ => 0, fun _ => 0⟩

end Scenario

open Scenario in
theorem export_reads_back_quoted :
    ∃ text org listed records,
      (play submitsQuoted).2.exportSubmissions bare atOnce 1 =
          .ok text ∧
        Csv.read text.toList =
          (exportHeader :: records).map (·.map String.toList) ∧
        List.Forall₂ (Exports (play submitsQuoted).2 org) listed records := by
  have answers : ((play submitsQuoted).2.exportSubmissions bare atOnce
      1).toBool = true := by decide +kernel
  obtain ⟨text, isText⟩ := ok_of_toBool answers
  obtain ⟨org, _, listed, records, _, _, _, read, exports, _⟩ :=
    export_reads_back (run_play submitsQuoted) isText
  exact ⟨text, org.orgId, listed, records, isText, read, exports⟩

end AssessmentPlatform
