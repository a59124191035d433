import AssessmentPlatform.Analytics.AttemptsGrid
import AssessmentPlatform.Browser.PagedList
import AssessmentPlatform.Grading.GradedWork
import AssessmentPlatform.Records.Slices
import Mathlib.Data.List.Sort
import Mathlib.Data.String.Basic

/-!
# The list of submissions

`GET /submissions`: an organisation's submissions, newest first, a page at a
time.  While the organisation stands no submission leaves the list.
-/

namespace AssessmentPlatform

open Rows Integrity

/-! ## The route -/

/-- `SubmissionSummaryOut` -/
structure SubmissionSummaryOut where
  id : String
  questionId : String
  candidate : String
  candidateEmail : Option String
  erased : Bool
  language : String
  status : Status
  agentJobId : Option String
  createdAt : Time
  verdict : Option String
  scorePct : Option Double
  late : Bool
  integritySignals : Option Nat
  integrityBlocked : Nat
  integrityRisk : Option RiskLevel
  assessmentId : Option String
  assessmentTitle : Option String
  deriving DecidableEq, Repr

/-- `ORDER BY created_at DESC, id` -/
def newestFirst (created : String → Time) (first second : String) : Prop :=
  created second < created first ∨
    (created first = created second ∧ first ≤ second)

instance (created : String → Time) :
    DecidableRel (newestFirst created) := fun _ _ =>
  inferInstanceAs (Decidable (_ ∨ _))

namespace Database

variable (created : CreatedAt) (db : Database)

/-- The submissions of the questions of an organisation. -/
def orgSubmissions (orgId : Nat) : List Submission :=
  db.submissions.filter fun sub => db.ownsQuestion orgId sub.questionId

/-- The same, in the order of the list and of the export. -/
def listedSubmissions (orgId : Nat) : List Submission :=
  (db.orgSubmissions orgId).insertionSort fun first second =>
    newestFirst created.submission first.id second.id

/-- `_assessments_by_submission`, at one submission. -/
def assessmentOf (sub : Submission) : Option Assessment := do
  let invite ← fetch Invite.id (← sub.inviteId) db.invites
  fetch Assessment.id (← invite.assessmentId) db.assessments

/-- `_submission_summary` -/
def submissionSummary (sub : Submission) : SubmissionSummaryOut :=
  let result := Analytics.resultOf db.results sub.id
  let assessment := db.assessmentOf sub
  let integrity := db.integrityOf sub
  { id := sub.id
    questionId := sub.questionId
    candidate := sub.candidate
    candidateEmail := sub.candidateEmail
    erased := sub.isErased
    language := sub.language
    status := sub.status
    agentJobId := sub.agentJobId
    createdAt := created.submission sub.id
    verdict := result.map AssessmentResult.verdict
    scorePct := result.map AssessmentResult.scorePct
    late := sub.late
    integritySignals := integrity.1
    integrityBlocked := integrity.2.1
    integrityRisk := integrity.2.2
    assessmentId := assessment.map Assessment.id
    assessmentTitle := assessment.map Assessment.title }

/-- All rows of the list. -/
def submissionRows (orgId : Nat) : List SubmissionSummaryOut :=
  (db.listedSubmissions created orgId).map (db.submissionSummary created)

/-- `list_submissions` -/
def listSubmissions (caller limit offset : Nat) :
    Except HTTPException (PagedList.Page SubmissionSummaryOut) := do
  let org ← db.currentMembership caller
  return PagedList.page (db.submissionRows created org.orgId) limit offset

end Database

/-! ## The order -/

section Order

variable {created : String → Time} {first second third : String}

theorem newestFirst_total : newestFirst created first second ∨
    newestFirst created second first := by
  rcases Int.lt_trichotomy (created first) (created second) with
    isOlder | same | isNewer
  · exact Or.inr (Or.inl isOlder)
  · exact (le_total first second).imp (fun before => Or.inr ⟨same, before⟩)
      fun before => Or.inr ⟨same.symm, before⟩
  · exact Or.inl (Or.inl isNewer)

theorem newestFirst_trans (early : newestFirst created first second)
    (late : newestFirst created second third) :
    newestFirst created first third := by
  rcases early with isNewer | ⟨same, before⟩
  · rcases late with isNewer' | ⟨same', _⟩
    · exact Or.inl (Int.lt_trans isNewer' isNewer)
    · exact Or.inl (same' ▸ isNewer)
  · rcases late with isNewer' | ⟨same', before'⟩
    · exact Or.inl (same ▸ isNewer')
    · exact Or.inr ⟨same.trans same', before.trans before'⟩

theorem newestFirst_antisymm (one : newestFirst created first second)
    (other : newestFirst created second first) : first = second := by
  rcases one with isNewer | ⟨same, before⟩ <;>
    rcases other with isNewer' | ⟨same', before'⟩
  · exact absurd isNewer (Int.not_lt.mpr (Int.le_of_lt isNewer'))
  · rw [same'] at isNewer
    exact absurd isNewer (Int.lt_irrefl _)
  · rw [same] at isNewer'
    exact absurd isNewer' (Int.lt_irrefl _)
  · exact le_antisymm before before'

instance : Std.Total (newestFirst created) := ⟨fun _ _ => newestFirst_total⟩

instance : IsTrans String (newestFirst created) :=
  ⟨fun _ _ _ => newestFirst_trans⟩

instance : Std.Antisymm (newestFirst created) :=
  ⟨fun _ _ => newestFirst_antisymm⟩

end Order

/-! ## What stays on the list -/

variable {deployment : Deployment} {served : Served} {scope : Option Nat}
variable {db after base left : Database} {orgId : Nat} {id : String}

/-- A submission is on the list of an organisation. -/
structure Listed (orgId : Nat) (questionId id : String) (db : Database) :
    Prop where
  submission : (id, questionId) ∈
    db.submissions.map fun sub => (sub.id, sub.questionId)
  question : (questionId, orgId) ∈
    db.questions.map fun question => (question.id, question.orgId)

theorem mem_orgSubmissions {sub : Submission} :
    sub ∈ db.orgSubmissions orgId ↔
      sub ∈ db.submissions ∧ db.ownsQuestion orgId sub.questionId := by
  simp [Database.orgSubmissions]

theorem listed_iff : (∃ questionId, Listed orgId questionId id db) ↔
    id ∈ (db.orgSubmissions orgId).map Submission.id := by
  have owns (questionId : String) :
      (questionId, orgId) ∈ db.questions.map
          (fun question => (question.id, question.orgId)) ↔
        db.ownsQuestion orgId questionId = true := by
    simp [Database.ownsQuestion]
  constructor
  · rintro ⟨questionId, isSub, isQuestion⟩
    obtain ⟨sub, member, same⟩ := List.mem_map.mp isSub
    obtain ⟨rfl, rfl⟩ := Prod.mk.inj same
    exact List.mem_map_of_mem
      (mem_orgSubmissions.mpr ⟨member, (owns _).mp isQuestion⟩)
  · intro isListed
    obtain ⟨sub, member, rfl⟩ := List.mem_map.mp isListed
    obtain ⟨isSub, owned⟩ := mem_orgSubmissions.mp member
    exact ⟨sub.questionId, List.mem_map.mpr ⟨sub, isSub, rfl⟩,
      (owns _).mpr owned⟩

variable {questionId : String}

/-- What another organisation takes with it is not on the list. -/
theorem Listed.purged {purgedId : Nat} (sound : Sound db)
    (listed : Listed orgId questionId id db) (apart : orgId ≠ purgedId) :
    Listed orgId questionId id (db.purged purgedId) where
  submission := by
    have same := (Database.sameSlice_purged sound apart.symm).submissions
    obtain ⟨sub, isSub, isPair⟩ := List.mem_map.mp listed.submission
    obtain ⟨rfl, rfl⟩ := Prod.mk.inj isPair
    obtain ⟨question, isQuestion, isOwner⟩ := List.mem_map.mp listed.question
    obtain ⟨isId, rfl⟩ := Prod.mk.inj isOwner
    have collected : db.collects question.orgId sub = true := by
      rw [Database.collects, ← isId,
        Database.ownsQuestion_of_mem isQuestion rfl, Bool.true_or]
    have kept : sub ∈ (db.purged purgedId).submissions.filter
        (db.collects question.orgId) := by
      rw [same]
      exact List.mem_filter.mpr ⟨isSub, collected⟩
    exact List.mem_map.mpr ⟨sub, (List.mem_filter.mp kept).1, rfl⟩
  question := by
    apply mem_map_deleteWhere listed.question
    intro question _ isOwner isPurged
    exact apart ((Prod.mk.inj isOwner).2 ▸ beq_iff_eq.mp isPurged)

theorem Listed.entered {account : Interviewer} {gaveUp : Option Nat}
    (listed : Listed orgId questionId id db) (sound : Sound db)
    (enters : Enters db account gaveUp base) (stands : base.Stands orgId) :
    Listed orgId questionId id base := by
  cases enters with
  | newcomer => exact ⟨listed.submission, listed.question⟩
  | seatless => exact listed
  | leaving _ _ gaveUp =>
      obtain ⟨rfl, _⟩ := leaveEmptyOrg_eq_ok gaveUp
      exact listed.purged sound (stands_purged.mp stands).2

theorem Listed.leaving {interviewerId : Nat}
    (listed : Listed orgId questionId id db) (sound : Sound db)
    (leaving : Database.Left db interviewerId left)
    (stands : left.Stands orgId) : Listed orgId questionId id left := by
  cases leaving with
  | seatless => exact listed
  | shared => exact ⟨listed.submission, listed.question⟩
  | last => exact listed.purged sound (stands_purged.mp stands).2

/-- A transaction after which an organisation stands leaves its submissions on
the list. -/
theorem Change.listed (change : Change deployment served scope db after)
    (sound : Sound db) (stands : after.Stands orgId)
    (listed : Listed orgId questionId id db) :
    Listed orgId questionId id after := by
  have added {more : List Submission} :
      (id, questionId) ∈ (db.submissions ++ more).map
        fun sub => (sub.id, sub.questionId) := by
    rw [List.map_append]
    exact List.mem_append_left _ listed.submission
  cases change with
  | founded _ enters =>
      cases enters with
      | newcomer => exact ⟨listed.submission, listed.question⟩
      | seatless => exact ⟨listed.submission, listed.question⟩
  | joined enters =>
      have entered := listed.entered sound enters stands
      exact ⟨entered.submission, entered.question⟩
  | accountDeleted deleted =>
      obtain ⟨left, leaving, rfl⟩ := Database.purgeAccount_left deleted
      have remains := listed.leaving sound leaving stands
      exact ⟨remains.submission,
        mem_map_updateWhere (fun _ => rfl) remains.question⟩
  | questionAdded =>
      refine ⟨listed.submission, ?_⟩
      rw [addQuestion, List.map_append]
      exact List.mem_append_left _ listed.question
  | setAdded =>
      refine ⟨listed.submission, ?_⟩
      rw [List.map_append]
      exact List.mem_append_left _ listed.question
  | questionEdited _ _ _ isQuestion =>
      exact ⟨listed.submission,
        mem_map_save sound.constraints.uniqueKeys.question isQuestion rfl rfl
          listed.question⟩
  | questionDeleted _ _ unsubmitted =>
      refine ⟨listed.submission, ?_⟩
      apply mem_map_deleteWhere listed.question
      intro question _ isOwner isDeleted
      obtain ⟨sub, isSub, isPair⟩ := List.mem_map.mp listed.submission
      apply unsubmitted sub isSub
      rw [(Prod.mk.inj isPair).2, ← (Prod.mk.inj isOwner).1]
      exact beq_iff_eq.mp isDeleted
  | submitted => exact ⟨added, listed.question⟩
  | submittedDirectly => exact ⟨added, listed.question⟩
  | regraded _ _ keeps =>
      refine ⟨mem_map_updateWhere ?_ listed.submission, listed.question⟩
      intro sub
      rw [keeps.id, keeps.questionId]
  | erased =>
      exact ⟨mem_map_updateWhere (fun _ => rfl) listed.submission,
        listed.question⟩
  | _ => exact ⟨listed.submission, listed.question⟩

theorem mem_submissionRows {created : CreatedAt} :
    id ∈ (db.submissionRows created orgId).map SubmissionSummaryOut.id ↔
      ∃ sub ∈ db.orgSubmissions orgId, sub.id = id := by
  simp [Database.submissionRows, Database.submissionSummary,
    Database.listedSubmissions]

/-- The ids on the list, in its order. -/
theorem ids_listedSubmissions {created : CreatedAt} (db : Database)
    (orgId : Nat) :
    (db.listedSubmissions created orgId).map Submission.id =
      ((db.orgSubmissions orgId).map Submission.id).insertionSort
        (newestFirst created.submission) := by
  rw [← List.map_insertionSort (fun first second =>
    newestFirst created.submission first.id second.id) _ Submission.id]
  · rfl
  · intro _ _ _ _
    exact Iff.rfl

/-- The list of one state is part of the list of another, row by row, when the
submissions of the first are among those of the other. -/
theorem submissionRows_sublist {created : CreatedAt}
    (keys : db.UniqueKeys)
    (subset : ∀ id ∈ (db.orgSubmissions orgId).map Submission.id,
      id ∈ (after.orgSubmissions orgId).map Submission.id) :
    ((db.submissionRows created orgId).map SubmissionSummaryOut.id).Sublist
      ((after.submissionRows created orgId).map SubmissionSummaryOut.id) := by
  have ids (state : Database) :
      (state.submissionRows created orgId).map SubmissionSummaryOut.id =
        (state.listedSubmissions created orgId).map Submission.id := by
    rw [Database.submissionRows, List.map_map]
    rfl
  rw [ids, ids, ids_listedSubmissions, ids_listedSubmissions]
  refine List.sublist_of_subperm_of_pairwise ?_
    (List.pairwise_insertionSort _ _) (List.pairwise_insertionSort _ _)
  have distinct : ((db.orgSubmissions orgId).map Submission.id).Nodup :=
    (List.filter_sublist.map _).nodup keys.submission
  exact ((List.perm_insertionSort _ _).subperm.trans
    (distinct.subperm subset)).trans
      (List.perm_insertionSort _ _).symm.subperm

end AssessmentPlatform
