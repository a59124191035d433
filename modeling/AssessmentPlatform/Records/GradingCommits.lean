import AssessmentPlatform.Grading.Statements
import AssessmentPlatform.Records.LibraryCommits

/-!
# What the grading machinery commits

The programs of submissions, triggers, callbacks and metering run alone.  Most
of them only move the bookkeeping of rows that exist; what a member's retry
touches belongs to the member's organisation.
-/

namespace AssessmentPlatform

open Interleaving Interleaving.Program Rows

variable {deployment : Deployment} {served : Served} {scope : Option Nat}
variable {platform : Platform} {db after : Database} {id : String}
variable {orgId : Nat}

/-! ## Kinds of statements -/

namespace Op

/-- Statements that insert no row of a sitting and erase nothing. -/
def grading : Op → Prop
  | .insertSubmission _ | .insertAttempt _ | .saveAttemptName ..
  | .eraseResults _ | .eraseSubmissions .. | .eraseAttempts .. => False
  | _ => True

/-- Statements that leave every row as it is. -/
def reads : Op → Prop
  | .load _ | .refresh _ | .selectGraded .. | .selectGradedResult _
  | .selectAttempt .. | .commit | .rollback | .now | .trigger ..
  | .deliver _ => True
  | _ => False

theorem judging.grading {op : Op} (judging : op.judging) : op.grading := by
  cases op <;> trivial

theorem recording.grading {op : Op} (recording : op.recording) :
    op.grading := by
  cases op <;> first | trivial | exact recording.elim False.elim False.elim

end Op

/-! ## What the grading machinery leaves alone -/

/-- Nothing but the rows of the grading machinery lies between two states. -/
def GradingOnly (db after : Database) : Prop :=
  after =
    { db with
      usage := after.usage
      attempts := after.attempts
      submissions := after.submissions
      results := after.results
      nextId := after.nextId }

theorem GradingOnly.refl (db : Database) : GradingOnly db db :=
  rfl

theorem GradingOnly.trans {first middle last : Database}
    (before : GradingOnly first middle) (rest : GradingOnly middle last) :
    GradingOnly first last := by
  unfold GradingOnly at rest
  rw [before] at rest
  exact rest

theorem GradingOnly.platform_eq (only : GradingOnly db after) :
    after.platform deployment = db.platform deployment := by
  rw [only]
  rfl

theorem gradingOnly_settle (only : GradingOnly db after) :
    GradingOnly db (db.settle after) := by
  unfold Database.settle
  split
  · exact only
  · exact .refl db

theorem gradingOnly_inserts (only : GradingOnly db after) :
    GradingOnly db (db.inserts after).2 := by
  unfold Database.inserts
  split
  · exact only
  · exact .refl db

theorem perform_gradingOnly (op : Op) (db : Database) :
    GradingOnly db (Database.perform deployment served.around op db).2 := by
  cases op with
  | saveSubmission loaded new =>
      simp only [Database.perform]
      split
      · exact .refl db
      · exact gradingOnly_settle rfl
  | _ =>
      first
        | exact .refl db
        | exact gradingOnly_settle rfl
        | exact gradingOnly_inserts rfl

theorem run_gradingOnly {α : Type} (program : Prog α) (db : Database) :
    GradingOnly db (runProgram deployment served.around program db).2 := by
  unfold runProgram
  induction program generalizing db with
  | ret value => exact .refl db
  | perform op next inductionHypothesis =>
      exact (perform_gradingOnly op db).trans (inductionHypothesis _ _)

/-- Metering changes the usage only. -/
def UsageOnly (db after : Database) : Prop :=
  after = { db with usage := after.usage }

theorem UsageOnly.trans {first middle last : Database}
    (before : UsageOnly first middle) (rest : UsageOnly middle last) :
    UsageOnly first last := by
  unfold UsageOnly at rest
  rw [before] at rest
  exact rest

theorem usageOnly_settle (only : UsageOnly db after) :
    UsageOnly db (db.settle after) := by
  unfold Database.settle
  split
  · exact only
  · exact rfl

theorem usageOnly_inserts (only : UsageOnly db after) :
    UsageOnly db (db.inserts after).2 := by
  unfold Database.inserts
  split
  · exact only
  · exact rfl

theorem perform_usageOnly {op : Op} (metering : op.metering)
    (db : Database) :
    UsageOnly db (Database.perform deployment served.around op db).2 := by
  cases op with
  | selectUsage => exact rfl
  | insertUsage => exact usageOnly_inserts rfl
  | claimUsage => exact usageOnly_settle rfl
  | bumpUsage => exact usageOnly_settle rfl
  | saveUsage => exact usageOnly_settle rfl
  | commit => exact rfl
  | rollback => exact rfl
  | now => exact rfl
  | _ => exact metering.elim

theorem run_usageOnly {α : Type} {program : Prog α}
    (all : program.All Op.metering) (db : Database) :
    UsageOnly db (runProgram deployment served.around program db).2 := by
  have keeps : Program.Triple (Database.perform deployment served.around)
      (UsageOnly db) program fun _ => UsageOnly db := by
    apply all.triple
    intro op metering state only
    exact only.trans (perform_usageOnly metering state)
  exact keeps db rfl

/-! ## Single statements -/

theorem commits_settle (change : Change deployment served scope db after) :
    Commits deployment served scope db (db.settle after) := by
  unfold Database.settle
  split
  · next constraints => exact Commits.one change constraints
  · exact .refl

theorem commits_inserts (change : Change deployment served scope db after) :
    Commits deployment served scope db (db.inserts after).2 := by
  unfold Database.inserts
  split
  · next constraints => exact Commits.one change constraints
  · exact .refl

theorem keepsSubmission_apply (values : SubmissionChange) (now : Time) :
    KeepsSubmission (values.apply now) := by
  constructor <;> intro row <;> rfl

theorem keepsSubmission_flush (loaded new : Submission) (now : Time) :
    KeepsSubmission (Submission.flush loaded new now) := by
  constructor <;> intro row <;> rfl

theorem keepsAttempt_stamp (stamp : Option Time) (now : Time) :
    KeepsAttempt fun row =>
      { row with resultsNotifiedAt := stamp, updatedAt := now } := by
  constructor <;> intro row <;> rfl

theorem commits_updateUsage {period : Period} {change : OrgUsage → OrgUsage}
    (mine : ∀ owner ∈ scope, orgId = owner)
    (kept : ∀ row, (change row).orgId = row.orgId) :
    Commits deployment served scope db
      (db.updateUsage orgId period change) := by
  apply commits_settle
  apply Change.metered
  intro owner isScope
  obtain rfl := mine owner isScope
  apply filter_updateWhere
  intro row _ isMonth
  have mine : row.orgId = orgId := by
    simp only [beq_iff_eq, Prod.mk.injEq] at isMonth
    exact isMonth.1
  simp [kept, mine]

theorem OrgUsage.setUsed_orgId (row : OrgUsage) (value : Int)
    (metric : Metric) : (row.setUsed value metric).orgId = row.orgId := by
  cases metric <;> rfl

theorem perform_meteringOf {op : Op} (metering : op.meteringOf orgId)
    (mine : ∀ owner ∈ scope, orgId = owner) (db : Database) :
    Commits deployment served scope db
      (Database.perform deployment served.around op db).2 := by
  cases op with
  | insertUsage row =>
      apply commits_inserts
      apply Change.metered
      intro owner isScope
      obtain rfl := mine owner isScope
      simp [List.filter_append, show row.orgId = orgId from metering]
  | claimUsage owner period metric amount limit =>
      obtain rfl : owner = orgId := metering
      apply commits_updateUsage mine
      intro row
      split
      · exact row.setUsed_orgId _ _
      · rfl
  | bumpUsage owner period delta =>
      obtain rfl : owner = orgId := metering
      exact commits_updateUsage mine fun _ => rfl
  | saveUsage owner period metric loaded new =>
      obtain rfl : owner = orgId := metering
      exact commits_updateUsage mine fun row => row.setUsed_orgId _ _
  | selectUsage => exact .refl
  | commit => exact .refl
  | rollback => exact .refl
  | now => exact .refl
  | _ => exact metering.elim

/-- On behalf of nobody in particular, every statement is a change. -/
theorem perform_grading {op : Op} (grading : op.grading) (db : Database) :
    Commits deployment served none db
      (Database.perform deployment served.around op db).2 := by
  cases op with
  | casSubmission id expectStatus expectAttempts values =>
      apply commits_settle
      exact .regraded _ _ (keepsSubmission_apply values _) (by simp)
  | saveSubmission loaded new =>
      simp only [Database.perform]
      split
      · exact .refl
      · apply commits_settle
        exact .regraded _ _ (keepsSubmission_flush loaded new _) (by simp)
  | insertResult row => exact commits_inserts (.resultStored _)
  | saveResult loaded new => exact commits_settle (.resultStored _)
  | stampAttempt id =>
      apply commits_settle
      exact .stamped _ _ (keepsAttempt_stamp _ _) (by simp)
  | clearStamp inviteId email =>
      apply commits_settle
      exact .stamped _ _ (keepsAttempt_stamp _ _) (by simp)
  | insertUsage row => exact commits_inserts (.metered _ (by simp))
  | claimUsage owner period metric amount limit =>
      exact commits_settle (.metered _ (by simp))
  | bumpUsage owner period delta =>
      exact commits_settle (.metered _ (by simp))
  | saveUsage owner period metric loaded new =>
      exact commits_settle (.metered _ (by simp))
  | insertSubmission => exact grading.elim
  | insertAttempt => exact grading.elim
  | saveAttemptName => exact grading.elim
  | eraseResults => exact grading.elim
  | eraseSubmissions => exact grading.elim
  | eraseAttempts => exact grading.elim
  | _ => exact .refl

theorem run_grading {α : Type} {program : Prog α}
    (all : program.All Op.grading) (db : Database) :
    Commits deployment served none db
      (runProgram deployment served.around program db).2 := by
  have keeps : Program.Triple (Database.perform deployment served.around)
      (Commits deployment served none db) program
      fun _ => Commits deployment served none db := by
    apply all.triple
    intro op grading state reached
    exact reached.trans (perform_grading grading state)
  exact keeps db .refl

theorem run_meteringOf {α : Type} {program : Prog α}
    (all : program.All (Op.meteringOf orgId))
    (mine : ∀ owner ∈ scope, orgId = owner) (db : Database) :
    Commits deployment served scope db
      (runProgram deployment served.around program db).2 := by
  have keeps : Program.Triple (Database.perform deployment served.around)
      (Commits deployment served scope db) program
      fun _ => Commits deployment served scope db := by
    apply all.triple
    intro op metering state reached
    exact reached.trans (perform_meteringOf metering mine state)
  exact keeps db .refl

/-! ## One submission of an organisation -/

/-- The question of a submission and the invite it came by belong to an
organisation. -/
structure InOrganization (db : Database) (orgId : Nat) (id : String) :
    Prop where
  question : ∀ row ∈ db.submissions, row.id = id →
    db.questionOrg row.questionId = some orgId
  invite : ∀ row ∈ db.submissions, row.id = id →
    ∀ inviteId ∈ row.inviteId, ∀ invite ∈ db.invites, invite.id = inviteId →
      db.inviteOrg invite = some orgId

/-- The work on one submission so far, on behalf of its organisation. -/
structure OnBehalf (deployment : Deployment) (served : Served) (orgId : Nat)
    (id : String) (db state : Database) : Prop where
  commits : Commits deployment served (some orgId) db state
  owned : InOrganization state orgId id
  keyed : Keyed CandidateAttempt.id state.attempts

/-- Statements on one submission. -/
def Op.ofSubmission (id : String) : Op → Prop
  | .casSubmission owner .. => owner = id
  | op => op.reads

theorem OnBehalf.regrade {state : Database}
    {matched : Submission → Bool} {change : Submission → Submission}
    (soFar : OnBehalf deployment served orgId id db state)
    (keeps : KeepsSubmission change)
    (only : ∀ row, matched row → row.id = id) :
    OnBehalf deployment served orgId id db
      (state.setSubmissions (updateWhere matched change state.submissions)) where
  commits := by
    apply soFar.commits.trans
    apply commits_settle
    apply Change.regraded _ _ keeps
    intro owner isScope row member isMatched
    obtain rfl := Option.some.inj isScope
    exact soFar.owned.question row member (only row isMatched)
  owned := by
    unfold Database.setSubmissions Database.settle
    split
    · constructor
      · intro row member isRow
        obtain ⟨old, isOld, rfl⟩ := mem_of_mem_updateWhere member
        have kept := soFar.owned.question old isOld
        by_cases isMatched : matched old
        · simp only [isMatched, if_true, keeps.id, keeps.questionId] at isRow ⊢
          exact kept isRow
        · simp only [isMatched] at isRow ⊢
          exact kept isRow
      · intro row member isRow
        obtain ⟨old, isOld, rfl⟩ := mem_of_mem_updateWhere member
        have kept := soFar.owned.invite old isOld
        by_cases isMatched : matched old
        · simp only [isMatched, if_true, keeps.id, keeps.inviteId] at isRow ⊢
          exact kept isRow
        · simp only [isMatched] at isRow ⊢
          exact kept isRow
    · exact soFar.owned
  keyed := by
    unfold Database.setSubmissions Database.settle
    split <;> exact soFar.keyed

theorem OnBehalf.stamp {state : Database} {inviteId : Nat}
    {matched : CandidateAttempt → Bool}
    {change : CandidateAttempt → CandidateAttempt}
    (soFar : OnBehalf deployment served orgId id db state)
    (keeps : KeepsAttempt change)
    (only : ∀ row ∈ state.attempts, matched row → row.inviteId = inviteId)
    (mine : ∀ invite ∈ state.invites, invite.id = inviteId →
      state.inviteOrg invite = some orgId) :
    OnBehalf deployment served orgId id db
      (state.setAttempts (updateWhere matched change state.attempts)) where
  commits := by
    apply soFar.commits.trans
    apply commits_settle
    apply Change.stamped _ _ keeps
    intro owner isScope row member isMatched invite isInvite same
    obtain rfl := Option.some.inj isScope
    exact mine invite isInvite (same.trans (only row member isMatched))
  owned := by
    unfold Database.setAttempts Database.settle
    split
    · exact ⟨soFar.owned.question, soFar.owned.invite⟩
    · exact soFar.owned
  keyed := by
    unfold Database.setAttempts Database.settle
    split
    · exact soFar.keyed.updateWhere keeps.id
    · exact soFar.keyed

theorem OnBehalf.perform {op : Op} {state : Database}
    (allowed : op.ofSubmission id)
    (soFar : OnBehalf deployment served orgId id db state) :
    OnBehalf deployment served orgId id db
      (Database.perform deployment served.around op state).2 := by
  cases op with
  | casSubmission owner expectStatus expectAttempts values =>
      obtain rfl : owner = id := allowed
      apply soFar.regrade (keepsSubmission_apply values served.around.now)
      intro row isMatched
      simp only [Bool.and_eq_true, beq_iff_eq] at isMatched
      exact isMatched.1.1
  | _ => first | exact soFar | exact allowed.elim

/-! ## Triggers and retries on behalf of an organisation -/

section OnBehalf

/-- The programs below keep to one submission of an organisation. -/
abbrev KeepsTo (deployment : Deployment) (served : Served) (orgId : Nat)
    (id : String) (db : Database) {α : Type} (program : Prog α) : Prop :=
  Program.Triple (Database.perform deployment served.around)
    (OnBehalf deployment served orgId id db) program
    fun _ => OnBehalf deployment served orgId id db

theorem keepsTo_of_all {α : Type} {program : Prog α}
    (all : program.All (Op.ofSubmission id)) :
    KeepsTo deployment served orgId id db program := by
  apply all.triple
  intro op allowed state soFar
  exact soFar.perform allowed

/-- A statement that only reads, before the rest of a program. -/
theorem keepsTo_statement {α : Type} {op : Op} {next : Resp op → Prog α}
    (allowed : op.ofSubmission id)
    (rest : ∀ resp, KeepsTo deployment served orgId id db (next resp)) :
    KeepsTo deployment served orgId id db (issue op >>= next) :=
  (Program.Triple.statement fun _ soFar => soFar.perform allowed).bind rest

theorem KeepsTo.bind {α β : Type} {program : Prog α} {next : α → Prog β}
    (first : KeepsTo deployment served orgId id db program)
    (rest : ∀ value, KeepsTo deployment served orgId id db (next value)) :
    KeepsTo deployment served orgId id db (program >>= next) :=
  Program.Triple.bind first rest

theorem cas_keepsTo {status : Status} {attempts : Nat}
    {values : SubmissionChange} :
    KeepsTo deployment served orgId id db (cas id status attempts values) :=
  keepsTo_of_all (cas_all rfl trivial trivial)

/-- The one UPDATE of a sitting's stamp, by its address. -/
theorem OnBehalf.sitting {state : Database} {row : Submission}
    (soFar : OnBehalf deployment served orgId id db state)
    (found : fetch Submission.id id state.submissions = some row)
    {inviteId : Nat} (isInvite : row.inviteId = some inviteId) :
    ∀ invite ∈ state.invites, invite.id = inviteId →
      state.inviteOrg invite = some orgId :=
  soFar.owned.invite row (mem_of_fetch found) (key_of_fetch found) inviteId
    isInvite

theorem claimSitting_keepsTo :
    KeepsTo deployment served orgId id db (claimSitting platform id) := by
  intro state soFar
  unfold claimSitting
  simp only [issue, run_bind, run_statement, Database.perform]
  split
  case h_2 => exact soFar
  next sub found =>
  split
  case h_2 => exact soFar
  next inviteId isInvite =>
  split
  case h_2 => exact soFar
  next email isEmail =>
  split
  · exact soFar
  split
  case h_2 => exact soFar
  rw [run_bind]
  split
  · exact soFar
  simp only [run_bind, run_statement, Database.perform]
  split
  case h_2 => exact soFar
  next attempt isAttempt =>
  have member := List.mem_of_find?_eq_some isAttempt
  have isSitting := List.find?_some isAttempt
  simp only [Bool.and_eq_true, beq_iff_eq] at isSitting
  have only : ∀ row ∈ state.attempts,
      (row.id == attempt.id && row.resultsNotifiedAt == none) →
        row.inviteId = inviteId := by
    intro row isRow isMatched
    simp only [Bool.and_eq_true, beq_iff_eq] at isMatched
    rw [soFar.keyed.eq isRow member isMatched.1]
    exact isSitting.1
  have stamped :=
    soFar.stamp (keepsAttempt_stamp (some served.around.now) served.around.now)
      only (soFar.sitting found isInvite)
  rw [run_bind, run_bind]
  split
  · exact stamped
  · exact keepsTo_of_all
      (payloadOf_all (fun _ => trivial) (fun _ => trivial) _ _ _) _ stamped

theorem endSittingIfComplete_keepsTo :
    KeepsTo deployment served orgId id db
      (endSittingIfComplete platform id) := by
  unfold endSittingIfComplete
  apply KeepsTo.bind claimSitting_keepsTo
  intro ready
  apply keepsTo_of_all
  cases ready with
  | none => exact All.pure _ _
  | some ready => exact (all_statement _ _).mpr trivial

theorem reopenSitting_keepsTo :
    KeepsTo deployment served orgId id db (reopenSitting id) := by
  intro state soFar
  unfold reopenSitting
  simp only [issue, run_bind, run_statement, Database.perform]
  split
  case h_2 => exact soFar
  next sub found =>
  split
  case h_2 => exact soFar
  next inviteId isInvite =>
  split
  case h_2 => exact soFar
  next email isEmail =>
  split
  · exact soFar
  simp only [run_bind, run_statement, Database.perform]
  apply soFar.stamp (keepsAttempt_stamp none served.around.now) _
    (soFar.sitting found isInvite)
  intro row isRow isMatched
  simp only [Bool.and_eq_true, beq_iff_eq] at isMatched
  exact isMatched.1

theorem triggerAgent_keepsTo :
    KeepsTo deployment served orgId id db (triggerAgent platform id) := by
  have nothing : KeepsTo deployment served orgId id db (pure ()) :=
    keepsTo_of_all (All.pure _ _)
  unfold triggerAgent
  apply keepsTo_statement
  · trivial
  intro found
  split
  case h_2 => exact nothing
  apply KeepsTo.bind cas_keepsTo
  intro claimed
  split
  · exact nothing
  apply keepsTo_statement
  · trivial
  intro loaded
  split
  case h_2 => exact nothing
  apply keepsTo_statement
  · trivial
  intro answered
  split
  · apply KeepsTo.bind cas_keepsTo
    intro refused
    split
    · exact endSittingIfComplete_keepsTo
    · exact nothing
  · exact nothing
  · exact KeepsTo.bind cas_keepsTo fun _ => nothing

theorem retrySubmission_keepsTo :
    KeepsTo deployment served orgId id db (retrySubmission platform id) := by
  unfold retrySubmission
  apply keepsTo_statement
  · trivial
  intro found
  split
  case h_2 => exact keepsTo_of_all (All.pure _ _)
  split
  · exact keepsTo_of_all (All.pure _ _)
  split
  · exact keepsTo_of_all (All.pure _ _)
  apply KeepsTo.bind reopenSitting_keepsTo
  intro _
  exact KeepsTo.bind triggerAgent_keepsTo fun _ => keepsTo_of_all (All.pure _ _)

end OnBehalf

/-! ## The handlers -/

theorem draftQuestions_meteringOf {organization : Organization} {count : Nat}
    {outcome : DraftOutcome} :
    (draftQuestions platform organization count outcome).All
      (Op.meteringOf organization.id) := by
  unfold draftQuestions
  refine All.bind (consume_meteringOf _ _ _) fun consumed => ?_
  split
  · exact All.pure _ _
  split
  · exact All.bind (release_meteringOf _ _ _) fun _ => All.pure _ _
  · refine All.bind (record_meteringOf _ _) fun _ => ?_
    split
    · exact All.bind (release_meteringOf _ _ _) fun _ => All.pure _ _
    · exact All.pure _ _

theorem draft_commits {caller count : Nat} {outcome : DraftOutcome} :
    MemberCommits deployment served caller db
      (draft deployment served.around db caller count outcome).1 := by
  apply checked_keeps .refused
  intro _ _
  apply checked_keeps .refused
  intro org isMember
  apply checked_keeps .refused
  intro organization isOrganization
  obtain ⟨_, seat⟩ := Database.currentMembership_eq_ok.mp isMember
  have isOwner :=
    key_of_fetch (Database.organization_eq_ok.mp isOrganization)
  apply MemberCommits.seated seat
  apply run_meteringOf draftQuestions_meteringOf
  intro owner isScope
  exact isOwner.trans (Option.some.inj isScope)

theorem retry_transactions {caller : Nat} :
    Transactions deployment served db
      (retry deployment served.around db caller id).1 := by
  apply checked_keeps .refl
  intro _ _
  apply Commits.transactions
  exact run_grading
    ((retrySubmission_judging id).mono fun _ => Op.judging.grading) db

/-- A retry stays in the organisation of the submission, where its invite is of
the same one. -/
theorem retry_commits {caller : Nat}
    (constraints : db.Constraints)
    (sameOrg : ∀ row ∈ db.submissions, ∀ inviteId ∈ row.inviteId,
      ∀ invite ∈ db.invites, invite.id = inviteId →
        db.inviteOrg invite = db.questionOrg row.questionId) :
    MemberCommits deployment served caller db
      (retry deployment served.around db caller id).1 := by
  apply checked_keeps .refused
  intro _ passed
  unfold checkRetry at passed
  simp only [Refusals.bind_eq_ok, Database.currentMembership_eq_ok,
    Database.ownedSubmission_eq_ok] at passed
  obtain ⟨org, ⟨_, seat⟩, sub, ⟨fetched, question, isQuestion, isOwn⟩, _⟩ :=
    passed
  have isOrg : db.questionOrg sub.questionId = some org.orgId := by
    simp [Database.questionOrg, isQuestion, isOwn]
  have only : ∀ row ∈ db.submissions, row.id = id → row = sub := by
    intro row member isRow
    exact constraints.uniqueKeys.submission.eq member (mem_of_fetch fetched)
      (isRow.trans (key_of_fetch fetched).symm)
  have start : OnBehalf deployment served org.orgId id db db := by
    refine ⟨.refl, ⟨?_, ?_⟩, constraints.uniqueKeys.attempt⟩
    · intro row member isRow
      rw [only row member isRow, isOrg]
    · intro row member isRow inviteId isInvite invite isMember same
      rw [sameOrg row member inviteId isInvite invite isMember same,
        only row member isRow, isOrg]
  exact .seated seat (retrySubmission_keepsTo db start).commits

/-- The inserted submission and its trigger, on behalf of the question's
organisation. -/
theorem OnBehalf.inserted {question : Question} {sub : Submission}
    (isQuestion : question ∈ db.questions)
    (constraints : ({ db with submissions := db.submissions ++ [sub] } :
      Database).Constraints)
    (sameQuestion : sub.questionId = question.id)
    (noInvite : sub.inviteId = none) (noAddress : sub.candidateEmail = none) :
    OnBehalf deployment served question.orgId sub.id db
      { db with submissions := db.submissions ++ [sub] } := by
  have only : ∀ row ∈ db.submissions ++ [sub], row.id = sub.id → row = sub := by
    intro row member isRow
    exact constraints.uniqueKeys.submission.eq member (by simp) isRow
  refine ⟨?_, ⟨?_, ?_⟩, constraints.uniqueKeys.attempt⟩
  · exact Commits.one
      (.submittedDirectly sub isQuestion rfl sameQuestion noInvite noAddress)
      constraints
  · intro row member isRow
    rw [only row member isRow, sameQuestion, Database.questionOrg]
    rw [constraints.uniqueKeys.question.fetch_eq isQuestion rfl, Option.map_some]
  · intro row member isRow inviteId isInvite
    rw [only row member isRow, noInvite] at isInvite
    cases isInvite

theorem directSubmit_commits {caller : Nat}
    {questionId candidate language code : String} :
    MemberCommits deployment served caller db
      (directSubmit deployment served.around db caller questionId candidate
        language code).1 := by
  apply checked_keeps .refused
  intro org isMember
  apply checked_keeps .refused
  intro question isOwned
  obtain ⟨_, seat⟩ := Database.currentMembership_eq_ok.mp isMember
  obtain ⟨fetched, isOwn⟩ := Database.ownedQuestion_eq_ok.mp isOwned
  apply MemberCommits.seated seat
  rw [← isOwn]
  dsimp only
  unfold runProgram createSubmission
  split
  · exact .refl
  rw [run_bind, run_bind]
  simp only [run_statement, Database.perform, Database.inserts]
  split
  · next constraints =>
    exact (triggerAgent_keepsTo _ (OnBehalf.inserted (mem_of_fetch fetched)
      constraints (key_of_fetch fetched).symm rfl rfl)).commits
  · exact .refl

end AssessmentPlatform
