import AssessmentPlatform.Grading.Effects
import AssessmentPlatform.Grading.Sample
import AssessmentPlatform.Grading.Statements

/-!
# A landed grade

Once a submission is `done`, only a callback that carries an agent's verdict may
change its status or its result.  The code keeps this as long as two checks are
still current when their write goes ahead: the status that a conditional UPDATE
expects, and the status that a worker-error callback has looked at.
-/

namespace AssessmentPlatform

open Interleaving RowTable

variable {platform : Platform} {requests : Nat → Request} {tid : Nat}
variable {answer : AgentAnswer} {op : Op} {before after : Store}
variable {resp : Resp op}

/-! ## What is to be kept -/

/-- Whether a request is a callback with a verdict: the job ran to completion. -/
def Request.carriesVerdict : Request → Bool
  | .assessmentsCallback payload => payload.get "verdict" != .null
  | _ => false

/-- Whether a request is a callback without a verdict: a worker error. -/
def Request.lacksVerdict : Request → Bool
  | .assessmentsCallback payload => payload.get "verdict" == .null
  | _ => false

/-- A `done` submission and its result change by a verdict only, and a manual
retry claims a submission in `error` only. -/
structure GradeKept (request : Request) (before after : Store) : Prop where
  landed :
    ∀ {id row}, before.submissions.row id = some row → row.status = .done →
      request.carriesVerdict ∨
        after.results.row id = before.results.row id ∧
          ∃ later, after.submissions.row id = some later ∧
            later.status = .done
  retried :
    ∀ {id row later}, request.isRetry →
      before.submissions.row id = some row →
        after.submissions.row id = some later →
          later.attempts ≠ row.attempts → row.status = .error

/-- Every `done` submission has a stored result. -/
def Store.DoneStored (store : Store) : Prop :=
  ∀ {id row}, store.submissions.row id = some row → row.status = .done →
    (store.results.row id).isSome

/-! ## When it is kept -/

/-- The session's copy of a submission, which the thread has checked, does not
miss that the submission is `done`. -/
def Store.CopyCurrent (store : Store) (tid : Nat) (id : String) : Prop :=
  ∀ row copy, store.submissions.row id = some row →
    store.session tid id = some copy → row.status = .done →
      copy.status = .done

/-- The checks are current: no conditional UPDATE expects `done`, that of a
manual retry expects `error` when it claims, and what a callback without a
verdict has read of the submission is current while it writes and commits. -/
def checksCurrent (requests : Nat → Request) :
    Nat → Op → Store → Prop
  | tid, .casSubmission _ expectStatus _ values, _ =>
      expectStatus ≠ .done ∧
        ((requests tid).isRetry → values.attempts ≠ none →
          expectStatus = .error)
  | tid, .saveSubmission loaded _, store =>
      (requests tid).lacksVerdict → store.CopyCurrent tid loaded.id
  | tid, .commit, store =>
      (requests tid).lacksVerdict →
        ∀ id result, store.results.staged id = some (tid, result) →
          store.CopyCurrent tid id
  | _, _, _ => True

/-! ## The contract -/

/-- What may be staged on a submission. -/
structure GradeWrite
    (request : Request) (row : Option Submission) (value : Submission) :
    Prop where
  landed :
    ∀ {current}, row = some current → current.status = .done →
      request.carriesVerdict ∨ value.status = .done
  retried :
    ∀ {current}, row = some current → request.isRetry →
      value.attempts ≠ current.attempts → current.status = .error

/-- Whether `tid` has a result for the submission: stored, or staged in its own
transaction. -/
def Store.HasResult (store : Store) (tid : Nat) (id : String) : Prop :=
  (store.results.row id).isSome ∨
    ∃ result, store.results.staged id = some (tid, result)

/-- The invariant: staged writes keep landed grades, and whatever is about to
become `done` has its result. -/
structure GradeInv (requests : Nat → Request) (store : Store) : Prop where
  wellFormed : store.WellFormed
  writes :
    store.submissions.Staged fun tid _ row value =>
      GradeWrite (requests tid) row value
  doneStored : store.DoneStored
  doneStaged :
    ∀ {id tid value}, store.submissions.staged id = some (tid, value) →
      value.status = .done → store.HasResult tid id

/-- Results never go away, and nobody else commits what `tid` has staged. -/
theorem Store.HasResult.moves
    {owner : Nat} {id : String}
    (has : before.HasResult owner id) (moves : Store.Moves tid before after)
    (different : owner ≠ tid) :
    after.HasResult owner id := by
  rcases has with stored | ⟨result, staged⟩
  · exact Or.inl (moves.results.row_isSome stored)
  · exact Or.inr ⟨result, (moves.results.others different).mpr staged⟩

/-- A transaction keeps what it has staged until it ends. -/
theorem Store.HasResult.own
    {id : String} (wellFormed : before.WellFormed)
    (has : before.HasResult tid id)
    (executes : exec platform op tid answer before = some (resp, after))
    (notRollback : op ≠ .rollback) :
    after.HasResult tid id := by
  have results := exec_results wellFormed.results executes
  rcases has with stored | ⟨result, staged⟩
  · exact Or.inl (results.moves.row_isSome stored)
  · rcases results.own staged with still | ⟨-, committed⟩ | rolledBack
    · exact Or.inr ⟨result, still⟩
    · exact Or.inl (by simp [committed])
    · exact absurd rolledBack notRollback

/-- The contract of every thread. -/
def gradeContract (requests : Nat → Request) : Contract Nat Store where
  inv := GradeInv requests
  guar := fun tid before after =>
    GradeInv requests after ∧ Store.Moves tid before after ∧
      GradeKept (requests tid) before after
  guar_inv := fun _ guaranteed => guaranteed.1

/-! ## One statement -/

/-- A statement keeps the contract if the writes it stages do, and if, where it
commits a result, it has looked at the submission. -/
theorem GradeInv.step
    (inv : GradeInv requests before)
    (executes : exec platform op tid answer before = some (resp, after))
    (own :
      ∀ id value, SubmissionWrite before op id value →
        GradeWrite (requests tid) (before.submissions.row id) value ∧
          (value.status = .done → before.HasResult tid id))
    (checked :
      op = .commit → (requests tid).carriesVerdict ∨
        ∀ id result row, before.results.staged id = some (tid, result) →
          before.submissions.row id = some row → row.status ≠ .done) :
    (gradeContract requests).guar tid before after := by
  have wellFormed := inv.wellFormed
  have submissions := exec_submissions wellFormed.submissions executes
  have results := exec_results wellFormed.results executes
  have moves := wellFormed.moves executes
  have change := fun id => inv.writes.change moves.submissions id
  refine ⟨⟨wellFormed.exec executes, ?_, ?_, ?_⟩, moves, ?_, ?_⟩
  · exact inv.writes.acts submissions fun id value write =>
      (own id value write).1
  · intro id row found isDone
    rcases change id with same | ⟨value, staged, committed, -⟩
    · exact moves.results.row_isSome (inv.doneStored (same ▸ found) isDone)
    · rw [committed] at found
      cases found
      rcases inv.doneStaged staged isDone with stored | ⟨result, stagedResult⟩
      · exact moves.results.row_isSome stored
      · by_cases committing : op = .commit
        · subst committing
          cases executes
          have stored : (before.commit tid).results.row id = some result :=
            row_commit_of_staged stagedResult
          simp [stored]
        · -- without a commit the row was already there
          have earlier : before.submissions.row id = some row := by
            rw [← submissions.row_of_not_commits committing]
            exact committed
          exact moves.results.row_isSome (inv.doneStored earlier isDone)
  · intro id owner value found isDone
    rcases submissions.staged found with earlier | ⟨rfl, -, -, permitted⟩
    · have has := inv.doneStaged earlier isDone
      by_cases same : owner = tid
      · subst same
        by_cases rolling : op = .rollback
        · subst rolling
          cases executes
          exact absurd rfl (unlock_eq_some_iff.mp found).2
        · exact has.own wellFormed executes rolling
      · exact has.moves moves same
    · have has := (own id value permitted).2 isDone
      have staging : op ≠ .rollback := by
        rintro rfl
        cases permitted
      exact has.own wellFormed executes staging
  · intro id row found isDone
    by_cases committing : op = .commit
    · rcases checked committing with verdict | notDone
      · exact Or.inl verdict
      · rcases change id with same | ⟨value, -, committed, write⟩
        · rcases moves.results.row id with sameResult | ⟨result, staged, -⟩
          · exact Or.inr ⟨sameResult, row, same ▸ found, isDone⟩
          · exact absurd isDone (notDone id result row staged found)
        · refine (write.landed found isDone).imp_right fun stillDone => ?_
          rcases moves.results.row id with sameResult | ⟨result, staged, -⟩
          · exact ⟨sameResult, value, committed, stillDone⟩
          · exact absurd isDone (notDone id result row staged found)
    · rw [submissions.row_of_not_commits committing,
        results.row_of_not_commits committing]
      exact Or.inr ⟨rfl, row, found, isDone⟩
  · intro id row later isRetry found foundLater different
    rcases change id with same | ⟨value, -, committed, write⟩
    · rw [same, found] at foundLater
      cases foundLater
      exact absurd rfl different
    · rw [committed] at foundLater
      cases foundLater
      exact write.retried found isRetry different

/-- `tid` has no result staged. -/
def Store.NoResult (store : Store) (tid : Nat) : Prop :=
  ∀ id result, store.results.staged id ≠ some (tid, result)

theorem noResult_stable :
    (gradeContract requests).Stable tid (Store.NoResult · tid) := by
  rintro before after other different - ⟨-, moves, -⟩ holds id result staged
  exact holds id result ((moves.results.others different.symm).mp staged)

/-- A statement of a request other than a callback or an erasure, or of a
callback whose grade is committed. -/
theorem grade_ordinary
    (ordinary : op.ordinary) (inv : GradeInv requests before)
    (noResult : before.NoResult tid)
    (allowed : checksCurrent requests tid op before)
    (executes : exec platform op tid answer before = some (resp, after)) :
    (gradeContract requests).guar tid before after ∧ after.NoResult tid := by
  constructor
  · refine inv.step executes ?_ fun _ => Or.inr fun id result _ staged =>
      absurd staged (noResult id result)
    intro id value write
    cases write with
    | insert fresh =>
        refine ⟨⟨?_, ?_⟩, ?_⟩
        · intro current found
          simp [fresh] at found
        · intro current found
          simp [fresh] at found
        · intro isDone
          simp [ordinary.1] at isDone
    | @cas id expectStatus expectAttempts values row found status attempts =>
        refine ⟨⟨?_, ?_⟩, ?_⟩
        · intro current foundCurrent isDone
          rw [found] at foundCurrent
          cases foundCurrent
          exact absurd (status ▸ isDone) allowed.1
        · intro current foundCurrent isRetry different
          rw [found] at foundCurrent
          cases foundCurrent
          rw [status]
          refine allowed.2 isRetry fun unchanged => ?_
          simp [SubmissionChange.apply, unchanged] at different
        · intro isDone
          rcases ordinary with claim | ⟨-, notDone⟩
          · simp [claim, claimChange, SubmissionChange.apply] at isDone
          · exact absurd isDone notDone
    | save => exact ordinary.elim
    | erase => exact ordinary.elim
  · intro id result staged
    have results := exec_results inv.wellFormed.results executes
    rcases results.staged staged with earlier | ⟨-, -, -, permitted⟩
    · exact noResult id result earlier
    · cases permitted <;> exact ordinary

section Triples

/-- The triples of the threads' programs. -/
abbrev GradeTriple
    (platform : Platform) (requests : Nat → Request) (tid : Nat) {α : Type}
    (pre : Store → Prop) (program : Prog α) (post : α → Store → Prop) :
    Prop :=
  Triple (serving platform requests) (checksCurrent requests)
    (gradeContract requests) tid pre program post

theorem grade_of_ordinary
    {α : Type} {program : Prog α} (ordinary : program.All Op.ordinary) :
    GradeTriple platform requests tid (Store.NoResult · tid) program
      (fun _ => (Store.NoResult · tid)) :=
  Triple.of_all noResult_stable (fun _ _ _ => trivial) ordinary
    fun _ ordinary _ _ _ _ inv noResult allowed executes =>
      grade_ordinary ordinary inv noResult allowed executes

theorem grade_issue
    {α : Type} {op : Op} {next : Resp op → Prog α} {post : α → Store → Prop}
    (ordinary : op.ordinary)
    (rest :
      ∀ resp, GradeTriple platform requests tid (Store.NoResult · tid)
        (next resp) post) :
    GradeTriple platform requests tid (Store.NoResult · tid)
      (issue op >>= next) post :=
  issue_triple (fun _ => (Store.NoResult · tid)) noResult_stable
    (fun _ _ _ => trivial)
    (fun _ _ _ _ inv noResult allowed executes =>
      grade_ordinary ordinary inv noResult allowed executes) rest

/-- The session of `tid` remembers the submission as `sub`, which a callback
without a verdict has found not to be `done`. -/
def Checked (request : Request) (tid : Nat) (sub : Submission)
    (store : Store) : Prop :=
  store.session tid sub.id = some sub ∧
    (request.carriesVerdict ∨ sub.status ≠ .done)

theorem checked_stable {sub : Submission} :
    (gradeContract requests).Stable tid (Checked (requests tid) tid sub) := by
  rintro before after other different - ⟨-, moves, -⟩ ⟨copy, checked⟩
  exact ⟨by rw [moves.session different.symm]; exact copy, checked⟩

theorem hasResult_stable {id : String} :
    (gradeContract requests).Stable tid (Store.HasResult · tid id) := by
  rintro before after other different - ⟨-, moves, -⟩ has
  exact has.moves moves different.symm

/-- Where the copy is current, the submission is not `done` in the database
either. -/
theorem Checked.not_done
    {sub row : Submission} {store : Store}
    (checked : Checked (requests tid) tid sub store)
    (current : store.CopyCurrent tid sub.id)
    (found : store.submissions.row sub.id = some row) :
    (requests tid).carriesVerdict ∨ row.status ≠ .done :=
  checked.2.imp_right fun notDone isDone =>
    notDone (current row sub found checked.1 isDone)

/-- What `upsertResult` leaves behind. -/
def Upserted (request : Request) (tid : Nat) (sub : Submission)
    (stored : Bool) (store : Store) : Prop :=
  if stored then
    Checked request tid sub store ∧ store.HasResult tid sub.id ∧
      ∀ id result, store.results.staged id = some (tid, result) → id = sub.id
  else
    store.NoResult tid

theorem upserted_stable {sub : Submission} {stored : Bool} :
    (gradeContract requests).Stable tid
      (Upserted (requests tid) tid sub stored) := by
  cases stored with
  | false => exact noResult_stable
  | true =>
      refine checked_stable.and (hasResult_stable.and ?_)
      rintro before after other different - ⟨-, moves, -⟩ keys id result staged
      exact keys id result ((moves.results.others different.symm).mp staged)

/-- A statement that writes at most the result of `sub`. -/
theorem grade_result
    {sub : Submission} (inv : GradeInv requests before)
    (noResult : before.NoResult tid)
    (executes : exec platform op tid answer before = some (resp, after))
    (notCommit : op ≠ .commit)
    (noSubmission : ¬op.writesSubmission)
    (keys : ∀ id value, ResultWrite before op id value → id = sub.id) :
    (gradeContract requests).guar tid before after ∧
      ∀ id result, after.results.staged id = some (tid, result) →
        id = sub.id := by
  refine ⟨inv.step executes (fun id value write => ?_) fun commits => ?_, ?_⟩
  · exact absurd write.writes noSubmission
  · exact absurd commits notCommit
  · intro id result staged
    have results := exec_results inv.wellFormed.results executes
    rcases results.staged staged with earlier | ⟨-, -, -, permitted⟩
    · exact absurd earlier (noResult id result)
    · exact keys id result permitted

theorem upsertResult_triple
    {sub : Submission} {graded : AssessmentResult}
    (key : graded.submissionId = sub.id) :
    GradeTriple platform requests tid
      (fun store => store.NoResult tid ∧ Checked (requests tid) tid sub store)
      (upsertResult graded)
      (Upserted (requests tid) tid sub) := by
  unfold upsertResult
  have ready :
      (gradeContract requests).Stable tid fun store =>
        store.NoResult tid ∧ Checked (requests tid) tid sub store :=
    noResult_stable.and checked_stable
  refine issue_triple
    (fun found store =>
      (∀ existing, found = some existing →
        existing.submissionId = sub.id ∧ store.HasResult tid sub.id) ∧
      store.NoResult tid ∧ Checked (requests tid) tid sub store) ready
    (fun _ _ _ => trivial) ?_ ?_
  · rintro store answer found after inv ⟨noResult, checked⟩ allowed executes
    have ordinary : (Op.selectResult graded.submissionId).ordinary := trivial
    obtain ⟨guaranteed, noResultAfter⟩ :=
      grade_ordinary ordinary inv noResult allowed executes
    cases executes
    refine ⟨guaranteed, ?_, noResultAfter, checked⟩
    intro existing found
    rw [key] at found
    exact ⟨inv.wellFormed.resultKeys.row found, Or.inl (by simp [found])⟩
  have stable :
      ∀ found : Option AssessmentResult,
        (gradeContract requests).Stable tid fun store =>
          (∀ existing, found = some existing →
            existing.submissionId = sub.id ∧ store.HasResult tid sub.id) ∧
          store.NoResult tid ∧ Checked (requests tid) tid sub store :=
    fun _ => Contract.Stable.and
      (Contract.Stable.forall fun _ => Contract.Stable.imp
        ((Contract.stable_const _).and hasResult_stable)) ready
  rintro (_ | existing)
  · -- no record yet: the INSERT goes through or violates the key
    refine last_triple (stable none) (fun _ _ _ => trivial)
      (fun _ => upserted_stable) ?_
    rintro store answer inserted after inv ⟨-, noResult, checked⟩ - executes
    obtain ⟨guaranteed, keys⟩ :=
      grade_result inv noResult executes nofun id
        fun _ _ write => write.key_of_insert.trans key
    refine ⟨guaranteed, ?_⟩
    simp only [exec, Option.map_eq_some_iff] at executes
    obtain ⟨⟨_, table⟩, tried, equal⟩ := executes
    cases equal
    rcases tryInsert_cases tried with ⟨rfl, rfl, -⟩ | ⟨rfl, rfl⟩
    · refine ⟨checked, Or.inr ⟨graded, ?_⟩, keys⟩
      simp [key]
    · exact noResult
  · refine issue_triple (fun _ => Upserted (requests tid) tid sub true)
      (stable (some existing)) (fun _ _ _ => trivial) ?_ ?_
    · rintro store answer saved after inv ⟨stored, noResult, checked⟩ -
        executes
      obtain ⟨sameId, has⟩ := stored existing rfl
      obtain ⟨guaranteed, keys⟩ :=
        grade_result inv noResult executes nofun id
          fun _ _ write => write.key_of_save.trans sameId
      have session := exec_session_same executes not_false
      exact
        ⟨guaranteed, ⟨session ▸ checked.1, checked.2⟩,
          has.own inv.wellFormed executes nofun, keys⟩
    · rintro ⟨⟩
      exact Triple.ret upserted_stable fun _ _ holds => holds

/-- A callback carries a verdict, or none. -/
theorem carries_or_lacks
    {payload : Payload} (request : requests tid = .assessmentsCallback payload) :
    (requests tid).carriesVerdict ∨ (requests tid).lacksVerdict := by
  rw [request]
  by_cases missing : payload.get "verdict" = .null
  · simp [Request.lacksVerdict, missing]
  · simp [Request.carriesVerdict, missing]

theorem notRetry_of_callback
    {payload : Payload} (request : requests tid = .assessmentsCallback payload) :
    (requests tid).isRetry = false := by
  rw [request]
  rfl

/-- What may be staged when a copy of a submission is saved. -/
theorem grade_save
    {sub new : Submission} (inv : GradeInv requests before)
    (current :
      ∀ row, before.submissions.row sub.id = some row →
        (requests tid).carriesVerdict ∨ row.status ≠ .done)
    (stored : new.status = .done → before.HasResult tid sub.id)
    (notRetry : (requests tid).isRetry = false)
    (executes :
      exec platform (.saveSubmission sub new) tid answer before =
        some ((), after)) :
    (gradeContract requests).guar tid before after := by
  refine inv.step executes ?_ nofun
  intro id value write
  cases write with
  | @save _ _ row found =>
      refine ⟨⟨?_, ?_⟩, ?_⟩
      · intro currentRow foundCurrent isDone
        rw [found] at foundCurrent
        cases foundCurrent
        exact (current row found).imp_right fun notDone => absurd isDone notDone
      · intro _ _ isRetry
        simp [notRetry] at isRetry
      · intro isDone
        simp only [Submission.flush, changed] at isDone
        split at isDone
        · exact Or.inl (inv.doneStored found isDone)
        · exact stored isDone

theorem noResult_of_save
    {sub new : Submission} (inv : GradeInv requests before)
    (noResult : before.NoResult tid)
    (executes :
      exec platform (.saveSubmission sub new) tid answer before =
        some ((), after)) :
    after.NoResult tid := by
  intro id result staged
  have results := exec_results inv.wellFormed.results executes
  rcases results.staged staged with earlier | ⟨-, -, -, permitted⟩
  · exact noResult id result earlier
  · exact permitted.writes

/-- After the commit of a transaction nothing of it is staged. -/
theorem noResult_commit : (before.commit tid).NoResult tid := by
  intro id result staged
  exact absurd rfl (unlock_eq_some_iff.mp staged).2

theorem storeGrade_triple
    {payload : Payload} {sub : Submission} {graded : AssessmentResult}
    (request : requests tid = .assessmentsCallback payload)
    (isOf : graded.submissionId = sub.id) :
    GradeTriple platform requests tid
      (fun store => store.NoResult tid ∧ Checked (requests tid) tid sub store)
      (storeGrade platform payload sub graded)
      (fun _ => (Store.NoResult · tid)) := by
  unfold storeGrade
  refine Triple.bind (upsertResult_triple isOf) ?_
  rintro (_ | _)
  · -- the unique key was violated: the transaction is rolled back
    exact grade_of_ordinary (Program.All.statement trivial
      fun _ => Program.All.pure _ _)
  refine issue_triple (fun _ => Upserted (requests tid) tid sub true)
    upserted_stable (fun _ _ _ => trivial) ?_ fun _ => ?_
  · rintro store answer _ after inv ⟨checked, has, keys⟩ allowed executes
    have guaranteed :=
      grade_save inv (fun row found => ?_) (fun _ => has)
        (notRetry_of_callback request) executes
    · have session := exec_session_same executes not_false
      refine
        ⟨guaranteed, ⟨session ▸ checked.1, checked.2⟩,
          has.own inv.wellFormed executes nofun, ?_⟩
      intro id result staged
      have results := exec_results inv.wellFormed.results executes
      rcases results.staged staged with earlier | ⟨-, -, -, permitted⟩
      · exact keys id result earlier
      · exact permitted.writes.elim
    · rcases carries_or_lacks request with verdict | missing
      · exact Or.inl verdict
      · exact checked.not_done (allowed missing) found
  refine issue_triple (fun _ => (Store.NoResult · tid)) upserted_stable
    (fun _ _ _ => trivial) ?_
    fun _ => Triple.ret noResult_stable fun _ _ holds => holds
  rintro store answer _ after inv ⟨checked, -, keys⟩ allowed executes
  refine ⟨inv.step executes (fun _ _ write => nomatch write) fun _ => ?_, ?_⟩
  · by_cases verdict : (requests tid).carriesVerdict
    · exact Or.inl verdict
    · have missing := (carries_or_lacks request).resolve_left verdict
      refine Or.inr fun id result row staged found => ?_
      have same := keys id result staged
      subst same
      exact (checked.not_done (allowed missing _ result staged)
        found).resolve_left verdict
  · cases executes
    exact noResult_commit

theorem landGrade_triple
    {payload : Payload} {sub : Submission}
    (request : requests tid = .assessmentsCallback payload) :
    GradeTriple platform requests tid
      (fun store => store.NoResult tid ∧ Checked (requests tid) tid sub store)
      (landGrade platform payload sub)
      (fun _ => (Store.NoResult · tid)) := by
  unfold landGrade
  split
  case h_2 =>
    exact Triple.ret (noResult_stable.and checked_stable)
      fun _ _ holds => holds.1
  next graded converts =>
  have isOf := Payload.submissionId_of_result converts
  refine Triple.bind (storeGrade_triple request isOf) fun stored => ?_
  refine grade_of_ordinary ?_
  split
  · exact Program.All.pure _ _
  · refine Program.All.bind ?_ fun _ => Program.All.bind ?_ fun _ =>
      Program.All.bind ?_ fun _ => Program.All.pure _ _
    · exact (recordCost_all _ _).mono fun _ => Op.settling.ordinary
    · exact (claimSitting_all _).mono fun _ => Op.notifying.ordinary
    · exact (deliverIfReady_all _).mono fun _ => Op.notifying.ordinary

/-- A worker error is exactly a payload without a verdict. -/
theorem workerError_iff (payload : Payload) :
    payload.workerError platform ↔
      ¬(Request.assessmentsCallback payload).carriesVerdict := by
  by_cases missing : payload.get "verdict" = .null
  · simp [Payload.workerError, Payload.isError, Payload.verdict,
      Request.carriesVerdict, missing, Json.truthy]
  · simp [Payload.workerError, Request.carriesVerdict, missing]

/-- The session's copy of the submission that a callback has loaded. -/
theorem load_triple
    {id : String} {α : Type} {next : Option Submission → Prog α}
    {post : α → Store → Prop}
    (rest :
      ∀ found, GradeTriple platform requests tid
        (fun store => store.NoResult tid ∧
          ∀ sub, found = some sub → store.session tid sub.id = some sub)
        (next found) post) :
    GradeTriple platform requests tid (Store.NoResult · tid)
      (issue (.load id) >>= next) post := by
  refine issue_triple _ noResult_stable (fun _ _ _ => trivial) ?_ rest
  rintro store answer found after inv noResult allowed executes
  have ordinary : (Op.load id).ordinary := trivial
  obtain ⟨guaranteed, noResultAfter⟩ :=
    grade_ordinary ordinary inv noResult allowed executes
  refine ⟨guaranteed, noResultAfter, ?_⟩
  rintro sub rfl
  have copied := session_of_load executes
  have invAfter := (gradeContract requests).guar_inv inv guaranteed
  rw [invAfter.wellFormed.session copied]
  exact copied

theorem assessmentsCallback_triple
    {payload : Payload}
    (request : requests tid = .assessmentsCallback payload) :
    GradeTriple platform requests tid (Store.NoResult · tid)
      (assessmentsCallback platform payload)
      (fun _ => (Store.NoResult · tid)) := by
  unfold assessmentsCallback
  dsimp only
  split
  · exact grade_of_ordinary (Program.All.pure _ _)
  split
  case h_2 => exact grade_of_ordinary (Program.All.pure _ _)
  refine grade_issue trivial fun selected => ?_
  split
  case h_2 => exact grade_of_ordinary (Program.All.pure _ _)
  refine load_triple fun found => ?_
  split
  case h_2 =>
    exact (grade_of_ordinary (Program.All.pure _ _)).strengthen
      fun _ _ before => before.1
  next sub =>
    have copied :
        ∀ store : Store,
          (store.NoResult tid ∧ ∀ copy, some sub = some copy →
            store.session tid copy.id = some copy) →
          ((requests tid).carriesVerdict ∨ sub.status ≠ .done) →
          store.NoResult tid ∧ Checked (requests tid) tid sub store :=
      fun store before checked => ⟨before.1, before.2 sub rfl, checked⟩
    split
    · split
      · exact (grade_of_ordinary (Program.All.pure _ _)).strengthen
          fun _ _ before => before.1
      · next notDone =>
          split
          · -- the re-queue writes no result, but it must not undo a grade
            refine (issue_triple (fun _ => (Store.NoResult · tid))
              (noResult_stable.and checked_stable) (fun _ _ _ => trivial)
              ?_ fun _ => ?_).strengthen
              fun store _ before => copied store before (Or.inr notDone)
            · rintro store answer _ after inv ⟨noResult, checked⟩ allowed
                executes
              refine
                ⟨grade_save inv (fun row foundRow => ?_) (by simp)
                  (notRetry_of_callback request) executes,
                  noResult_of_save inv noResult executes⟩
              rcases carries_or_lacks request with verdict | missing
              · exact Or.inl verdict
              · exact checked.not_done (allowed missing) foundRow
            · exact grade_of_ordinary (Program.All.statement trivial
                fun _ => Program.All.pure _ _)
          · exact (landGrade_triple request).strengthen
              fun store _ before => copied store before (Or.inr notDone)
    · next notWorkerError =>
        have verdict : (requests tid).carriesVerdict := by
          rw [workerError_iff, not_not] at notWorkerError
          rw [request]
          exact notWorkerError
        exact (landGrade_triple request).strengthen
          fun store _ before => copied store before (Or.inl verdict)

theorem request_triple (notErasure : (requests tid).isErasure = false) :
    GradeTriple platform requests tid (Store.NoResult · tid)
      ((requests tid).program platform)
      (fun _ => (Store.NoResult · tid)) := by
  cases request : requests tid with
  | assessmentsCallback payload =>
      exact Triple.bind (assessmentsCallback_triple request)
        fun _ => grade_of_ordinary (Program.All.pure _ _)
  | erase scope email token =>
      rw [request] at notErasure
      cases notErasure
  | _ =>
      exact grade_of_ordinary (Request.program_all rfl rfl)

end Triples

/-! ## Every run -/

theorem GradeInv.initial (clock : Time) :
    GradeInv requests (Store.initial clock) where
  wellFormed := .initial clock
  writes := Staged.empty
  doneStored := by simp [Store.DoneStored, Store.initial, RowTable.empty]
  doneStaged := by simp [Store.initial, RowTable.empty]

/-- In every run without erasures whose checks are current, a `done` submission
has its result, and a step changes a `done` submission or its result only as a
callback that carries a verdict; a manual retry claims a submission in `error`
only. -/
theorem landed_grade_kept
    {clock : Time} {config : Config Nat Op Resp Reply Store}
    (noErasure : ∀ tid, (requests tid).isErasure = false)
    (reached :
      (serving platform requests).Reaches (checksCurrent requests)
        ((serving platform requests).start (.initial clock)) config) :
    config.store.DoneStored ∧
      ∀ tid after,
        (serving platform requests).Step (checksCurrent requests) tid
            config after →
          GradeKept (requests tid) config.store after.store := by
  have holdsStart :
      (gradeContract requests).Holds (serving platform requests)
        (checksCurrent requests) (fun tid _ => (Store.NoResult · tid))
        ((serving platform requests).start (.initial clock)) :=
    Contract.holds_start (.initial clock)
      (fun _ => by simp [Store.NoResult, Store.initial, RowTable.empty])
      fun tid => request_triple (noErasure tid)
  have holds := holdsStart.reaches reached
  refine ⟨holds.1.doneStored, fun tid after step => ?_⟩
  obtain ⟨⟨-, -, kept⟩, -⟩ := holds.step step
  exact kept

/-! ## Concrete runs -/

/-- A direct submission, the reaper, and the agent's verdict. -/
def lateRefresh : Nat → Request
  | 0 => Sample.direct
  | 1 => .passTime (1000 * 1000000)
  | 2 => .reapTick
  | 3 => .assessmentsCallback (Sample.verdict "PASS")
  | _ => .idle

/-- The reaper and the verdict come between the commit of the submission and
its refresh: the request then claims a submission that is `done`. -/
theorem landed_grade_lost :
    ∃ config after,
      (serving (Sample.platform 3) lateRefresh).Reaches System.anyRun
        ((serving (Sample.platform 3) lateRefresh).start (.initial 0)) config ∧
      (serving (Sample.platform 3) lateRefresh).Step System.anyRun 0
        config after ∧
      ¬GradeKept (lateRefresh 0) config.store after.store := by
  have ran :
      ((serving (Sample.platform 3) lateRefresh).runSchedule
        (fun _ _ _ => true)
        ((serving (Sample.platform 3) lateRefresh).start (.initial 0))
        (Sample.steps 0 3 ++ Sample.steps 1 1 ++ Sample.steps 2 12 ++
          Sample.steps 3 6 ++ Sample.steps 0 3)).any
        (fun config =>
          ((serving (Sample.platform 3) lateRefresh).advance
            (fun _ _ _ => true) config 0 .failed).any fun after =>
            Sample.statusIs config.store .done &&
              Sample.statusIs after.store .pending) := by
    decide +kernel
  obtain ⟨config, after, reached, step, seen⟩ :=
    System.exists_step_of_runSchedule (fun _ _ _ _ => trivial) ran
  refine ⟨config, after, reached, step, fun kept => ?_⟩
  simp only [Sample.statusIs, Bool.and_eq_true, beq_iff_eq,
    Option.map_eq_some_iff] at seen
  obtain ⟨⟨row, found, isDone⟩, later, foundLater, isPending⟩ := seen
  rcases kept.landed found isDone with verdict | ⟨-, kept, foundKept, stillDone⟩
  · exact absurd verdict (by decide)
  · rw [foundLater] at foundKept
    cases foundKept
    rw [isPending] at stillDone
    cases stillDone

/-- The submission and its verdict, in turn. -/
def inTurn : Nat → Request
  | 0 => Sample.direct
  | 1 => .assessmentsCallback (Sample.verdict "PASS")
  | _ => .idle

/-- Neither thread is a retry or a worker error, so only the status that a
conditional UPDATE expects matters. -/
def expectsPending : Nat → Op → Store → Bool
  | _, .casSubmission _ expectStatus _ _, _ => expectStatus == .pending
  | _, _, _ => true

theorem landed_grade_kept_in_turn :
    ∃ config : Config Nat Op Resp Reply Store,
      Sample.statusIs config.store .done ∧ config.store.DoneStored ∧
        ∀ tid after,
          (serving (Sample.platform 3) inTurn).Step (checksCurrent inTurn) tid
              config after →
            GradeKept (inTurn tid) config.store after.store := by
  have ran :
      ((serving (Sample.platform 3) inTurn).runSchedule expectsPending
        ((serving (Sample.platform 3) inTurn).start (.initial 0))
        (Sample.steps 0 13 ++ Sample.steps 1 6)).any
        fun config => Sample.statusIs config.store .done := by
    decide +kernel
  have sound :
      ∀ tid op store, expectsPending tid op store →
        checksCurrent inTurn tid op store := by
    intro tid op store permitted
    have harmless : (inTurn tid).lacksVerdict = false ∧
        (inTurn tid).isRetry = false := by
      match tid with
      | 0 | 1 | _ + 2 => exact ⟨rfl, rfl⟩
    cases op with
    | casSubmission id expectStatus expectAttempts values =>
        have pending : expectStatus = .pending := by
          simpa [expectsPending] using permitted
        simp [checksCurrent, pending, harmless.2]
    | saveSubmission => simp [checksCurrent, harmless.1]
    | commit => simp [checksCurrent, harmless.1]
    | _ => trivial
  obtain ⟨config, reached, isDone⟩ := System.exists_of_runSchedule sound ran
  exact
    ⟨config, isDone,
      landed_grade_kept (by rintro (_ | _ | _) <;> rfl) reached⟩

end AssessmentPlatform
