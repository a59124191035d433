import AssessmentPlatform.Grading.LandedGrade

/-!
# The reason of a failure

`error_reason` describes a failure without a grade.  A refusal and a give-up
write it, a claim for one more trigger clears it, and a callback leaves it as it
is: it outlives its failure where a callback is committed while it is set, or
where a submission that has been graded is refused or given up afterwards.
-/

namespace AssessmentPlatform

open Interleaving RowTable

variable {platform : Platform} {requests : Nat → Request} {tid : Nat}
variable {answer : AgentAnswer} {op : Op} {before after : Store}
variable {resp : Resp op}

/-! ## What is to hold -/

/-- A reason stands beside an error without a result, and there always. -/
structure Store.ReasonsMatch (store : Store) : Prop where
  failed :
    ∀ {id row}, store.submissions.row id = some row →
      row.errorReason ≠ none →
        row.status = .error ∧ store.results.row id = none
  given :
    ∀ {id row}, store.submissions.row id = some row → row.status = .error →
      store.results.row id = none →
        ∃ reason, row.errorReason = some reason ∧ reason ≠ ""

/-- A transaction is about to commit a submission or its result. -/
def Store.Touches (store : Store) (tid : Nat) (id : String) : Prop :=
  (∃ value, store.submissions.staged id = some (tid, value)) ∨
    ∃ result, store.results.staged id = some (tid, result)

/-- A callback is not committed for a submission that has a reason, and a
reason is not committed for a submission that has a result. -/
structure FailureApart (request : Request) (tid : Nat) (store : Store) :
    Prop where
  callback :
    request.isCallback → ∀ id row, store.Touches tid id →
      store.submissions.row id = some row → row.errorReason = none
  failure :
    request.isCallback = false → ∀ id value,
      store.submissions.staged id = some (tid, value) →
        value.errorReason ≠ none → store.results.row id = none

/-- The COMMIT of a transaction leaves a reason beside what is no failure, or
beside a grade. -/
def Store.outlives (store : Store) (tid : Nat) (request : Request)
    (id : String) : Bool :=
  if request.isCallback then
    ((store.submissions.pending tid id).isSome ||
        (store.results.pending tid id).isSome) &&
      (store.submissions.row id).any fun row => row.errorReason.isSome
  else
    ((store.submissions.pending tid id).any fun value =>
        value.errorReason.isSome) &&
      (store.results.row id).isSome

/-- No callback is committed for a submission that has a reason, and no reason
is committed for a submission that has a result. -/
def failuresApart (requests : Nat → Request) : Nat → Op → Store → Bool
  | tid, .commit, store =>
      !store.submissions.keys.any (store.outlives tid (requests tid))
  | _, _, _ => true

/-- The condition, for the rows one by one. -/
theorem failureApart (wellFormed : before.WellFormed)
    (allowed : failuresApart requests tid .commit before) :
    FailureApart (requests tid) tid before := by
  simp only [failuresApart, Bool.not_eq_true', List.any_eq_false] at allowed
  constructor
  · intro isCallback id row touches found
    have apart := allowed id (wellFormed.submissions.row found)
    by_contra isGiven
    apply apart
    have owns : (before.submissions.pending tid id).isSome ||
        (before.results.pending tid id).isSome := by
      rcases touches with ⟨value, staged⟩ | ⟨result, staged⟩
      · simp [pending_eq_some staged]
      · simp [pending_eq_some staged]
    simp [Store.outlives, isCallback, owns, found,
      Option.isSome_iff_ne_none.mpr isGiven]
  · intro notCallback id value staged isGiven
    have apart := allowed id (wellFormed.submissions.staged staged)
    by_contra graded
    apply apart
    simp [Store.outlives, notCallback, pending_eq_some staged,
      Option.isSome_iff_ne_none.mpr isGiven,
      Option.isSome_iff_ne_none.mpr graded]

/-! ## The contract -/

/-- What may be staged on a submission: a callback keeps the reason, and no
other request gives one without an error. -/
structure ReasonWrite
    (request : Request) (row : Option Submission) (value : Submission) :
    Prop where
  callback :
    request.isCallback → ∃ current, row = some current ∧
      value.errorReason = current.errorReason
  failed :
    request.isCallback = false → value.errorReason ≠ none →
      value.status = .error

/-- The reason of an error is given with it, or is the one of the error that the
row has already. -/
def Explained (row : Option Submission) (value : Submission) : Prop :=
  (∃ reason, value.errorReason = some reason ∧ reason ≠ "") ∨
    ∃ current, row = some current ∧ current.status = .error ∧
      value.errorReason = current.errorReason

/-- The invariant. -/
structure ReasonInv (requests : Nat → Request) (store : Store) : Prop where
  wellFormed : store.WellFormed
  reasons : store.ReasonsMatch
  writes :
    store.submissions.Staged fun tid _ row value =>
      ReasonWrite (requests tid) row value
  explained :
    ∀ {id tid value}, store.submissions.staged id = some (tid, value) →
      value.status = .error →
        store.HasResult tid id ∨ Explained (store.submissions.row id) value
  results :
    ∀ {id tid value}, store.results.staged id = some (tid, value) →
      (requests tid).isCallback ∨ (store.results.row id).isSome

/-- The contract of every thread. -/
def reasonContract (requests : Nat → Request) : Contract Nat Store where
  inv := ReasonInv requests
  guar := fun tid before after =>
    ReasonInv requests after ∧ Store.Moves tid before after
  guar_inv := fun _ guaranteed => guaranteed.1

/-! ## One statement -/

/-- Results do not go away. -/
theorem result_none_before
    {id : String} (moves : Store.Moves tid before after)
    (ungraded : after.results.row id = none) :
    before.results.row id = none := by
  cases stored : before.results.row id with
  | none => rfl
  | some result =>
      have still := moves.results.row_isSome (by rw [stored]; rfl)
      rw [ungraded] at still
      cases still

/-- A COMMIT that keeps failures apart keeps the reasons. -/
theorem ReasonInv.commit
    (inv : ReasonInv requests before)
    (apart : FailureApart (requests tid) tid before) :
    (before.commit tid).ReasonsMatch := by
  have moves := before.moves_commit tid
  have change := fun id => inv.writes.change moves.submissions id
  constructor
  · intro id row found isGiven
    rcases change id with same | ⟨value, staged, committed, write⟩
    · rw [same] at found
      obtain ⟨isError, ungraded⟩ := inv.reasons.failed found isGiven
      refine ⟨isError, ?_⟩
      rcases moves.results.row id with sameResult | ⟨result, staged, -⟩
      · rw [sameResult]
        exact ungraded
      · rcases inv.results staged with isCallback | stored
        · exact absurd (apart.callback isCallback id row
            (Or.inr ⟨result, staged⟩) found) isGiven
        · rw [ungraded] at stored
          cases stored
    · rw [committed] at found
      cases found
      by_cases isCallback : (requests tid).isCallback
      · obtain ⟨current, isCurrent, same⟩ := write.callback isCallback
        have noReason := apart.callback isCallback id current
          (Or.inl ⟨row, staged⟩) isCurrent
        exact absurd (same.trans noReason) isGiven
      · have other := Bool.eq_false_iff.mpr isCallback
        have ungraded := apart.failure other id row staged isGiven
        refine ⟨write.failed other isGiven, ?_⟩
        rcases moves.results.row id with sameResult | ⟨result, stagedResult, -⟩
        · rw [sameResult]
          exact ungraded
        · rcases inv.results stagedResult with callback | stored
          · exact absurd callback isCallback
          · rw [ungraded] at stored
            cases stored
  · intro id row found isError stillUngraded
    have ungraded := result_none_before moves stillUngraded
    rcases change id with same | ⟨value, staged, committed, -⟩
    · rw [same] at found
      exact inv.reasons.given found isError ungraded
    · rw [committed] at found
      cases found
      rcases inv.explained staged isError with has | isGiven |
        ⟨current, isCurrent, wasError, same⟩
      · rcases has with stored | ⟨result, stagedResult⟩
        · rw [ungraded] at stored
          cases stored
        · have stored : (before.commit tid).results.row id = some result :=
            row_commit_of_staged stagedResult
          rw [stillUngraded] at stored
          cases stored
      · exact isGiven
      · rw [same]
        exact inv.reasons.given isCurrent wasError ungraded

/-- A statement keeps the contract if the writes that it stages do. -/
theorem ReasonInv.step
    (inv : ReasonInv requests before)
    (executes : exec platform op tid answer before = some (resp, after))
    (allowed : failuresApart requests tid op before)
    (own :
      ∀ id value, SubmissionWrite before op id value →
        ReasonWrite (requests tid) (before.submissions.row id) value ∧
          (value.status = .error →
            before.HasResult tid id ∨
              Explained (before.submissions.row id) value))
    (ownResult :
      ∀ id value, ResultWrite before op id value →
        (requests tid).isCallback ∨ (before.results.row id).isSome) :
    (reasonContract requests).guar tid before after := by
  have wellFormed := inv.wellFormed
  have submissions := exec_submissions wellFormed.submissions executes
  have results := exec_results wellFormed.results executes
  have moves := wellFormed.moves executes
  refine ⟨⟨wellFormed.exec executes, ?_, ?_, ?_, ?_⟩, moves⟩
  · by_cases committing : op = .commit
    · subst committing
      cases executes
      exact inv.commit (failureApart wellFormed allowed)
    · have sameRows := submissions.row_of_not_commits committing
      have sameResults := results.row_of_not_commits committing
      constructor
      · intro id row found
        rw [sameRows] at found
        rw [sameResults]
        exact inv.reasons.failed found
      · intro id row found
        rw [sameRows] at found
        rw [sameResults]
        exact inv.reasons.given found
  · exact inv.writes.acts submissions fun id value write =>
      (own id value write).1
  · intro id owner value staged isError
    rcases submissions.staged staged with earlier | ⟨rfl, -, rows, permitted⟩
    · have sameRow : after.submissions.row id = before.submissions.row id := by
        by_cases same : owner = tid
        · subst same
          exact submissions.row_of_staged staged
        · exact moves.submissions.row_of_locked same earlier
      rw [sameRow]
      refine (inv.explained earlier isError).imp_left fun has => ?_
      by_cases same : owner = tid
      · subst same
        by_cases rolling : op = .rollback
        · subst rolling
          cases executes
          exact absurd rfl (unlock_eq_some_iff.mp staged).2
        · exact has.own wellFormed executes rolling
      · exact has.moves moves same
    · rw [rows]
      refine ((own id value permitted).2 isError).imp_left fun has => ?_
      have staging : op ≠ .rollback := by
        rintro rfl
        cases permitted
      exact has.own wellFormed executes staging
  · intro id owner value staged
    rcases results.staged staged with earlier | ⟨rfl, -, -, permitted⟩
    · exact (inv.results earlier).imp_right moves.results.row_isSome
    · exact (ownResult id value permitted).imp_right moves.results.row_isSome

/-- A statement that writes no submission and no result. -/
theorem reason_quiet
    (inv : ReasonInv requests before)
    (allowed : failuresApart requests tid op before)
    (executes : exec platform op tid answer before = some (resp, after))
    (noSubmission : ¬op.writesSubmission) (noResult : ¬op.writesResult) :
    (reasonContract requests).guar tid before after :=
  inv.step executes allowed
    (fun _ _ write => absurd write.writes noSubmission)
    fun _ _ write => absurd write.writes noResult

/-- A statement of a request that is not a callback. -/
theorem reason_ordinary
    (notCallback : (requests tid).isCallback = false)
    (inv : ReasonInv requests before)
    (allowed : failuresApart requests tid op before)
    (executes : exec platform op tid answer before = some (resp, after))
    (statement : op.submitting ∨ op.erasing) :
    (reasonContract requests).guar tid before after := by
  have noCallback : ¬(requests tid).isCallback := by
    rw [notCallback]
    exact Bool.false_ne_true
  refine inv.step executes allowed ?_ ?_
  · intro id value write
    cases write with
    | insert =>
        obtain ⟨isPending, _, noReason, _⟩ :=
          statement.resolve_right fun erasing => erasing
        refine ⟨⟨fun callback => absurd callback noCallback, ?_⟩, ?_⟩
        · intro _ isGiven
          exact absurd noReason isGiven
        · intro isError
          rw [isPending] at isError
          cases isError
    | @cas id expectStatus expectAttempts values row found status attempts =>
        have judges : Op.Judges expectStatus expectAttempts id values :=
          statement.resolve_right fun erasing => erasing
        refine ⟨⟨fun callback => absurd callback noCallback, ?_⟩, ?_⟩
        · intro _ isGiven
          cases judges with
          | claim => exact absurd rfl isGiven
          | fail => rfl
          | accept jobId pending =>
              obtain ⟨isError, _⟩ := inv.reasons.failed found isGiven
              rw [status, pending] at isError
              cases isError
        · intro isError
          cases judges with
          | claim => cases isError
          | fail given => exact Or.inr (Or.inl ⟨_, rfl, given⟩)
          | accept => cases isError
    | save => exact (statement.elim (fun none => none) fun none => none).elim
    | @erase ids tombstone row id found listed =>
        refine ⟨⟨fun callback => absurd callback noCallback, ?_⟩, ?_⟩
        · intro _ isGiven
          exact (inv.reasons.failed found isGiven).1
        · intro isError
          exact Or.inr (Or.inr ⟨row, found, isError, rfl⟩)
  · intro id value write
    cases write with
    | insert => exact (statement.elim (fun none => none) fun none => none).elim
    | save => exact (statement.elim (fun none => none) fun none => none).elim
    | erase found =>
        rw [found]
        exact Or.inr rfl

/-! ## The programs -/

section Triples

/-- The triples of the threads' programs. -/
abbrev ReasonTriple
    (platform : Platform) (requests : Nat → Request) (tid : Nat) {α : Type}
    (pre : Store → Prop) (program : Prog α) (post : α → Store → Prop) :
    Prop :=
  Triple (serving platform requests)
    (fun tid op store => failuresApart requests tid op store)
    (reasonContract requests) tid pre program post

theorem Op.settling.writesNothing {op : Op} (settling : op.settling) :
    ¬op.writesSubmission ∧ ¬op.writesResult := by
  cases op <;> simp_all [Op.settling, Op.metering, Op.notifying,
    Op.writesSubmission, Op.writesResult]

theorem reason_of_settling
    {α : Type} {program : Prog α} (settling : program.All Op.settling) :
    ReasonTriple platform requests tid (fun _ => True) program
      (fun _ _ => True) :=
  Triple.of_all (Contract.stable_const True) (fun _ _ _ => trivial) settling
    fun _ settling _ _ _ _ inv _ allowed executes =>
      ⟨reason_quiet inv allowed executes settling.writesNothing.1
        settling.writesNothing.2, trivial⟩

theorem reason_issue
    {α : Type} {op : Op} {next : Resp op → Prog α} {post : α → Store → Prop}
    (noSubmission : ¬op.writesSubmission) (noResult : ¬op.writesResult)
    (rest :
      ∀ resp, ReasonTriple platform requests tid (fun _ => True)
        (next resp) post) :
    ReasonTriple platform requests tid (fun _ => True)
      (issue op >>= next) post :=
  issue_triple (fun _ _ => True) (Contract.stable_const True)
    (fun _ _ _ => trivial)
    (fun _ _ _ _ inv _ allowed executes =>
      ⟨reason_quiet inv allowed executes noSubmission noResult, trivial⟩) rest

theorem reason_hasResult_stable {id : String} :
    (reasonContract requests).Stable tid (Store.HasResult · tid id) := by
  rintro before after other different - ⟨-, moves⟩ has
  exact has.moves moves different.symm

/-- A statement of a callback on the result. -/
theorem reason_result
    (isCallback : (requests tid).isCallback)
    (inv : ReasonInv requests before)
    (allowed : failuresApart requests tid op before)
    (executes : exec platform op tid answer before = some (resp, after))
    (noSubmission : ¬op.writesSubmission) :
    (reasonContract requests).guar tid before after :=
  inv.step executes allowed
    (fun _ _ write => absurd write.writes noSubmission)
    fun _ _ _ => Or.inl isCallback

theorem reason_upsertResult {graded : AssessmentResult}
    (isCallback : (requests tid).isCallback) :
    ReasonTriple platform requests tid (fun _ => True) (upsertResult graded)
      (fun stored store =>
        stored → store.HasResult tid graded.submissionId) := by
  unfold upsertResult
  refine issue_triple
    (fun found store =>
      found.isSome → store.HasResult tid graded.submissionId)
    (Contract.stable_const True) (fun _ _ _ => trivial) ?_ ?_
  · rintro store answer found after inv - allowed executes
    have quiet := reason_quiet inv allowed executes not_false not_false
    cases executes
    exact ⟨quiet, fun stored => Or.inl stored⟩
  rintro (_ | existing)
  · refine last_triple (reason_hasResult_stable.imp) (fun _ _ _ => trivial)
      ?_ ?_
    · intro inserted
      exact reason_hasResult_stable.imp
    rintro store answer inserted after inv - allowed executes
    refine ⟨reason_result isCallback inv allowed executes not_false, ?_⟩
    simp only [exec, Option.map_eq_some_iff] at executes
    obtain ⟨⟨_, table⟩, tried, equal⟩ := executes
    cases equal
    intro isInserted
    rcases tryInsert_cases tried with ⟨-, rfl, -⟩ | ⟨refused, -⟩
    · exact Or.inr ⟨graded, by simp⟩
    · rw [refused] at isInserted
      cases isInserted
  · refine issue_triple
      (fun _ store => store.HasResult tid graded.submissionId)
      reason_hasResult_stable.imp (fun _ _ _ => trivial) ?_ fun _ => ?_
    · rintro store answer saved after inv has allowed executes
      exact ⟨reason_result isCallback inv allowed executes not_false,
        (has rfl).own inv.wellFormed executes nofun⟩
    · exact Triple.ret reason_hasResult_stable fun _ _ has _ => has

/-- A callback saves its copy of a submission: an error comes with a result. -/
theorem reason_save
    {sub new : Submission} (isCallback : (requests tid).isCallback)
    (inv : ReasonInv requests before)
    (stored : new.status = .error → before.HasResult tid sub.id)
    (executes :
      exec platform (.saveSubmission sub new) tid answer before =
        some ((), after)) :
    (reasonContract requests).guar tid before after := by
  refine inv.step executes rfl ?_ fun _ _ write => nomatch write
  intro id value write
  cases write with
  | @save _ _ row found =>
      refine ⟨⟨fun _ => ⟨row, found, rfl⟩, ?_⟩, ?_⟩
      · intro other
        rw [isCallback] at other
        cases other
      · intro isError
        by_cases same : new.status = sub.status
        · refine Or.inr (Or.inr ⟨row, found, ?_, rfl⟩)
          simpa [Submission.flush, changed, same] using isError
        · refine Or.inl (stored ?_)
          simpa [Submission.flush, changed, same] using isError

theorem reason_storeGrade
    {payload : Payload} {sub : Submission} {graded : AssessmentResult}
    (isCallback : (requests tid).isCallback)
    (isOf : graded.submissionId = sub.id) :
    ReasonTriple platform requests tid (fun _ => True)
      (storeGrade platform payload sub graded) (fun _ _ => True) := by
  unfold storeGrade
  refine Triple.bind (reason_upsertResult isCallback) ?_
  rintro (_ | _)
  · -- the unique key was violated: the transaction is rolled back
    have rolledBack :
        ReasonTriple platform requests tid (fun _ => True)
          (issue .rollback >>= fun _ => pure false) (fun _ _ => True) :=
      reason_issue not_false not_false fun _ =>
        Triple.ret (Contract.stable_const True) fun _ _ holds => holds
    exact rolledBack.strengthen fun _ _ _ => trivial
  refine issue_triple (fun _ _ => True) reason_hasResult_stable.imp
    (fun _ _ _ => trivial) ?_
    fun _ => reason_issue not_false not_false fun _ => Triple.ret
      (Contract.stable_const True) fun _ _ holds => holds
  rintro store answer _ after inv has - executes
  exact ⟨reason_save isCallback inv (fun _ => isOf ▸ has rfl) executes, trivial⟩

theorem reason_landGrade
    {payload : Payload} {sub : Submission}
    (isCallback : (requests tid).isCallback) :
    ReasonTriple platform requests tid (fun _ => True)
      (landGrade platform payload sub) (fun _ _ => True) := by
  unfold landGrade
  split
  case h_2 =>
    exact Triple.ret (Contract.stable_const True) fun _ _ holds => holds
  next graded converts =>
  have isOf := Payload.submissionId_of_result converts
  refine Triple.bind (reason_storeGrade isCallback isOf) fun stored => ?_
  refine reason_of_settling ?_
  split
  · exact Program.All.pure _ _
  · refine Program.All.bind (recordCost_all _ _) fun _ =>
      Program.All.bind ?_ fun _ => Program.All.bind ?_ fun _ =>
        Program.All.pure _ _
    · exact (claimSitting_all _).mono fun _ => Or.inr
    · exact (deliverIfReady_all _).mono fun _ => Or.inr

theorem reason_callback
    {payload : Payload} (isCallback : (requests tid).isCallback) :
    ReasonTriple platform requests tid (fun _ => True)
      (assessmentsCallback platform payload) (fun _ _ => True) := by
  have done {reply : CallbackReply} :
      ReasonTriple platform requests tid (fun _ => True)
        (pure reply : Prog CallbackReply) (fun _ _ => True) :=
    Triple.ret (Contract.stable_const True) fun _ _ holds => holds
  unfold assessmentsCallback
  dsimp only
  split
  · exact done
  split
  case h_2 => exact done
  refine reason_issue not_false not_false fun selected => ?_
  split
  case h_2 => exact done
  refine reason_issue not_false not_false fun found => ?_
  split
  case h_2 => exact done
  split
  · split
    · exact done
    split
    · refine issue_triple (fun _ _ => True) (Contract.stable_const True)
        (fun _ _ _ => trivial) ?_
        fun _ => reason_issue not_false not_false fun _ => done
      rintro store answer _ after inv - - executes
      exact ⟨reason_save isCallback inv (by simp) executes, trivial⟩
    · exact reason_landGrade isCallback
  · exact reason_landGrade isCallback

theorem reason_request :
    ReasonTriple platform requests tid (fun _ => True)
      ((requests tid).program platform) (fun _ _ => True) := by
  by_cases isCallback : (requests tid).isCallback
  · cases request : requests tid with
    | assessmentsCallback payload =>
        exact Triple.bind (reason_callback isCallback) fun _ =>
          Triple.ret (Contract.stable_const True) fun _ _ holds => holds
    | _ =>
        rw [request] at isCallback
        cases isCallback
  · have notCallback := Bool.eq_false_iff.mpr isCallback
    have all : ((requests tid).program platform).All
        fun op => op.submitting ∨ op.erasing := by
      by_cases isErasure : (requests tid).isErasure
      · cases request : requests tid with
        | erase scope email token =>
            exact Program.All.bind
              ((eraseCandidate_all _ _ _).mono fun _ => Or.inr)
              fun _ => Program.All.pure _ _
        | _ =>
            rw [request] at isErasure
            cases isErasure
      · exact (Request.program_submitting notCallback
          (Bool.eq_false_iff.mpr isErasure)).mono fun _ => Or.inl
    exact Triple.of_all (Contract.stable_const True) (fun _ _ _ => trivial) all
      fun _ statement _ _ _ _ inv _ allowed executes =>
        ⟨reason_ordinary notCallback inv allowed executes statement, trivial⟩

end Triples

/-! ## Every run -/

theorem ReasonInv.initial (clock : Time) :
    ReasonInv requests (Store.initial clock) where
  wellFormed := .initial clock
  reasons := ⟨nofun, nofun⟩
  writes := Staged.empty
  explained := nofun
  results := nofun

/-- In every run whose COMMITs keep failures and grades apart, a reason stands
exactly beside an error without a result. -/
theorem reasons_match
    {clock : Time} {config : Config Nat Op Resp Reply Store}
    (reached :
      (serving platform requests).Reaches
        (fun tid op store => failuresApart requests tid op store)
        ((serving platform requests).start (.initial clock)) config) :
    config.store.ReasonsMatch := by
  have holdsStart :
      (reasonContract requests).Holds (serving platform requests)
        (fun tid op store => failuresApart requests tid op store)
        (fun _ _ _ => True)
        ((serving platform requests).start (.initial clock)) :=
    Contract.holds_start (.initial clock) (fun _ => trivial)
      fun _ => reason_request
  exact (holdsStart.reaches reached).1.reasons

/-! ## Concrete runs -/

/-- A direct submission, the reaper, and the agent's verdict. -/
def answersLate : Nat → Request
  | 0 => Sample.direct
  | 1 => .passTime (1000 * 1000000)
  | 2 => .reapTick
  | 3 => .assessmentsCallback (Sample.verdict "PASS")
  | _ => .idle

/-- Submission `s` is graded, and still has the reason of a failure. -/
def gradedWithReason (store : Store) : Bool :=
  Sample.statusIs store .done &&
    (store.submissions.row "s").any fun row => row.errorReason.isSome

/-- The reaper gives the submission up, and the verdict comes after that: the
callback stores it and leaves the reason where it is. -/
theorem reason_outlives_failure :
    ∃ config,
      (serving (Sample.platform 1) answersLate).Reaches System.anyRun
        ((serving (Sample.platform 1) answersLate).start (.initial 0)) config ∧
      ¬config.store.ReasonsMatch := by
  have ran :
      ((serving (Sample.platform 1) answersLate).runSchedule
        (fun _ _ _ => true)
        ((serving (Sample.platform 1) answersLate).start (.initial 0))
        (Sample.steps 0 13 ++ Sample.steps 1 1 ++ Sample.steps 2 7 ++
          Sample.steps 3 7)).any
        fun config => gradedWithReason config.store := by
    decide +kernel
  obtain ⟨config, reached, seen⟩ :=
    System.exists_of_runSchedule (fun _ _ _ _ => trivial) ran
  refine ⟨config, reached, fun matched => ?_⟩
  simp only [gradedWithReason, Sample.statusIs, Bool.and_eq_true, beq_iff_eq,
    Option.map_eq_some_iff, Option.any_eq_true] at seen
  obtain ⟨⟨row, found, isDone⟩, same, foundSame, isGiven⟩ := seen
  rw [found] at foundSame
  cases foundSame
  have isError := (matched.failed found (Option.isSome_iff_ne_none.mp isGiven)).1
  rw [isDone] at isError
  cases isError

/-- The agent refuses the submission. -/
def refusedAtOnce : Nat → Request
  | 0 => Sample.direct
  | _ => .idle

theorem reasons_match_refused :
    ∃ config : Config Nat Op Resp Reply Store,
      Sample.statusIs config.store .error ∧ config.store.ReasonsMatch := by
  have ran :
      ((serving (Sample.platform 1) refusedAtOnce).runSchedule
        (failuresApart refusedAtOnce)
        ((serving (Sample.platform 1) refusedAtOnce).start (.initial 0))
        (List.replicate 14 (0, .refused "no"))).any
        fun config => Sample.statusIs config.store .error := by
    decide +kernel
  obtain ⟨config, reached, isError⟩ :=
    System.exists_of_runSchedule (fun _ _ _ permitted => permitted) ran
  exact ⟨config, isError, reasons_match reached⟩

end AssessmentPlatform
