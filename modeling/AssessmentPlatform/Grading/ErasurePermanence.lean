import AssessmentPlatform.Grading.Effects
import AssessmentPlatform.Grading.Sample
import AssessmentPlatform.Grading.Statements

/-!
# Erased submissions stay erased

An erasure is one transaction, but a job posted before it answers afterwards.
Every writer leaves the name, the address and the code of a submission alone;
the result is kept erased as long as no callback commits one for a submission
whose erasure has begun.
-/

namespace AssessmentPlatform

open Interleaving RowTable

variable {platform : Platform} {requests : Nat → Request} {tid : Nat}
variable {answer : AgentAnswer} {op : Op} {before after : Store}
variable {resp : Resp op}

/-! ## The record of erasures -/

/-- Which submissions erasures have come to: those whose result an erasure has
been through, those that an open transaction has erased, and those whose
erasure is committed. -/
structure ErasureLog where
  begun : List String
  pending : Nat → List String
  erased : List String

/-- Before any erasure. -/
def ErasureLog.empty : ErasureLog where
  begun := []
  pending := fun _ => []
  erased := []

/-- What the statements of an erasure record. -/
def recordErasure :
    (op : Op) → Nat → Resp op → Store → Store → ErasureLog → ErasureLog
  | .eraseResults ids, _, _, _, _, log =>
      { log with begun := log.begun ++ ids }
  | .eraseSubmissions ids _, tid, _, _, _, log =>
      { log with pending := Function.update log.pending tid ids }
  | .commit, tid, _, _, _, log =>
      { log with
        pending := Function.update log.pending tid []
        erased := log.erased ++ log.pending tid }
  | .rollback, tid, _, _, _, log =>
      { log with pending := Function.update log.pending tid [] }
  | _, _, _, _, _, log => log

/-! ## What is to be kept -/

/-- Nothing of the candidate is left in the submission. -/
structure Submission.Erased (row : Submission) : Prop where
  candidate : row.candidate = erasedName
  address : ∃ token, row.candidateEmail = some (tombstoneOf token)
  code : row.code = ""

/-- Nothing of the candidate is left in the result. -/
structure AssessmentResult.Erased (row : AssessmentResult) : Prop where
  fullResult : row.fullResult = erasedResult
  reason : row.reason = erasedReason

/-- The candidate's name, address and code are the same. -/
structure Submission.SameContent (row later : Submission) : Prop where
  candidate : later.candidate = row.candidate
  address : later.candidateEmail = row.candidateEmail
  code : later.code = row.code

theorem Submission.Erased.sameContent
    {row later : Submission} (erased : row.Erased)
    (same : row.SameContent later) :
    later.Erased where
  candidate := same.candidate.trans erased.candidate
  address := erased.address.imp fun _ address => same.address.trans address
  code := same.code.trans erased.code

/-- The submission and its result carry nothing of the candidate. -/
structure Store.ErasedAt (store : Store) (id : String) : Prop where
  submission : ∃ row, store.submissions.row id = some row ∧ row.Erased
  result : ∀ {row}, store.results.row id = some row → row.Erased

/-- No callback commits a result of a submission whose erasure has begun. -/
def noLateResult (requests : Nat → Request) :
    Nat → Op → Store × ErasureLog → Prop
  | tid, .commit, (store, log) =>
      (requests tid).isCallback → ∀ id result,
        store.results.staged id = some (tid, result) → id ∉ log.begun
  | _, _, _ => True

/-! ## The contract -/

/-- What may be staged on a submission: its content as it is, or erased. -/
def ContentWrite
    (request : Request) (row : Option Submission) (value : Submission) :
    Prop :=
  ∀ current, row = some current →
    current.SameContent value ∨ request.isErasure ∧ value.Erased

/-- What may be staged on a result: anything by a callback, else its
erasure. -/
def ResultContentWrite (request : Request) (value : AssessmentResult) :
    Prop :=
  request.isCallback ∨ value.Erased

/-- The result of a submission is erased, or `tid` is about to make it so. -/
def Store.Covered (store : Store) (tid : Nat) (id : String) : Prop :=
  (∀ row, store.results.row id = some row → row.Erased) ∨
    ∃ value, store.results.staged id = some (tid, value) ∧ value.Erased

/-- `tid` has erased the submission and its result, and has to commit. -/
structure Pending
    (tid : Nat) (id : String) (store : Store) (log : ErasureLog) : Prop where
  begun : id ∈ log.begun
  covered : store.Covered tid id
  staged :
    ∃ value, store.submissions.staged id = some (tid, value) ∧ value.Erased

/-- The invariant. -/
structure ErasureInv
    (requests : Nat → Request) (store : Store) (log : ErasureLog) :
    Prop where
  wellFormed : store.WellFormed
  writes :
    store.submissions.Staged fun tid _ row value =>
      ContentWrite (requests tid) row value
  results :
    store.results.Staged fun tid _ _ value =>
      ResultContentWrite (requests tid) value
  erasedBegun : ∀ id ∈ log.erased, id ∈ log.begun
  erased : ∀ id ∈ log.erased, store.ErasedAt id
  pending : ∀ tid, ∀ id ∈ log.pending tid, Pending tid id store log

/-- What others see of a step: of a result whose erasure has begun, only that it
is erased. -/
structure ErasureStep
    (tid : Nat) (before after : Store × ErasureLog) : Prop where
  moves : Store.Moves tid before.1 after.1
  begun : ∀ id ∈ before.2.begun, id ∈ after.2.begun
  results :
    ∀ id ∈ before.2.begun,
      after.1.results.row id = before.1.results.row id ∨
        ∃ row, after.1.results.row id = some row ∧ row.Erased

/-- The contract of every thread. -/
def erasureContract (requests : Nat → Request) :
    Contract Nat (Store × ErasureLog) where
  inv := fun recorded => ErasureInv requests recorded.1 recorded.2
  guar := fun tid before after =>
    ErasureInv requests after.1 after.2 ∧ ErasureStep tid before after
  guar_inv := fun _ guaranteed => guaranteed.1

/-- Others do not uncover a result. -/
theorem Store.Covered.moves
    {owner : Nat} {id : String} (covered : before.Covered owner id)
    (moves : Store.Moves tid before after)
    (results :
      after.results.row id = before.results.row id ∨
        ∃ row, after.results.row id = some row ∧ row.Erased)
    (different : owner ≠ tid) :
    after.Covered owner id := by
  rcases covered with erased | ⟨value, staged, isErased⟩
  · refine Or.inl fun row found => ?_
    rcases results with same | ⟨later, foundLater, isErased⟩
    · exact erased row (same ▸ found)
    · rw [foundLater] at found
      cases found
      exact isErased
  · exact
      Or.inr
        ⟨value, (moves.results.others different).mpr staged, isErased⟩

/-! ## One statement -/

section Step

variable {log : ErasureLog} {id : String}

theorem begun_recordErasure (member : id ∈ log.begun) :
    id ∈ (recordErasure op tid resp before after log).begun := by
  cases op with
  | eraseResults ids => exact List.mem_append_left _ member
  | _ => exact member

theorem erased_recordErasure
    (member : id ∈ (recordErasure op tid resp before after log).erased) :
    id ∈ log.erased ∨ op = .commit ∧ id ∈ log.pending tid := by
  cases op with
  | commit =>
      exact (List.mem_append.mp member).imp_right fun pending =>
        ⟨rfl, pending⟩
  | _ => exact Or.inl member

theorem pending_recordErasure
    {owner : Nat}
    (member : id ∈ (recordErasure op tid resp before after log).pending owner) :
    (id ∈ log.pending owner ∧
      (owner = tid → op ≠ .commit ∧ op ≠ .rollback)) ∨
    owner = tid ∧ ∃ ids tombstone, op = .eraseSubmissions ids tombstone ∧
      id ∈ ids := by
  by_cases same : owner = tid
  · subst same
    cases op with
    | eraseSubmissions ids tombstone =>
        simp only [recordErasure, Function.update_self] at member
        exact Or.inr ⟨rfl, ids, tombstone, rfl, member⟩
    | commit => simp [recordErasure] at member
    | rollback => simp [recordErasure] at member
    | _ => exact Or.inl ⟨member, fun _ => ⟨by simp, by simp⟩⟩
  · refine Or.inl ⟨?_, fun equal => absurd equal same⟩
    cases op <;>
      simpa [recordErasure, Function.update_of_ne same] using member

/-- A result whose erasure has begun only changes to an erased one. -/
theorem ErasureInv.result_kept
    (inv : ErasureInv requests before log)
    (allowed : noLateResult requests tid op (before, log))
    (executes : exec platform op tid answer before = some (resp, after))
    (begun : id ∈ log.begun) :
    after.results.row id = before.results.row id ∨
      ∃ row, after.results.row id = some row ∧ row.Erased := by
  have results := exec_results inv.wellFormed.results executes
  by_cases committing : op = .commit
  · subst committing
    rcases inv.results.change results.moves id with
      same | ⟨value, staged, committed, byCallback | isErased⟩
    · exact Or.inl same
    · exact absurd begun (allowed byCallback id value staged)
    · exact Or.inr ⟨value, committed, isErased⟩
  · rw [results.row_of_not_commits committing]
    exact Or.inl rfl

/-- A transaction that goes on keeps what it has covered. -/
theorem Store.Covered.own
    (inv : ErasureInv requests before log)
    (covered : before.Covered tid id)
    (executes : exec platform op tid answer before = some (resp, after))
    (ongoing : op ≠ .commit ∧ op ≠ .rollback) :
    after.Covered tid id := by
  have results := exec_results inv.wellFormed.results executes
  rcases covered with erased | ⟨value, staged, isErased⟩
  · refine Or.inl fun row found => erased row ?_
    rw [← results.row_of_not_commits ongoing.1]
    exact found
  · rcases results.own staged with still | ⟨commits, -⟩ | rollsBack
    · exact Or.inr ⟨value, still, isErased⟩
    · exact absurd commits ongoing.1
    · exact absurd rollsBack ongoing.2

/-- A statement keeps the contract if the writes it stages do, and if an UPDATE
that erases submissions has erased their results. -/
theorem ErasureInv.step
    (inv : ErasureInv requests before log)
    (allowed : noLateResult requests tid op (before, log))
    (executes : exec platform op tid answer before = some (resp, after))
    (own :
      ∀ id value, SubmissionWrite before op id value →
        ContentWrite (requests tid) (before.submissions.row id) value)
    (ownResults :
      ∀ id value, ResultWrite before op id value →
        ResultContentWrite (requests tid) value)
    (erases :
      ∀ ids tombstone, op = .eraseSubmissions ids tombstone →
        ∀ id ∈ ids, Pending tid id after log) :
    (erasureContract requests).guar tid (before, log)
      (after, recordErasure op tid resp before after log) := by
  have wellFormed := inv.wellFormed
  have submissions := exec_submissions wellFormed.submissions executes
  have results := exec_results wellFormed.results executes
  have moves := wellFormed.moves executes
  have kept :
      ∀ id ∈ log.begun,
        after.results.row id = before.results.row id ∨
          ∃ row, after.results.row id = some row ∧ row.Erased :=
    fun _ begun => inv.result_kept allowed executes begun
  refine
    ⟨⟨wellFormed.exec executes, inv.writes.acts submissions own,
      inv.results.acts results ownResults, ?_, ?_, ?_⟩,
      moves, fun _ => begun_recordErasure, kept⟩
  · intro id member
    rcases erased_recordErasure member with earlier | ⟨-, pending⟩
    · exact begun_recordErasure (inv.erasedBegun id earlier)
    · exact begun_recordErasure (inv.pending tid id pending).begun
  · intro id member
    rcases erased_recordErasure member with earlier | ⟨rfl, pending⟩
    · obtain ⟨⟨row, found, isErased⟩, result⟩ := inv.erased id earlier
      constructor
      · rcases inv.writes.change moves.submissions id with
          same | ⟨value, -, committed, write⟩
        · exact ⟨row, same ▸ found, isErased⟩
        · refine ⟨value, committed, ?_⟩
          rcases write row found with same | ⟨-, erasedNow⟩
          · exact isErased.sameContent same
          · exact erasedNow
      · intro later foundLater
        rcases kept id (inv.erasedBegun id earlier) with
          same | ⟨erasedRow, foundErased, isErased⟩
        · exact result (same ▸ foundLater)
        · rw [foundErased] at foundLater
          cases foundLater
          exact isErased
    · obtain ⟨begun, covered, value, staged, isErased⟩ :=
        inv.pending tid id pending
      cases executes
      refine ⟨⟨value, row_commit_of_staged staged, isErased⟩, ?_⟩
      intro later foundLater
      rcases covered with erased | ⟨result, stagedResult, resultErased⟩
      · rcases kept id begun with same | ⟨erasedRow, foundErased, isErased⟩
        · exact erased later (same ▸ foundLater)
        · rw [foundErased] at foundLater
          cases foundLater
          exact isErased
      · have committed :
            (before.commit tid).results.row id = some result :=
          row_commit_of_staged stagedResult
        rw [committed] at foundLater
        cases foundLater
        exact resultErased
  · intro owner id member
    rcases pending_recordErasure member with
      ⟨earlier, ongoing⟩ | ⟨rfl, ids, tombstone, rfl, listed⟩
    · obtain ⟨begun, covered, value, staged, isErased⟩ :=
        inv.pending owner id earlier
      by_cases same : owner = tid
      · subst same
        refine
          ⟨begun_recordErasure begun,
            covered.own inv executes (ongoing rfl), value, ?_, isErased⟩
        rcases submissions.own staged with still | ⟨commits, -⟩ | rollsBack
        · exact still
        · exact absurd commits (ongoing rfl).1
        · exact absurd rollsBack (ongoing rfl).2
      · exact
          ⟨begun_recordErasure begun,
            covered.moves moves (kept id begun) same, value,
            (moves.submissions.others same).mpr staged, isErased⟩
    · obtain ⟨begun, covered, staged⟩ := erases ids tombstone rfl id listed
      exact ⟨begun_recordErasure begun, covered, staged⟩

end Step

/-- Statements that erase nothing. -/
def Op.leavesContent : Op → Prop
  | .eraseResults _ | .eraseSubmissions .. => False
  | _ => True

theorem Op.ordinary.leavesContent {op : Op} (ordinary : op.ordinary) :
    op.leavesContent := by
  cases op <;> trivial

theorem Op.ordinary.not_writesResult {op : Op} (ordinary : op.ordinary) :
    ¬op.writesResult := by
  cases op <;> first | exact not_false | exact fun _ => ordinary

theorem Op.recording.leavesContent {op : Op} (recording : op.recording) :
    op.leavesContent := by
  cases op <;>
    first | trivial | exact recording.elim False.elim False.elim

/-- A statement that erases nothing; only a callback's may write a result. -/
theorem erasure_quiet
    {log : ErasureLog} (quiet : op.leavesContent)
    (writer : op.writesResult → (requests tid).isCallback)
    (inv : ErasureInv requests before log)
    (allowed : noLateResult requests tid op (before, log))
    (executes : exec platform op tid answer before = some (resp, after)) :
    (erasureContract requests).guar tid (before, log)
      (after, recordErasure op tid resp before after log) := by
  refine inv.step allowed executes ?_ ?_ ?_
  · intro id value write current found
    cases write with
    | insert fresh =>
        rw [fresh] at found
        cases found
    | cas foundRow =>
        rw [foundRow] at found
        cases found
        exact Or.inl ⟨rfl, rfl, rfl⟩
    | save foundRow =>
        rw [foundRow] at found
        cases found
        exact Or.inl ⟨rfl, rfl, rfl⟩
    | erase => exact quiet.elim
  · exact fun id value write => Or.inl (writer write.writes)
  · rintro ids tombstone rfl
    exact quiet.elim

/-! ## The programs -/

section Triples

/-- The triples of the threads' programs. -/
abbrev ErasureTriple
    (platform : Platform) (requests : Nat → Request) (tid : Nat) {α : Type}
    (pre : Store × ErasureLog → Prop) (program : Prog α)
    (post : α → Store × ErasureLog → Prop) : Prop :=
  Triple ((serving platform requests).withHistory recordErasure)
    (noLateResult requests) (erasureContract requests) tid pre program post

theorem erasure_quiet_program
    {α : Type} {program : Prog α}
    (quiet :
      program.All fun op => op.leavesContent ∧
        (op.writesResult → (requests tid).isCallback)) :
    ErasureTriple platform requests tid (fun _ => True) program
      (fun _ _ => True) :=
  all_recorded (Contract.stable_const True) (fun _ _ _ => trivial) quiet
    fun _ quiet _ _ _ _ _ inv _ allowed executes =>
      ⟨erasure_quiet quiet.1 quiet.2 inv allowed executes, trivial⟩

/-- The submissions of an erasure are there. -/
def Selected (ids : List String) (recorded : Store × ErasureLog) : Prop :=
  ∀ id ∈ ids, (recorded.1.submissions.row id).isSome

/-- The results of the submissions are erased, or about to be. -/
def ResultsCovered
    (tid : Nat) (ids : List String) (recorded : Store × ErasureLog) : Prop :=
  ∀ id ∈ ids, id ∈ recorded.2.begun ∧ recorded.1.Covered tid id

theorem selected_stable {ids : List String} :
    (erasureContract requests).Stable tid (Selected ids) := by
  rintro before after other - - ⟨-, step⟩ selected id member
  exact step.moves.submissions.row_isSome (selected id member)

theorem resultsCovered_stable {ids : List String} :
    (erasureContract requests).Stable tid (ResultsCovered tid ids) := by
  rintro before after other different - ⟨-, step⟩ covered id member
  obtain ⟨begun, isCovered⟩ := covered id member
  exact
    ⟨step.begun id begun,
      isCovered.moves step.moves (step.results id begun) different.symm⟩

theorem eraseResults_establishes {ids : List String} :
    EstablishesRecorded platform recordErasure (noLateResult requests)
      (erasureContract requests) tid (Selected ids) (.eraseResults ids)
      (fun _ recorded =>
        Selected ids recorded ∧ ResultsCovered tid ids recorded) := by
  rintro store log answer _ after inv selected allowed executes
  refine ⟨inv.step allowed executes ?_ ?_ nofun, ?_, ?_⟩
  · exact fun _ _ write => write.writes.elim
  · rintro id value ⟨⟩
    exact Or.inr ⟨rfl, rfl⟩
  · intro id member
    exact (inv.wellFormed.moves executes).submissions.row_isSome
      (selected id member)
  · simp only [exec, Option.map_eq_some_iff] at executes
    obtain ⟨table, tried, equal⟩ := executes
    cases equal
    obtain ⟨-, -, rows, staged⟩ := tryUpdateAll_eq_some tried
    intro id member
    refine ⟨List.mem_append_right _ member, ?_⟩
    cases found : store.results.row id with
    | none =>
        refine Or.inl fun row foundRow => ?_
        rw [rows, found] at foundRow
        cases foundRow
    | some row =>
        have key : row.submissionId = id :=
          inv.wellFormed.resultKeys.row found
        have isSelected :
            id ∈ store.results.select fun row => row.submissionId ∈ ids :=
          mem_select_iff.mpr
            ⟨inv.wellFormed.results.row found, row, found, by
              simpa [key] using member⟩
        refine Or.inr ⟨row.erase, ?_, ⟨rfl, rfl⟩⟩
        rw [staged, if_pos isSelected, found]
        rfl

theorem eraseSubmissions_establishes
    {ids : List String} {token : String}
    (isErasure : (requests tid).isErasure) :
    EstablishesRecorded platform recordErasure (noLateResult requests)
      (erasureContract requests) tid
      (fun recorded => Selected ids recorded ∧ ResultsCovered tid ids recorded)
      (.eraseSubmissions ids (tombstoneOf token)) (fun _ _ => True) := by
  rintro store log answer _ after inv ⟨selected, covered⟩ allowed executes
  refine ⟨inv.step allowed executes ?_ ?_ ?_, trivial⟩
  · rintro id value ⟨⟩ current found
    exact Or.inr ⟨isErasure, rfl, ⟨token, rfl⟩, rfl⟩
  · exact fun _ _ write => write.writes.elim
  · rintro listed tombstone ⟨⟩ id member
    obtain ⟨begun, isCovered⟩ := covered id member
    refine ⟨begun, isCovered.own inv executes ⟨nofun, nofun⟩, ?_⟩
    simp only [exec, Option.map_eq_some_iff] at executes
    obtain ⟨table, tried, equal⟩ := executes
    cases equal
    obtain ⟨-, -, -, staged⟩ := tryUpdateAll_eq_some tried
    obtain ⟨row, found⟩ := Option.isSome_iff_exists.mp (selected id member)
    have key : row.id = id := inv.wellFormed.submissionKeys.row found
    have isSelected : id ∈ store.submissions.select fun row => row.id ∈ ids :=
      mem_select_iff.mpr
        ⟨inv.wellFormed.submissions.row found, row, found, by
          simpa [key] using member⟩
    refine
      ⟨row.erase (tombstoneOf token) store.clock, ?_, rfl, ⟨token, rfl⟩, rfl⟩
    rw [staged, if_pos isSelected, found]
    rfl

theorem eraseCandidate_triple
    {scope : ErasureScope} {email token : String}
    (isErasure : (requests tid).isErasure) :
    ErasureTriple platform requests tid (fun _ => True)
      (eraseCandidate scope email token) (fun _ _ => True) := by
  have rest :
      ErasureTriple platform requests tid (fun _ => True)
        (do
          issue (.eraseAttempts scope email (tombstoneOf token))
          issue .commit)
        (fun _ _ => True) :=
    erasure_quiet_program (Program.All.statement ⟨trivial, False.elim⟩
      fun _ => (Program.all_statement _ _).mpr ⟨trivial, False.elim⟩)
  unfold eraseCandidate
  refine issue_recorded (fun ids => Selected ids)
    (Contract.stable_const True) (fun _ _ _ => trivial) ?_ fun ids => ?_
  · rintro store log answer ids after inv - allowed executes
    refine
      ⟨erasure_quiet trivial False.elim inv allowed executes, ?_⟩
    cases executes
    intro id member
    obtain ⟨-, row, found, -⟩ := mem_select_iff.mp member
    simp [found]
  split
  · refine issue_recorded _ selected_stable (fun _ _ _ => trivial)
      eraseResults_establishes
      fun _ => ?_
    refine issue_recorded _ (selected_stable.and resultsCovered_stable)
      (fun _ _ _ => trivial)
      (eraseSubmissions_establishes isErasure) fun _ => rest
  · exact rest.strengthen fun _ _ _ => trivial

theorem erasure_request_triple :
    ErasureTriple platform requests tid (fun _ => True)
      ((requests tid).program platform) (fun _ _ => True) := by
  cases request : requests tid with
  | erase scope email token =>
      exact Triple.bind (eraseCandidate_triple (by rw [request]; rfl))
        fun _ => erasure_quiet_program (Program.All.pure _ _)
  | assessmentsCallback payload =>
      refine erasure_quiet_program
        (Program.All.bind ?_ fun _ => Program.All.pure _ _)
      exact (assessmentsCallback_all _).mono fun _ recording =>
        ⟨recording.leavesContent, fun _ => by rw [request]; rfl⟩
  | _ =>
      refine erasure_quiet_program ?_
      exact (Request.program_all rfl rfl).mono fun _ ordinary =>
        ⟨ordinary.leavesContent, fun writes =>
          absurd writes ordinary.not_writesResult⟩

end Triples

/-! ## Every run -/

theorem ErasureInv.initial (clock : Time) :
    ErasureInv requests (Store.initial clock) .empty where
  wellFormed := .initial clock
  writes := Staged.empty
  results := Staged.empty
  erasedBegun := nofun
  erased := nofun
  pending := nofun

/-- In every run in which no callback commits a result of a submission whose
erasure has begun, a submission whose erasure is committed and its result carry
nothing of the candidate; and no step but an erasure's changes the name, the
address or the code of any submission. -/
theorem erasure_permanent
    {clock : Time} {config : Config Nat Op Resp Reply (Store × ErasureLog)}
    (reached :
      ((serving platform requests).withHistory recordErasure).Reaches
        (noLateResult requests)
        (((serving platform requests).withHistory recordErasure).start
          (.initial clock, .empty)) config) :
    (∀ id ∈ config.store.2.erased, config.store.1.ErasedAt id) ∧
      ∀ tid after,
        ((serving platform requests).withHistory recordErasure).Step
            (noLateResult requests) tid config after →
          (requests tid).isErasure = false →
            ∀ id row, config.store.1.submissions.row id = some row →
              ∃ later, after.store.1.submissions.row id = some later ∧
                row.SameContent later := by
  have holdsStart :
      (erasureContract requests).Holds
        ((serving platform requests).withHistory recordErasure)
        (noLateResult requests) (fun _ _ _ => True)
        (((serving platform requests).withHistory recordErasure).start
          (.initial clock, .empty)) :=
    Contract.holds_start (.initial clock) (fun _ => trivial)
      fun _ => erasure_request_triple
  have holds := holdsStart.reaches reached
  refine ⟨holds.1.erased, fun tid after step notErasure id row found => ?_⟩
  obtain ⟨⟨-, seen⟩, -⟩ := holds.step step
  rcases holds.1.writes.change seen.moves.submissions id with
    same | ⟨value, -, committed, write⟩
  · exact ⟨row, same ▸ found, rfl, rfl, rfl⟩
  · refine ⟨value, committed, ?_⟩
    rcases write row found with same | ⟨isErasure, -⟩
    · exact same
    · rw [notErasure] at isErasure
      cases isErasure

/-! ## Concrete runs -/

/-- A candidate's submit, the erasure of the candidate, and the verdict. -/
def erasedSubmit : Nat → Request
  | 0 => Sample.candidate
  | 1 => .erase (.organization 1) "c@x" "t"
  | 2 => .assessmentsCallback (Sample.verdict "PASS")
  | _ => .idle

/-- The verdict of a job posted before the erasure arrives after it: its payload
is stored for the erased submission. -/
theorem erasure_undone :
    ∃ config : Config Nat Op Resp Reply (Store × ErasureLog),
      ((serving (Sample.platform 3) erasedSubmit).withHistory
        recordErasure).Reaches System.anyRun
        (((serving (Sample.platform 3) erasedSubmit).withHistory
          recordErasure).start (.initial 0, .empty)) config ∧
      "s" ∈ config.store.2.erased ∧ ¬config.store.1.ErasedAt "s" := by
  have ran :
      (((serving (Sample.platform 3) erasedSubmit).withHistory
        recordErasure).runSchedule (fun _ _ _ => true)
        (((serving (Sample.platform 3) erasedSubmit).withHistory
          recordErasure).start (.initial 0, .empty))
        (Sample.steps 0 27 ++ Sample.steps 1 5 ++ Sample.steps 2 6)).any
        fun config =>
          config.store.2.erased.contains "s" &&
            (config.store.1.results.row "s").any fun row =>
              row.reason != erasedReason := by
    decide +kernel
  obtain ⟨config, reached, seen⟩ :=
    System.exists_of_runSchedule (fun _ _ _ _ => trivial) ran
  simp only [Bool.and_eq_true, List.contains_iff_mem, Option.any_eq_true,
    bne_iff_ne] at seen
  obtain ⟨isErased, row, found, notErased⟩ := seen
  exact
    ⟨config, reached, isErased,
      fun erasedAt => notErased (erasedAt.result found).reason⟩

/-- A candidate's submit, the verdict, and then the erasure. -/
def gradedThenErased : Nat → Request
  | 0 => Sample.candidate
  | 1 => .assessmentsCallback (Sample.verdict "PASS")
  | 2 => .erase (.organization 1) "c@x" "t"
  | _ => .idle

/-- Callbacks commit before the first erasure. -/
def beforeErasures (requests : Nat → Request) :
    Nat → Op → Store × ErasureLog → Bool
  | tid, .commit, recorded =>
      !(requests tid).isCallback || recorded.2.begun.isEmpty
  | _, _, _ => true

theorem erasure_permanent_after_grade :
    ∃ config : Config Nat Op Resp Reply (Store × ErasureLog),
      "s" ∈ config.store.2.erased ∧ config.store.1.ErasedAt "s" := by
  have ran :
      (((serving (Sample.platform 3) gradedThenErased).withHistory
        recordErasure).runSchedule (beforeErasures gradedThenErased)
        (((serving (Sample.platform 3) gradedThenErased).withHistory
          recordErasure).start (.initial 0, .empty))
        (Sample.steps 0 27 ++ Sample.steps 1 6 ++ Sample.steps 2 5)).any
        fun config => config.store.2.erased.contains "s" := by
    decide +kernel
  have sound :
      ∀ tid op recorded, beforeErasures gradedThenErased tid op recorded →
        noLateResult gradedThenErased tid op recorded := by
    rintro tid op ⟨store, log⟩ permitted
    cases op with
    | commit =>
        intro isCallback id result _ begun
        simp only [beforeErasures, isCallback, Bool.not_true, Bool.false_or,
          List.isEmpty_iff] at permitted
        rw [permitted] at begun
        cases begun
    | _ => trivial
  obtain ⟨config, reached, isErased⟩ := System.exists_of_runSchedule sound ran
  rw [List.contains_iff_mem] at isErased
  exact ⟨config, isErased, (erasure_permanent reached).1 "s" isErased⟩

end AssessmentPlatform
