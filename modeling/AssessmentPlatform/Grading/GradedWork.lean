import AssessmentPlatform.Grading.Effects
import AssessmentPlatform.Grading.Sample
import AssessmentPlatform.Grading.Statements

/-!
# The work that is graded

A trigger posts the code and the language that its session has loaded, long
after the submission was committed.  No writer but an erasure touches them, so a
call posts what was submitted unless the copy that it posts is an erased one.
-/

namespace AssessmentPlatform

open Interleaving RowTable

/-! ## Retention sweeps -/

/-- A sitting that a sweep erases, with the random half of its pseudonym. -/
structure ExpiredSitting where
  inviteId : Nat
  email : String
  token : String
  deriving DecidableEq, Repr

namespace Sweep

/-- `erase_sitting`, on the submissions, their results and the attempt. -/
def eraseSitting (sitting : ExpiredSitting) : Prog Unit := do
  let scope := ErasureScope.sitting sitting.inviteId
  let ids ← issue (.selectErasable scope sitting.email)
  if ids ≠ [] then
    issue (.eraseResults ids)
    issue (.eraseSubmissions ids (tombstoneOf sitting.token))
  issue (.eraseAttempts scope sitting.email (tombstoneOf sitting.token))

/-- The loop over the expired sittings of one organisation, each there once,
and its commit. -/
def purgeOrganization : List ExpiredSitting → Prog Unit
  | [] => issue .commit
  | sitting :: rest => do
      eraseSitting sitting
      purgeOrganization rest

/-- `purge_expired`, organisation by organisation.  Which sittings have expired
is left open. -/
def purgeExpired : List (List ExpiredSitting) → Prog Unit
  | [] => return ()
  | sittings :: rest => do
      purgeOrganization sittings
      purgeExpired rest

end Sweep

/-- What one thread does: a request, or a retention sweep. -/
inductive Job where
  | request (request : Request)
  | purgeExpired (sittings : List (List ExpiredSitting))
  deriving DecidableEq, Repr

/-- The program of a job. -/
def Job.program (platform : Platform) : Job → Prog Reply
  | .request served => served.program platform
  | .purgeExpired sittings => do
      Sweep.purgeExpired sittings
      return .done

/-- The platform at work on the jobs of its threads. -/
@[reducible]
def working (platform : Platform) (jobs : Nat → Job) :
    System Nat Op Resp AgentAnswer Reply Store where
  exec := exec platform
  program := fun tid => (jobs tid).program platform

/-! ## The work -/

/-- What is graded of a submission. -/
structure Work where
  language : String
  code : String
  deriving DecidableEq, Repr

/-- The work of a submission. -/
def Submission.work (row : Submission) : Work :=
  ⟨row.language, row.code⟩

/-- The work that a trigger call carries. -/
def TriggerCall.work (call : TriggerCall) : Work :=
  ⟨call.language, call.code⟩

/-- The work that each submission was committed with. -/
abbrev SubmittedLog := String → Option Work

/-- A COMMIT records the work of the submissions that it is the first to
commit. -/
def recordSubmitted :
    (op : Op) → Nat → Resp op → Store → Store → SubmittedLog → SubmittedLog
  | .commit, _, _, _, after, log => fun id =>
      (log id).or ((after.submissions.row id).map Submission.work)
  | _, _, _, _, _, log => log

/-- `privacy.is_erased` -/
def isErasedAddress (address : String) : Bool :=
  ("@" ++ tombstoneDomain).toList.isSuffixOf address.toList

/-- `privacy.is_erased`, of a submission's address. -/
def Submission.isErased (row : Submission) : Bool :=
  row.candidateEmail.any isErasedAddress

theorem isErasedAddress_tombstoneOf (token : String) :
    isErasedAddress (tombstoneOf token) := by
  unfold isErasedAddress tombstoneOf
  rw [List.isSuffixOf_iff_suffix]
  refine ⟨("erased-" ++ token).toList, ?_⟩
  rw [← String.toList_append]
  simp only [String.append_assoc]

/-- No trigger posts an erased copy of its submission. -/
def postsLive : Nat → Op → Store → Prop
  | _, .trigger _ job, _ => job.isErased = false
  | _, _, _ => True

/-- Every call carries what was committed when its submission was made. -/
def Store.PostsSubmitted (store : Store) (log : SubmittedLog) : Prop :=
  ∀ call ∈ store.calls, log call.submissionId = some call.work

/-! ## The contract -/

/-- A row or a copy has the work that was submitted, or is erased. -/
def Submission.Carries (row : Submission) (submitted : Option Work) : Prop :=
  submitted = some row.work ∨ submitted.isSome ∧ row.isErased

/-- What may be staged on a submission: an erasure, or its work and its address
as they are. -/
def WorkWrite (row : Option Submission) (value : Submission) : Prop :=
  ∀ current, row = some current →
    value.isErased ∨
      value.work = current.work ∧
        value.candidateEmail = current.candidateEmail

/-- The invariant. -/
structure WorkInv (store : Store) (log : SubmittedLog) : Prop where
  wellFormed : store.WellFormed
  committed :
    ∀ {id}, (log id).isSome → (store.submissions.row id).isSome
  rows :
    ∀ {id row}, store.submissions.row id = some row → row.Carries (log id)
  writes : store.submissions.Staged fun _ _ row value => WorkWrite row value
  copies :
    ∀ {tid id copy}, store.session tid id = some copy → copy.Carries (log id)
  posted : store.PostsSubmitted log

/-- What is recorded stays. -/
def SubmittedLog.Grows (before after : SubmittedLog) : Prop :=
  ∀ id, (before id).isSome → after id = before id

/-- The contract of every thread. -/
def workContract : Contract Nat (Store × SubmittedLog) where
  inv := fun recorded => WorkInv recorded.1 recorded.2
  guar := fun _ before after =>
    WorkInv after.1 after.2 ∧ before.2.Grows after.2
  guar_inv := fun _ guaranteed => guaranteed.1

/-! ## One statement -/

section Step

variable {platform : Platform} {tid : Nat} {answer : AgentAnswer} {op : Op}
variable {before after : Store} {resp : Resp op} {log later : SubmittedLog}
variable {row value : Submission} {id : String}

theorem Submission.Carries.isSome
    (carries : row.Carries (log id)) : (log id).isSome := by
  rcases carries with same | ⟨isSome, -⟩
  · rw [same]
    rfl
  · exact isSome

theorem Submission.Carries.grows
    (carries : row.Carries (log id)) (grows : log.Grows later) :
    row.Carries (later id) := by
  rw [grows id carries.isSome]
  exact carries

/-- A write on a row that carries its work leaves one that does. -/
theorem Submission.Carries.write
    (carries : row.Carries (log id)) (write : WorkWrite (some row) value) :
    value.Carries (log id) := by
  rcases write row rfl with isErased | ⟨sameWork, sameAddress⟩
  · exact Or.inr ⟨carries.isSome, isErased⟩
  · rcases carries with same | ⟨isSome, isErased⟩
    · exact Or.inl (by rw [sameWork, same])
    · refine Or.inr ⟨isSome, ?_⟩
      unfold Submission.isErased
      rw [sameAddress]
      exact isErased

theorem grows_recordSubmitted :
    log.Grows (recordSubmitted op tid resp before after log) := by
  intro id isSome
  cases op with
  | commit =>
      obtain ⟨work, recorded⟩ := Option.isSome_iff_exists.mp isSome
      simp [recordSubmitted, recorded]
  | _ => rfl

/-- A trigger posts a copy that carries its work, and an erasure writes a
pseudonym. -/
def Op.keepsWork (log : SubmittedLog) : Op → Prop
  | .trigger _ job => job.Carries (log job.id)
  | .eraseSubmissions _ tombstone => isErasedAddress tombstone
  | _ => True

theorem SubmissionWrite.workWrite
    (write : SubmissionWrite before op id value) (keeps : op.keepsWork log) :
    WorkWrite (before.submissions.row id) value := by
  intro current found
  cases write with
  | insert fresh =>
      rw [fresh] at found
      cases found
  | cas foundRow =>
      rw [foundRow] at found
      cases found
      exact Or.inr ⟨rfl, rfl⟩
  | save foundRow =>
      rw [foundRow] at found
      cases found
      exact Or.inr ⟨rfl, rfl⟩
  | erase => exact Or.inl keeps

/-- A committed row carries its work: it did before, or this is the COMMIT of
its insertion or of a write on it. -/
theorem WorkInv.rows_after
    (inv : WorkInv before log)
    (executes : exec platform op tid answer before = some (resp, after))
    (found : after.submissions.row id = some row) :
    row.Carries (recordSubmitted op tid resp before after log id) := by
  have acts := exec_submissions inv.wellFormed.submissions executes
  by_cases committing : op = .commit
  · subst committing
    cases current : before.submissions.row id with
    | none =>
        have unrecorded : log id = none := by
          by_contra isRecorded
          have there :=
            inv.committed (Option.isSome_iff_ne_none.mpr isRecorded)
          rw [current] at there
          cases there
        exact Or.inl (by simp [recordSubmitted, unrecorded, found])
    | some earlier =>
        have carries : earlier.Carries (log id) := inv.rows current
        have still : row.Carries (log id) := by
          rcases inv.writes.change acts.moves id with
            same | ⟨value, -, committed, write⟩
          · rw [same, current] at found
            cases found
            exact carries
          · rw [committed] at found
            cases found
            rw [current] at write
            exact carries.write write
        exact still.grows grows_recordSubmitted
  · rw [acts.row_of_not_commits committing] at found
    exact (inv.rows found).grows grows_recordSubmitted

/-- A statement that keeps the work keeps the contract. -/
theorem WorkInv.step
    (inv : WorkInv before log) (allowed : postsLive tid op before)
    (keeps : op.keepsWork log)
    (executes : exec platform op tid answer before = some (resp, after)) :
    workContract.guar tid (before, log)
      (after, recordSubmitted op tid resp before after log) := by
  have acts := exec_submissions inv.wellFormed.submissions executes
  have grows : log.Grows (recordSubmitted op tid resp before after log) :=
    grows_recordSubmitted
  refine ⟨⟨inv.wellFormed.exec executes, ?_, inv.rows_after executes, ?_, ?_,
    ?_⟩, grows⟩
  · intro id isSome
    by_cases committing : op = .commit
    · subst committing
      rcases Option.isSome_iff_exists.mp isSome with ⟨work, recorded⟩
      rcases Option.or_eq_some_iff.mp recorded with earlier | ⟨-, now⟩
      · refine acts.moves.row_isSome (inv.committed ?_)
        rw [earlier]
        rfl
      · obtain ⟨row, found, -⟩ := Option.map_eq_some_iff.mp now
        exact Option.isSome_iff_exists.mpr ⟨row, found⟩
    · have same : recordSubmitted op tid resp before after log = log := by
        cases op <;> first | rfl | exact absurd rfl committing
      rw [same] at isSome
      exact acts.moves.row_isSome (inv.committed isSome)
  · exact inv.writes.acts acts fun _ _ write => write.workWrite keeps
  · intro owner id copy copied
    by_cases same : owner = tid
    · subst same
      rcases exec_copy executes copied with earlier | committed
      · exact (inv.copies earlier).grows grows
      · exact (inv.rows committed).grows grows
    · rw [exec_session executes same] at copied
      exact (inv.copies copied).grows grows
  · intro call member
    by_cases calling : op.callsAgent
    · cases op with
      | trigger attempt job =>
          cases executes
          rcases List.mem_append.mp member with earlier | isLast
          · exact inv.posted call earlier
          · rw [List.mem_singleton.mp isLast]
            rcases keeps with same | ⟨-, isErased⟩
            · exact same
            · have live : job.isErased = false := allowed
              rw [live] at isErased
              cases isErased
      | _ => exact calling.elim
    · rw [exec_calls executes calling] at member
      have recorded := inv.posted call member
      exact (grows _ (by rw [recorded]; rfl)).trans recorded

end Step

/-! ## The programs -/

section Triples

variable {platform : Platform} {jobs : Nat → Job} {tid : Nat}

/-- The triples of the threads' programs. -/
abbrev WorkTriple
    (platform : Platform) (jobs : Nat → Job) (tid : Nat) {α : Type}
    (pre : Store × SubmittedLog → Prop) (program : Prog α)
    (post : α → Store × SubmittedLog → Prop) : Prop :=
  Triple ((working platform jobs).withHistory recordSubmitted)
    (System.ignoringHistory postsLive) workContract tid pre program post

/-- One statement, then the rest of the program. -/
theorem issue_work
    {α : Type} {op : Op} {next : Resp op → Prog α}
    {pre : Store × SubmittedLog → Prop}
    {post : α → Store × SubmittedLog → Prop}
    (middle : Resp op → Store × SubmittedLog → Prop)
    (stable : workContract.Stable tid pre)
    (keeps :
      ∀ store log, WorkInv store log → pre (store, log) → op.keepsWork log)
    (step :
      ∀ store log answer resp after, WorkInv store log →
        exec platform op tid answer store = some (resp, after) →
          middle resp (after, recordSubmitted op tid resp store after log))
    (rest :
      ∀ resp, WorkTriple platform jobs tid (middle resp) (next resp) post) :
    WorkTriple platform jobs tid pre (issue op >>= next) post := by
  refine Triple.statement middle stable (fun _ _ _ => trivial) ?_ rest
  rintro ⟨store, log⟩ answer resp recorded inv holds allowed executes
  obtain ⟨⟨_, after⟩, executesStore, equal⟩ :=
    Option.map_eq_some_iff.mp executes
  cases equal
  exact ⟨inv.step allowed (keeps store log inv holds) executesStore,
    step store log answer resp after inv executesStore⟩

/-- The statement posts nothing, and erases under pseudonyms only. -/
def Op.unposting (op : Op) : Prop :=
  ∀ log, op.keepsWork log

theorem issue_unposting
    {α : Type} {op : Op} {next : Resp op → Prog α}
    {post : α → Store × SubmittedLog → Prop}
    (unposting : op.unposting)
    (rest :
      ∀ resp, WorkTriple platform jobs tid (fun _ => True) (next resp) post) :
    WorkTriple platform jobs tid (fun _ => True) (issue op >>= next) post :=
  issue_work (fun _ _ => True) (Contract.stable_const True)
    (fun _ log _ _ => unposting log) (fun _ _ _ _ _ _ _ => trivial) rest

theorem work_of_unposting
    {α : Type} {program : Prog α} (all : program.All Op.unposting) :
    WorkTriple platform jobs tid (fun _ => True) program
      (fun _ _ => True) := by
  induction program with
  | ret value =>
      exact Triple.ret (Contract.stable_const True) fun _ _ _ => trivial
  | perform op next inductionHypothesis =>
      exact issue_unposting all.1 fun resp =>
        inductionHypothesis resp (all.2 resp)

theorem Op.notifying.unposting {op : Op} (notifying : op.notifying) :
    op.unposting := by
  intro log
  cases op <;> first | exact notifying.elim | trivial

theorem Op.recording.unposting {op : Op} (recording : op.recording) :
    op.unposting := by
  intro log
  cases op <;> first | trivial | exact recording.elim False.elim False.elim

theorem Op.starting.unposting {op : Op} (starting : op.starting) :
    op.unposting := by
  intro log
  cases op <;> first | exact starting.elim | trivial

theorem Op.reopening.unposting {op : Op} (reopening : op.reopening) :
    op.unposting := by
  intro log
  cases op <;> first | exact reopening.elim | trivial

theorem cas_unposting
    {id : String} {status : Status} {attempts : Nat}
    {values : SubmissionChange} :
    (cas id status attempts values).All Op.unposting :=
  cas_all (fun _ => trivial) (fun _ => trivial) fun _ => trivial

theorem endSitting_unposting {id : String} :
    (endSittingIfComplete platform id).All Op.unposting :=
  endSittingIfComplete_all (fun _ => Op.notifying.unposting) id

/-- `_trigger_agent`: what it posts was loaded from the row, or from the copy
that its session has of it. -/
theorem triggerWork_triple {id : String} :
    WorkTriple platform jobs tid (fun _ => True) (triggerAgent platform id)
      (fun _ _ => True) := by
  have done :
      WorkTriple platform jobs tid (fun _ => True) (pure ())
        (fun _ _ => True) :=
    Triple.ret (Contract.stable_const True) fun _ _ _ => trivial
  unfold triggerAgent
  refine issue_unposting (fun _ => trivial) fun found => ?_
  cases found with
  | none => exact done
  | some sub =>
      refine Triple.bind (work_of_unposting cas_unposting) fun claimed => ?_
      cases claimed with
      | false => exact done
      | true =>
          refine issue_work
            (fun loaded recorded =>
              ∀ job, loaded = some job → job.Carries (recorded.2 job.id))
            (Contract.stable_const True) (fun _ _ _ _ => trivial) ?_ ?_
          · rintro store log answer loaded after inv executes job rfl
            rcases exec_load executes with
              ⟨_, ⟨⟩, copied, -⟩ | ⟨_, ⟨⟩, -, found, -⟩ | ⟨⟨⟩, -⟩
            · rw [inv.wellFormed.session copied]
              exact inv.copies copied
            · rw [show job.id = id from inv.wellFormed.submissionKeys.row found]
              exact inv.rows found
          · intro loaded
            cases loaded with
            | none => exact done.strengthen fun _ _ _ => trivial
            | some job =>
                refine issue_work (fun _ _ => True) ?_ ?_
                  (fun _ _ _ _ _ _ _ => trivial) ?_
                · rintro before after other - - ⟨-, grows⟩ carries _ ⟨⟩
                  exact (carries job rfl).grows grows
                · intro store log _ carries
                  exact carries job rfl
                · intro answered
                  refine work_of_unposting ?_
                  cases answered with
                  | refused detail =>
                      refine Program.All.bind cas_unposting fun refused => ?_
                      split
                      · exact endSitting_unposting
                      · exact Program.All.pure _ _
                  | failed => exact Program.All.pure _ _
                  | accepted jobId =>
                      exact Program.All.bind cas_unposting
                        fun _ => Program.All.pure _ _

theorem reapOne_work {now : Time} {id : String} :
    WorkTriple platform jobs tid (fun _ => True) (reapOne platform now id)
      (fun _ _ => True) := by
  have done :
      WorkTriple platform jobs tid (fun _ => True) (pure ())
        (fun _ _ => True) :=
    Triple.ret (Contract.stable_const True) fun _ _ _ => trivial
  unfold reapOne
  refine issue_unposting (fun _ => trivial) fun found => ?_
  cases found with
  | none => exact done
  | some sub =>
      dsimp only
      split
      · exact done
      split
      · exact triggerWork_triple
      · refine work_of_unposting ?_
        refine Program.All.bind cas_unposting fun gaveUp => ?_
        split
        · exact endSitting_unposting
        · exact Program.All.pure _ _

theorem reapEach_work {now : Time} (ids : List String) :
    WorkTriple platform jobs tid (fun _ => True) (reapEach platform now ids)
      (fun _ _ => True) := by
  induction ids with
  | nil =>
      exact Triple.ret (Contract.stable_const True) fun _ _ _ => trivial
  | cons id rest inductionHypothesis =>
      exact Triple.bind reapOne_work fun _ => inductionHypothesis

/-- The insertion of a submission, and its trigger. -/
theorem insertWork_triple
    {α : Type} {row : Submission} {clash : α} {next : Prog α}
    (rest :
      WorkTriple platform jobs tid (fun _ => True) next (fun _ _ => True)) :
    WorkTriple platform jobs tid (fun _ => True)
      (do
        let inserted ← issue (.insertSubmission row)
        if !inserted then
          issue .rollback
          return clash
        issue .commit
        let _ ← issue (.refresh row.id)
        next)
      (fun _ _ => True) := by
  refine issue_unposting (fun _ => trivial) fun inserted => ?_
  cases inserted with
  | false =>
      refine issue_unposting (fun _ => trivial) fun _ => ?_
      exact Triple.ret (Contract.stable_const True) fun _ _ _ => trivial
  | true =>
      refine issue_unposting (fun _ => trivial) fun _ => ?_
      exact issue_unposting (fun _ => trivial) fun _ => rest

theorem candidateSubmit_work {request : CandidateSubmit} :
    WorkTriple platform jobs tid (fun _ => True)
      (candidateSubmit platform request) (fun _ _ => True) := by
  have answered :
      ∀ reply : Except Refusal String,
        WorkTriple platform jobs tid (fun _ => True) (pure reply)
          (fun _ _ => True) :=
    fun _ => Triple.ret (Contract.stable_const True) fun _ _ _ => trivial
  unfold candidateSubmit
  split
  case h_2 => exact answered _
  split
  · exact answered _
  refine issue_unposting (fun _ => trivial) fun submitted => ?_
  split
  · exact answered _
  refine Triple.bind
    (work_of_unposting
      ((getOrStartAttempt_all _ _ _ _ _).mono fun _ => Op.starting.unposting))
    fun reply => ?_
  cases reply with
  | error refusal => exact answered _
  | ok attempt =>
      dsimp only
      split
      · exact answered _
      refine issue_unposting (fun _ => trivial) fun now => ?_
      refine insertWork_triple ?_
      exact Triple.bind triggerWork_triple fun _ => answered _

theorem createSubmission_work {request : DirectSubmit} :
    WorkTriple platform jobs tid (fun _ => True)
      (createSubmission platform request) (fun _ _ => True) := by
  unfold createSubmission
  split
  · exact Triple.ret (Contract.stable_const True) fun _ _ _ => trivial
  · refine issue_unposting (fun _ => trivial) fun now => ?_
    exact insertWork_triple triggerWork_triple

theorem retrySubmission_work {id : String} :
    WorkTriple platform jobs tid (fun _ => True)
      (retrySubmission platform id) (fun _ _ => True) := by
  have answered :
      ∀ reply : RetryReply,
        WorkTriple platform jobs tid (fun _ => True) (pure reply)
          (fun _ _ => True) :=
    fun _ => Triple.ret (Contract.stable_const True) fun _ _ _ => trivial
  unfold retrySubmission
  refine issue_unposting (fun _ => trivial) fun found => ?_
  cases found with
  | none => exact answered _
  | some sub =>
      dsimp only
      split
      · exact answered _
      split
      · exact answered _
      refine Triple.bind
        (work_of_unposting
          ((reopenSitting_all _).mono fun _ => Op.reopening.unposting))
        fun _ => ?_
      exact Triple.bind triggerWork_triple fun _ => answered _

/-- The submissions of a scope are erased under a pseudonym of the
platform's. -/
theorem erasing_unposting
    {scope : ErasureScope} {email token : String} {last : Prog Unit}
    (rest : last.All Op.unposting) :
    (do
      let ids ← issue (.selectErasable scope email)
      if ids ≠ [] then
        issue (.eraseResults ids)
        issue (.eraseSubmissions ids (tombstoneOf token))
      last : Prog Unit).All Op.unposting := by
  refine Program.All.statement (fun _ => trivial) fun ids => ?_
  split
  · refine Program.All.statement (fun _ => trivial) fun _ => ?_
    exact Program.All.statement
      (fun _ => isErasedAddress_tombstoneOf token) fun _ => rest
  · exact rest

theorem purgeOrganization_unposting (sittings : List ExpiredSitting) :
    (Sweep.purgeOrganization sittings).All Op.unposting := by
  induction sittings with
  | nil => exact (Program.all_statement _ _).mpr fun _ => trivial
  | cons sitting rest inductionHypothesis =>
      refine Program.All.bind ?_ fun _ => inductionHypothesis
      exact erasing_unposting
        ((Program.all_statement _ _).mpr fun _ => trivial)

theorem purgeExpired_unposting (sittings : List (List ExpiredSitting)) :
    (Sweep.purgeExpired sittings).All Op.unposting := by
  induction sittings with
  | nil => exact Program.All.pure _ _
  | cons first rest inductionHypothesis =>
      exact Program.All.bind (purgeOrganization_unposting first)
        fun _ => inductionHypothesis

theorem request_work (request : Request) :
    WorkTriple platform jobs tid (fun _ => True) (request.program platform)
      (fun _ _ => True) := by
  have answered :
      ∀ reply : Reply,
        WorkTriple platform jobs tid (fun _ => True) (pure reply)
          (fun _ _ => True) :=
    fun _ => Triple.ret (Contract.stable_const True) fun _ _ _ => trivial
  cases request with
  | idle => exact answered _
  | candidateSubmit request =>
      exact Triple.bind candidateSubmit_work fun _ => answered _
  | createSubmission request =>
      exact Triple.bind createSubmission_work fun _ => answered _
  | retrySubmission id =>
      exact Triple.bind retrySubmission_work fun _ => answered _
  | reapTick =>
      have ticks :
          WorkTriple platform jobs tid (fun _ => True) (reapTick platform)
            (fun _ _ => True) := by
        unfold reapTick
        refine issue_unposting (fun _ => trivial) fun now => ?_
        refine issue_unposting (fun _ => trivial) fun stranded => ?_
        exact reapEach_work stranded
      exact Triple.bind ticks fun _ => answered _
  | assessmentsCallback payload =>
      exact Triple.bind
        (work_of_unposting
          ((assessmentsCallback_all payload).mono
            fun _ => Op.recording.unposting))
        fun _ => answered _
  | erase scope email token =>
      refine Triple.bind (work_of_unposting ?_) fun _ => answered _
      exact erasing_unposting
        (Program.All.statement (fun _ => trivial) fun _ =>
          (Program.all_statement _ _).mpr fun _ => trivial)
  | consume org metric amount =>
      exact Triple.bind
        (work_of_unposting
          ((consume_all _ _ _).mono fun _ metering =>
            Op.starting.unposting metering.starting))
        fun _ => answered _
  | passTime elapsed =>
      exact issue_unposting (fun _ => trivial) fun _ => answered _

theorem job_work :
    WorkTriple platform jobs tid (fun _ => True)
      ((jobs tid).program platform) (fun _ _ => True) := by
  cases jobs tid with
  | request served => exact request_work served
  | purgeExpired sittings =>
      exact Triple.bind (work_of_unposting (purgeExpired_unposting sittings))
        fun _ => Triple.ret (Contract.stable_const True) fun _ _ _ => trivial

end Triples

/-! ## Every run -/

theorem WorkInv.initial (clock : Time) :
    WorkInv (Store.initial clock) fun _ => none where
  wellFormed := .initial clock
  committed := nofun
  rows := nofun
  writes := Staged.empty
  copies := nofun
  posted := nofun

/-- In every run of requests and sweeps in which no trigger posts an erased copy
of its submission, every call made so far carries the code and the language that
were committed when its submission was made. -/
theorem only_submitted_graded
    {platform : Platform} {jobs : Nat → Job} {clock : Time}
    {config : Config Nat Op Resp Reply (Store × SubmittedLog)}
    (reached :
      ((working platform jobs).withHistory recordSubmitted).Reaches
        (System.ignoringHistory postsLive)
        (((working platform jobs).withHistory recordSubmitted).start
          (.initial clock, fun _ => none)) config) :
    config.store.1.PostsSubmitted config.store.2 := by
  have holdsStart :
      workContract.Holds ((working platform jobs).withHistory recordSubmitted)
        (System.ignoringHistory postsLive) (fun _ _ _ => True)
        (((working platform jobs).withHistory recordSubmitted).start
          (.initial clock, fun _ => none)) :=
    Contract.holds_start (WorkInv.initial clock) (fun _ => trivial)
      fun _ => job_work
  exact (holdsStart.reaches reached).1.posted

/-! ## Concrete runs -/

/-- A submit whose trigger fails, a retention sweep, and the reaper. -/
def sweptEarly : Nat → Job
  | 0 => .request Sample.candidate
  | 1 => .purgeExpired [[⟨1, "c@x", "t"⟩]]
  | 2 => .request (.passTime (1000 * 1000000))
  | 3 => .request .reapTick
  | _ => .request .idle

/-- The sweep comes while the submission is pending: the reaper then posts it
without its code. -/
theorem erased_work_graded :
    ∃ config : Config Nat Op Resp Reply (Store × SubmittedLog),
      ((working (Sample.platform 3) sweptEarly).withHistory
        recordSubmitted).Reaches System.anyRun
        (((working (Sample.platform 3) sweptEarly).withHistory
          recordSubmitted).start (.initial 0, fun _ => none)) config ∧
      ¬config.store.1.PostsSubmitted config.store.2 := by
  have ran :
      (((working (Sample.platform 3) sweptEarly).withHistory
        recordSubmitted).runSchedule (fun _ _ _ => true)
        (((working (Sample.platform 3) sweptEarly).withHistory
          recordSubmitted).start (.initial 0, fun _ => none))
        (List.replicate 24 (0, .failed) ++ Sample.steps 1 5 ++
          Sample.steps 2 1 ++ Sample.steps 3 12)).any
        fun config => config.store.1.calls.any fun call =>
          config.store.2 call.submissionId != some call.work := by
    decide +kernel
  obtain ⟨config, reached, seen⟩ :=
    System.exists_of_runSchedule (fun _ _ _ _ => trivial) ran
  obtain ⟨call, member, differs⟩ := List.any_eq_true.mp seen
  refine ⟨config, reached, fun posted => ?_⟩
  exact (bne_iff_ne.mp differs) (posted call member)

/-- A submit whose trigger fails, and the reaper. -/
def triggeredTwice : Nat → Job
  | 0 => .request Sample.candidate
  | 1 => .request (.passTime (1000 * 1000000))
  | 2 => .request .reapTick
  | _ => .request .idle

/-- `postsLive`, decided. -/
def postsUnerased : Nat → Op → Store × SubmittedLog → Bool
  | _, .trigger _ job, _ => !job.isErased
  | _, _, _ => true

theorem only_submitted_graded_twice :
    ∃ config : Config Nat Op Resp Reply (Store × SubmittedLog),
      config.store.1.calls.length = 2 ∧
        config.store.1.PostsSubmitted config.store.2 := by
  have ran :
      (((working (Sample.platform 3) triggeredTwice).withHistory
        recordSubmitted).runSchedule postsUnerased
        (((working (Sample.platform 3) triggeredTwice).withHistory
          recordSubmitted).start (.initial 0, fun _ => none))
        (List.replicate 24 (0, .failed) ++ Sample.steps 1 1 ++
          Sample.steps 2 12)).any
        fun config => config.store.1.calls.length == 2 := by
    decide +kernel
  have sound :
      ∀ tid op recorded, postsUnerased tid op recorded →
        System.ignoringHistory postsLive tid op recorded := by
    intro tid op recorded permitted
    cases op with
    | trigger attempt job =>
        simpa [System.ignoringHistory, postsLive, postsUnerased] using permitted
    | _ => trivial
  obtain ⟨config, reached, twice⟩ := System.exists_of_runSchedule sound ran
  exact ⟨config, by simpa using twice, only_submitted_graded reached⟩

end AssessmentPlatform
