import AssessmentPlatform.Grading.Effects
import AssessmentPlatform.Grading.Sample
import AssessmentPlatform.Grading.Statements

/-!
# Callbacks find their submission

With an agent that echoes the job id it is given, a submission's `agent_job_id`
is its own id from its first trigger on.  The id is committed before the agent
is called, so whatever the agent calls back with, however late or often, matches
the submission that the job was posted for.
-/

namespace AssessmentPlatform

open Interleaving RowTable

variable {platform : Platform} {requests : Nat → Request} {tid : Nat}
variable {answer : AgentAnswer} {op : Op} {before after store : Store}
variable {resp : Resp op} {id : String}

/-! ## An agent that echoes -/

/-- The answer of an agent that takes a job under the id it is given. -/
def echo : Op → AgentAnswer → AgentAnswer
  | .trigger _ job, .accepted jobId => .accepted (job.agentJobId.getD jobId)
  | _, answer => answer

/-- The platform serving requests, beside an agent that echoes. -/
@[reducible]
def servingEcho (platform : Platform) (requests : Nat → Request) :
    System Nat Op Resp AgentAnswer Reply Store where
  exec := fun op tid answer store =>
    exec platform op tid (echo op answer) store
  program := fun tid => (requests tid).program platform

/-! ## The invariant -/

/-- The job id of a submission is its own id, once it has one. -/
def Submission.OwnJob (id : String) (row : Submission) : Prop :=
  ∀ job, row.agentJobId = some job → job = id

/-- The submission is committed under its own job id. -/
def Store.Correlated (store : Store) (id : String) : Prop :=
  ∃ row, store.submissions.row id = some row ∧ row.agentJobId = some id

/-- What may be staged on a submission. -/
structure JobWrite
    (_tid : Nat) (id : String) (row : Option Submission)
    (value : Submission) : Prop where
  own : value.OwnJob id
  kept :
    ∀ current, row = some current → current.agentJobId = some id →
      value.agentJobId = some id

/-- The invariant. -/
structure JobInv (store : Store) : Prop where
  wellFormed : store.WellFormed
  rows : ∀ id row, store.submissions.row id = some row → row.OwnJob id
  writes : store.submissions.Staged JobWrite
  calls :
    ∀ call ∈ store.calls,
      call.agentJobId = some call.submissionId ∧
        store.Correlated call.submissionId

/-- What the other threads may rely on. -/
structure JobGuar (tid : Nat) (before after : Store) : Prop where
  inv : JobInv after
  moves : Store.Moves tid before after
  correlated : ∀ id, before.Correlated id → after.Correlated id

/-- The contract of every thread. -/
def jobContract : Contract Nat Store where
  inv := JobInv
  guar := JobGuar
  guar_inv := fun _ guaranteed => guaranteed.inv

/-- The statement keeps job ids: only a trigger call needs more. -/
def Op.keepsJobs (store : Store) : Op → Prop
  | .insertSubmission row => row.agentJobId = none
  | .casSubmission id _ _ values =>
      ∀ job, values.agentJobId = some job → job = id
  | .trigger _ job =>
      job.agentJobId = some job.id ∧ store.Correlated job.id
  | _ => True

theorem SubmissionWrite.jobWrite
    {value : Submission} (write : SubmissionWrite before op id value)
    (keeps : op.keepsJobs before)
    (rows :
      ∀ id row, before.submissions.row id = some row → row.OwnJob id) :
    JobWrite tid id (before.submissions.row id) value := by
  cases write with
  | insert fresh =>
      have none : value.agentJobId = none := keeps
      refine ⟨fun job isJob => ?_, fun current isCurrent => ?_⟩
      · rw [none] at isJob
        cases isJob
      · rw [fresh] at isCurrent
        cases isCurrent
  | @cas _ _ _ values row found =>
      have own := rows id row found
      refine ⟨fun job isJob => ?_, fun current isCurrent isOwn => ?_⟩
      · rcases Option.or_eq_some_iff.mp isJob with set | ⟨-, kept⟩
        · exact keeps job set
        · exact own job kept
      · rw [found] at isCurrent
        cases isCurrent
        cases set : values.agentJobId with
        | none => simp [SubmissionChange.apply, set, isOwn]
        | some job =>
            have isId := keeps job set
            simp [SubmissionChange.apply, set, isId]
  | save found =>
      refine ⟨fun job isJob => rows _ _ found job isJob, ?_⟩
      intro current isCurrent isOwn
      rw [found] at isCurrent
      cases isCurrent
      exact isOwn
  | erase found =>
      refine ⟨fun job isJob => rows _ _ found job isJob, ?_⟩
      intro current isCurrent isOwn
      rw [found] at isCurrent
      cases isCurrent
      exact isOwn

/-- A statement that keeps job ids keeps the guarantee. -/
theorem JobInv.guar
    (inv : JobInv before) (keeps : op.keepsJobs before)
    (executes : exec platform op tid answer before = some (resp, after)) :
    JobGuar tid before after := by
  have acts := exec_submissions inv.wellFormed.submissions executes
  have moves := inv.wellFormed.moves executes
  have change := fun id => inv.writes.change moves.submissions id
  have correlated :
      ∀ id, before.Correlated id → after.Correlated id := by
    intro id isCorrelated
    obtain ⟨row, found, isOwn⟩ := isCorrelated
    rcases change id with same | ⟨value, -, committed, write⟩
    · exact ⟨row, same ▸ found, isOwn⟩
    · exact ⟨value, committed, write.kept row found isOwn⟩
  refine ⟨⟨inv.wellFormed.exec executes, ?_, ?_, ?_⟩, moves, correlated⟩
  · intro id row found
    rcases change id with same | ⟨value, -, committed, write⟩
    · exact inv.rows id row (same ▸ found)
    · rw [committed] at found
      cases found
      exact write.own
  · exact inv.writes.acts acts fun _ _ write => write.jobWrite keeps inv.rows
  · intro call member
    by_cases calling : op.callsAgent
    · cases op with
      | trigger attempt job =>
          cases executes
          rcases List.mem_append.mp member with earlier | isLast
          · exact inv.calls call earlier
          · rw [List.mem_singleton.mp isLast]
            exact keeps
      | _ => exact calling.elim
    · rw [exec_calls executes calling] at member
      obtain ⟨isOwn, isCorrelated⟩ := inv.calls call member
      exact ⟨isOwn, correlated _ isCorrelated⟩

/-! ## Programs -/

/-- The triples of the threads' programs. -/
abbrev JobTriple
    (platform : Platform) (requests : Nat → Request) (tid : Nat) {α : Type}
    (pre : Store → Prop) (program : Prog α) (post : α → Store → Prop) : Prop :=
  Triple (servingEcho platform requests) System.anyRun jobContract tid pre
    program post

/-- Statements that keep job ids in every store. -/
def Op.uncalling (op : Op) : Prop :=
  ∀ store, op.keepsJobs store

theorem keeps_of_uncalling
    {α : Type} {program : Prog α} (all : program.All Op.uncalling) :
    JobTriple platform requests tid (fun _ => True) program
      (fun _ _ => True) :=
  Triple.of_all (Contract.stable_const True) (fun _ _ _ => trivial) all
    fun _ uncalling store _ _ _ inv _ _ executes =>
      ⟨inv.guar (uncalling store) executes, trivial⟩

theorem Op.notifying.uncalling (notifying : op.notifying) :
    op.uncalling := by
  intro store
  cases op <;> first | exact notifying.elim | trivial

theorem Op.recording.uncalling (recording : op.recording) :
    op.uncalling := by
  intro store
  cases op <;> first | trivial | (rcases recording with ⟨⟨⟩⟩ | ⟨⟨⟩⟩)

theorem Op.starting.uncalling (starting : op.starting) : op.uncalling := by
  intro store
  cases op <;> trivial

theorem Op.erasing.uncalling (erasing : op.erasing) : op.uncalling := by
  intro store
  cases op <;> trivial

theorem Op.reopening.uncalling (reopening : op.reopening) :
    op.uncalling := by
  intro store
  cases op <;> trivial

/-! ## Triggers -/

/-- The session has no copy of the submission without its job id. -/
def CopyCorrelated (tid : Nat) (id : String) (store : Store) : Prop :=
  ∀ copy, store.session tid id = some copy → copy.agentJobId = some id

/-- The thread has staged the job id of the submission. -/
def JobStaged (tid : Nat) (id : String) (store : Store) : Prop :=
  ∃ value, store.submissions.staged id = some (tid, value) ∧
    value.agentJobId = some id

theorem copyCorrelated_stable :
    jobContract.Stable tid (CopyCorrelated tid id) := by
  intro before after other different _ guaranteed correlated copy copied
  rw [guaranteed.moves.session (Ne.symm different)] at copied
  exact correlated copy copied

theorem correlated_stable :
    jobContract.Stable tid fun store => store.Correlated id :=
  fun _ _ _ _ _ guaranteed correlated => guaranteed.correlated id correlated

theorem jobStaged_stable : jobContract.Stable tid (JobStaged tid id) := by
  intro before after other different _ guaranteed jobStaged
  obtain ⟨value, staged, isOwn⟩ := jobStaged
  exact
    ⟨value, (guaranteed.moves.submissions.others (Ne.symm different)).mpr staged,
      isOwn⟩

/-- One statement, then the rest of the program. -/
theorem issue_job
    {α : Type} {next : Resp op → Prog α} {pre : Store → Prop}
    {post : α → Store → Prop} (middle : Resp op → Store → Prop)
    (stable : jobContract.Stable tid pre)
    (keeps : ∀ store, JobInv store → pre store → op.keepsJobs store)
    (step :
      ∀ store answer resp after, JobInv store → pre store →
        JobGuar tid store after →
          exec platform op tid (echo op answer) store = some (resp, after) →
            middle resp after)
    (rest :
      ∀ resp, JobTriple platform requests tid (middle resp) (next resp)
        post) :
    JobTriple platform requests tid pre (issue op >>= next) post := by
  refine Triple.statement middle stable (fun _ _ _ => trivial) ?_ rest
  intro store input resp after inv holds _ executes
  have guaranteed := inv.guar (keeps store inv holds) executes
  exact ⟨guaranteed, step store input resp after inv holds guaranteed executes⟩

/-- Where nothing has to be known afterwards. -/
theorem issue_uncalling
    {α : Type} {next : Resp op → Prog α} {post : α → Store → Prop}
    (uncalling : op.uncalling)
    (rest :
      ∀ resp, JobTriple platform requests tid (fun _ => True) (next resp)
        post) :
    JobTriple platform requests tid (fun _ => True) (issue op >>= next)
      post :=
  issue_job (fun _ _ => True) (Contract.stable_const True)
    (fun store _ _ => uncalling store) (fun _ _ _ _ _ _ _ _ => trivial) rest

/-- The claim of a trigger commits the job id. -/
theorem casClaim_triple {status : Status} {attempts attempt : Nat} :
    JobTriple platform requests tid (fun _ => True)
      (cas id status attempts (claimChange id attempt))
      (fun won store =>
        won = true → store.Correlated id ∧ CopyCorrelated tid id store) := by
  unfold cas
  refine issue_job
    (fun won store => won = true → JobStaged tid id store)
    (Contract.stable_const True) ?_ ?_ fun won => ?_
  · intro _ _ _ job isJob
    cases isJob
    rfl
  · intro store answer won after _ _ _ executes isWon
    simp only [exec, Option.map_eq_some_iff] at executes
    obtain ⟨⟨updated, table⟩, tried, equal⟩ := executes
    cases equal
    rcases tryUpdate_cases tried with
      ⟨-, -, row, -, -, rfl⟩ | ⟨lost, -, -⟩
    · exact ⟨_, Function.update_self _ _ _, rfl⟩
    · rw [lost] at isWon
      cases isWon
  refine issue_job
    (fun _ store =>
      won = true → store.Correlated id ∧ CopyCorrelated tid id store)
    jobStaged_stable.imp (fun _ _ _ => trivial) ?_ fun _ => ?_
  · intro store answer resp after _ staged _ executes isWon
    cases executes
    obtain ⟨value, isStaged, isOwn⟩ := staged isWon
    refine ⟨⟨value, row_commit_of_staged isStaged, isOwn⟩, ?_⟩
    intro copy copied
    simp [Store.commit, Store.expire] at copied
  have stable :
      jobContract.Stable tid fun store =>
        won = true → store.Correlated id ∧ CopyCorrelated tid id store :=
    (correlated_stable.and copyCorrelated_stable).imp
  refine issue_job
    (fun _ store =>
      won = true → store.Correlated id ∧ CopyCorrelated tid id store)
    stable (fun _ _ _ => trivial) ?_ fun _ =>
      Triple.ret stable fun _ _ holds => holds
  intro store answer found after inv holds guaranteed executes isWon
  obtain ⟨correlated, -⟩ := holds isWon
  refine ⟨guaranteed.correlated id correlated, fun copy copied => ?_⟩
  obtain ⟨row, isRow, isOwn⟩ := correlated
  simp only [exec, isRow] at executes
  cases executes
  rw [Store.session_remember] at copied
  cases copied
  exact isOwn

/-- The job that is posted is the submission's own. -/
def OwnJobOf (id : String) (job : Submission) : Prop :=
  job.id = id ∧ job.agentJobId = some id

/-- The job is read from the committed row, or from a copy of it. -/
theorem load_job
    {α : Type} {next : Option Submission → Prog α} {post : α → Store → Prop}
    (rest :
      ∀ found : Option Submission, (∀ job, found = some job → OwnJobOf id job) →
        JobTriple platform requests tid (fun store => store.Correlated id)
          (next found) post) :
    JobTriple platform requests tid
      (fun store => store.Correlated id ∧ CopyCorrelated tid id store)
      (issue (.load id) >>= next) post := by
  refine issue_job
    (fun found store =>
      store.Correlated id ∧ ∀ job, found = some job → OwnJobOf id job)
    (correlated_stable.and copyCorrelated_stable) (fun _ _ _ => trivial) ?_
    fun found => ?_
  · intro store answer found after inv holds guaranteed executes
    obtain ⟨correlated, copies⟩ := holds
    refine ⟨guaranteed.correlated id correlated, fun job isJob => ?_⟩
    subst isJob
    obtain ⟨row, isRow, isOwn⟩ := correlated
    rcases exec_load executes with
      ⟨copy, isCopy, copied, -⟩ | ⟨other, isOther, -, found, -⟩ |
        ⟨impossible, -⟩
    · cases isCopy
      exact ⟨inv.wellFormed.session copied, copies job copied⟩
    · cases isOther
      rw [isRow] at found
      cases found
      exact ⟨inv.wellFormed.submissionKeys.row isRow, isOwn⟩
    · cases impossible
  · exact
      (Triple.of_fact (fun _ _ holds => holds.2) fun isOwn =>
        (rest found isOwn).strengthen fun _ _ holds => holds.1)

/-- `_trigger_agent` -/
theorem triggerJob_triple :
    JobTriple platform requests tid (fun _ => True)
      (triggerAgent platform id) (fun _ _ => True) := by
  have done :
      JobTriple platform requests tid (fun _ => True) (pure ())
        (fun _ _ => True) :=
    Triple.ret (Contract.stable_const True) fun _ _ _ => trivial
  unfold triggerAgent
  refine issue_uncalling (fun _ => trivial) fun found => ?_
  cases found with
  | none => exact done
  | some sub =>
      refine Triple.bind casClaim_triple fun claimed => ?_
      cases claimed with
      | false => exact done.strengthen fun _ _ _ => trivial
      | true =>
          refine Triple.strengthen ?_ fun _ _ holds => holds rfl
          refine load_job fun loaded isOwn => ?_
          cases loaded with
          | none => exact done.strengthen fun _ _ _ => trivial
          | some job =>
              obtain ⟨isId, isJob⟩ := isOwn job rfl
              refine issue_job
                (fun answered _ =>
                  ∀ jobId, answered = .accepted jobId → jobId = id)
                correlated_stable ?_ ?_ fun answered => ?_
              · intro store _ correlated
                exact ⟨isId ▸ isJob, isId ▸ correlated⟩
              · intro store answer answered after _ _ _ executes jobId
                  isAccepted
                cases executes
                cases answer with
                | accepted other =>
                    simp only [echo, isJob] at isAccepted
                    cases isAccepted
                    rfl
                | refused detail => cases isAccepted
                | failed => cases isAccepted
              · refine Triple.of_fact (fun _ _ holds => holds) fun echoed => ?_
                refine Triple.strengthen (keeps_of_uncalling ?_)
                  fun _ _ _ => trivial
                cases answered with
                | refused detail =>
                    refine Program.All.bind
                      (cas_all (fun _ _ isSet => nomatch isSet)
                        (fun _ => trivial) fun _ => trivial) fun refused => ?_
                    split
                    · exact
                        endSittingIfComplete_all
                          (fun _ => Op.notifying.uncalling) _
                    · exact Program.All.pure _ _
                | failed => exact Program.All.pure _ _
                | accepted jobId =>
                    have isEcho := echoed jobId rfl
                    refine Program.All.bind
                      (cas_all ?_ (fun _ => trivial) fun _ => trivial)
                      fun _ => Program.All.pure _ _
                    intro _ set isSet
                    cases isSet
                    exact isEcho

theorem reapJob_triple {now : Time} :
    JobTriple platform requests tid (fun _ => True) (reapOne platform now id)
      (fun _ _ => True) := by
  have done :
      JobTriple platform requests tid (fun _ => True) (pure ())
        (fun _ _ => True) :=
    Triple.ret (Contract.stable_const True) fun _ _ _ => trivial
  unfold reapOne
  refine issue_uncalling (fun _ => trivial) fun found => ?_
  cases found with
  | none => exact done
  | some sub =>
      dsimp only
      split
      · exact done
      · split
        · exact triggerJob_triple
        · refine keeps_of_uncalling ?_
          refine Program.All.bind
            (cas_all (fun _ _ isSet => nomatch isSet)
              (fun _ => trivial) fun _ => trivial) fun gaveUp => ?_
          split
          · exact
              endSittingIfComplete_all (fun _ => Op.notifying.uncalling) _
          · exact Program.All.pure _ _

theorem reapJobs_triple {now : Time} (ids : List String) :
    JobTriple platform requests tid (fun _ => True)
      (reapEach platform now ids) (fun _ _ => True) := by
  induction ids with
  | nil =>
      exact Triple.ret (Contract.stable_const True) fun _ _ _ => trivial
  | cons id rest inductionHypothesis =>
      exact Triple.bind reapJob_triple fun _ => inductionHypothesis

/-- Insert a submission without a job, commit it and go on where it was
inserted. -/
theorem insertJob_triple
    {α : Type} {row : Submission} {clash : α} {next : Prog α}
    (jobless : row.agentJobId = none)
    (rest :
      JobTriple platform requests tid (fun _ => True) next
        (fun _ _ => True)) :
    JobTriple platform requests tid (fun _ => True)
      (do
        let inserted ← issue (.insertSubmission row)
        if !inserted then
          issue .rollback
          return clash
        issue .commit
        let _ ← issue (.refresh row.id)
        next)
      (fun _ _ => True) := by
  refine issue_uncalling (fun _ => jobless) fun inserted => ?_
  cases inserted with
  | false =>
      refine issue_uncalling (fun _ => trivial) fun _ => ?_
      exact Triple.ret (Contract.stable_const True) fun _ _ _ => trivial
  | true =>
      refine issue_uncalling (fun _ => trivial) fun _ => ?_
      exact issue_uncalling (fun _ => trivial) fun _ => rest

theorem submitJob_triple {request : CandidateSubmit} :
    JobTriple platform requests tid (fun _ => True)
      (candidateSubmit platform request) (fun _ _ => True) := by
  have answered :
      ∀ reply : Except Refusal String,
        JobTriple platform requests tid (fun _ => True) (pure reply)
          (fun _ _ => True) :=
    fun _ => Triple.ret (Contract.stable_const True) fun _ _ _ => trivial
  unfold candidateSubmit
  split
  case h_2 => exact answered _
  split
  · exact answered _
  refine issue_uncalling (fun _ => trivial) fun submitted => ?_
  split
  · exact answered _
  refine Triple.bind
    (keeps_of_uncalling
      ((getOrStartAttempt_all _ _ _ _ _).mono fun _ => Op.starting.uncalling))
    fun reply => ?_
  cases reply with
  | error refusal => exact answered _
  | ok attempt =>
      dsimp only
      split
      · exact answered _
      refine issue_uncalling (fun _ => trivial) fun now => ?_
      refine insertJob_triple rfl ?_
      exact Triple.bind triggerJob_triple fun _ => answered _

theorem createJob_triple {request : DirectSubmit} :
    JobTriple platform requests tid (fun _ => True)
      (createSubmission platform request) (fun _ _ => True) := by
  unfold createSubmission
  split
  · exact Triple.ret (Contract.stable_const True) fun _ _ _ => trivial
  · refine issue_uncalling (fun _ => trivial) fun now => ?_
    exact insertJob_triple rfl triggerJob_triple

theorem retryJob_triple :
    JobTriple platform requests tid (fun _ => True)
      (retrySubmission platform id) (fun _ _ => True) := by
  have answered :
      ∀ reply : RetryReply,
        JobTriple platform requests tid (fun _ => True) (pure reply)
          (fun _ _ => True) :=
    fun _ => Triple.ret (Contract.stable_const True) fun _ _ _ => trivial
  unfold retrySubmission
  refine issue_uncalling (fun _ => trivial) fun found => ?_
  cases found with
  | none => exact answered _
  | some sub =>
      dsimp only
      split
      · exact answered _
      split
      · exact answered _
      refine Triple.bind
        (keeps_of_uncalling
          ((reopenSitting_all _).mono fun _ => Op.reopening.uncalling))
        fun _ => ?_
      exact Triple.bind triggerJob_triple fun _ => answered _

/-- Every request keeps job ids. -/
theorem requestJob_triple (request : Request) :
    JobTriple platform requests tid (fun _ => True)
      (request.program platform) (fun _ _ => True) := by
  have answered :
      ∀ reply : Reply,
        JobTriple platform requests tid (fun _ => True) (pure reply)
          (fun _ _ => True) :=
    fun _ => Triple.ret (Contract.stable_const True) fun _ _ _ => trivial
  cases request with
  | idle => exact answered _
  | candidateSubmit request =>
      exact Triple.bind submitJob_triple fun _ => answered _
  | createSubmission request =>
      exact Triple.bind createJob_triple fun _ => answered _
  | retrySubmission id =>
      exact Triple.bind retryJob_triple fun _ => answered _
  | reapTick =>
      have ticks :
          JobTriple platform requests tid (fun _ => True)
            (reapTick platform) (fun _ _ => True) := by
        unfold reapTick
        refine issue_uncalling (fun _ => trivial) fun now => ?_
        refine issue_uncalling (fun _ => trivial) fun stranded => ?_
        exact reapJobs_triple stranded
      exact Triple.bind ticks fun _ => answered _
  | assessmentsCallback payload =>
      exact
        Triple.bind
          (keeps_of_uncalling
            ((assessmentsCallback_all payload).mono
              fun _ => Op.recording.uncalling))
          fun _ => answered _
  | erase scope email token =>
      exact
        Triple.bind
          (keeps_of_uncalling
            ((eraseCandidate_all _ _ _).mono fun _ => Op.erasing.uncalling))
          fun _ => answered _
  | consume org metric amount =>
      exact
        Triple.bind
          (keeps_of_uncalling
            ((consume_all _ _ _).mono fun _ metering =>
              Op.starting.uncalling metering.starting))
          fun _ => answered _
  | passTime elapsed =>
      exact issue_uncalling (fun _ => trivial) fun _ => answered _

/-! ## Every run -/

theorem JobInv.initial (clock : Time) : JobInv (Store.initial clock) where
  wellFormed := .initial clock
  rows := fun _ _ found => nomatch found
  writes := Staged.empty
  calls := fun _ member => nomatch member

/-- The invariant holds in every run. -/
theorem job_holds
    {clock : Time} {config : Config Nat Op Resp Reply Store}
    (reached :
      (servingEcho platform requests).Reaches System.anyRun
        ((servingEcho platform requests).start (Store.initial clock))
        config) :
    jobContract.Holds (servingEcho platform requests) System.anyRun
      (fun _ _ _ => True) config := by
  have holdsStart :
      jobContract.Holds (servingEcho platform requests) System.anyRun
        (fun _ _ _ => True)
        ((servingEcho platform requests).start (Store.initial clock)) :=
    Contract.holds_start (JobInv.initial clock) (fun _ => trivial)
      fun tid => requestJob_triple (requests tid)
  exact holdsStart.reaches reached

/-- A job id that is committed for a submission stays so. -/
theorem correlated_of_reaches
    {config later : Config Nat Op Resp Reply Store}
    (holds :
      jobContract.Holds (servingEcho platform requests) System.anyRun
        (fun _ _ _ => True) config)
    (reached :
      (servingEcho platform requests).Reaches System.anyRun config later)
    (correlated : config.store.Correlated id) :
    later.store.Correlated id := by
  induction reached with
  | refl =>
      exact correlated
  | tail reached step inductionHypothesis =>
      obtain ⟨tid, step⟩ := step
      have guaranteed := ((holds.reaches reached).step step).1
      exact guaranteed.correlated id inductionHypothesis

/-- The submissions that a callback for a correlated job id matches. -/
theorem select_job
    (inv : JobInv store) (correlated : store.Correlated id) :
    (store.submissions.select fun row => row.agentJobId == some id) =
      [id] := by
  obtain ⟨row, found, isOwn⟩ := correlated
  have listed := inv.wellFormed.submissions
  have member :
      ∀ other,
        other ∈ (store.submissions.select fun row =>
            row.agentJobId == some id) ↔ other = id := by
    intro other
    rw [mem_select_iff]
    constructor
    · intro selected
      obtain ⟨-, current, isCurrent, isJob⟩ := selected
      exact (inv.rows other current isCurrent id (by simpa using isJob)).symm
    · rintro rfl
      exact ⟨listed.row found, row, found, by simp [isOwn]⟩
  have nodup := nodup_select listed fun row => row.agentJobId == some id
  exact
    List.perm_singleton.mp
      ((List.perm_ext_iff_of_nodup nodup (List.nodup_singleton id)).mpr
        fun other => by rw [member other, List.mem_singleton])

/-- For every interleaving: a job that the agent has been sent bears an id that
is committed as its submission's and stays so for the rest of the run, and
whatever matches the id, now or later, is that submission alone. -/
theorem callbacks_correlated
    {clock : Time} {config later : Config Nat Op Resp Reply Store}
    {call : TriggerCall}
    (reached :
      (servingEcho platform requests).Reaches System.anyRun
        ((servingEcho platform requests).start (Store.initial clock)) config)
    (sent : call ∈ config.store.calls)
    (continued :
      (servingEcho platform requests).Reaches System.anyRun config later) :
    ∃ job row, call.agentJobId = some job ∧
      later.store.submissions.row call.submissionId = some row ∧
      row.agentJobId = some job ∧
      (later.store.submissions.select fun row =>
        row.agentJobId == some job) = [call.submissionId] := by
  have holds := job_holds reached
  have inv : JobInv config.store := holds.1
  obtain ⟨isOwn, correlated⟩ := inv.calls call sent
  have correlatedLater := correlated_of_reaches holds continued correlated
  have selected := select_job (holds.reaches continued).1 correlatedLater
  obtain ⟨row, found, isJob⟩ := correlatedLater
  exact ⟨call.submissionId, row, isOwn, found, isJob, selected⟩

/-- A candidate's submission and the agent's verdict on it. -/
def answeredJob : Nat → Request
  | 0 => Sample.candidate
  | 1 => .assessmentsCallback (Sample.verdict "PASS")
  | _ => .idle

/-- The job is sent, and its submission is graded. -/
theorem callbacks_correlated_until_graded :
    ∃ call : TriggerCall, ∃ later : Config Nat Op Resp Reply Store,
      Sample.statusIs later.store .done ∧
        ∃ job row, call.agentJobId = some job ∧
          later.store.submissions.row call.submissionId = some row ∧
          row.agentJobId = some job ∧
          (later.store.submissions.select fun row =>
            row.agentJobId == some job) = [call.submissionId] := by
  have ran :
      ((servingEcho (Sample.platform 3) answeredJob).runSchedule
        (fun _ _ _ => true)
        ((servingEcho (Sample.platform 3) answeredJob).start (.initial 0))
        (Sample.steps 0 27)).any
        fun config =>
          !config.store.calls.isEmpty &&
            ((servingEcho (Sample.platform 3) answeredJob).runSchedule
              (fun _ _ _ => true) config (Sample.steps 1 15)).any
              fun later => Sample.statusIs later.store .done := by
    decide +kernel
  obtain ⟨config, reached, seen⟩ :=
    System.exists_of_runSchedule (fun _ _ _ _ => trivial) ran
  obtain ⟨sent, graded⟩ := Bool.and_eq_true_iff.mp seen
  obtain ⟨later, continued, isDone⟩ :=
    System.exists_of_runSchedule (fun _ _ _ _ => trivial) graded
  obtain ⟨call, member⟩ :=
    List.exists_mem_of_ne_nil config.store.calls (by simpa using sent)
  exact ⟨call, later, isDone, callbacks_correlated reached member continued⟩

end AssessmentPlatform
