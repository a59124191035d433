import AssessmentPlatform.Grading.Effects
import AssessmentPlatform.Grading.Sample
import AssessmentPlatform.Grading.Statements

/-!
# Stranded submissions settle

What the ticks of the reaper commit, however many workers run them at once and
whatever else goes on.  A tick reads a submission again after every commit of
its session, and by then it may have ended: the argument is that such a row is
too young to be due.
-/

namespace AssessmentPlatform

open Interleaving RowTable

variable {platform : Platform} {requests : Nat → Request} {tid other : Nat}
variable {answer : AgentAnswer} {op : Op} {before after : Store}
variable {resp : Resp op} {id : String}

/-! ## What the reaper does -/

/-- Whether a request is a tick of the reaper. -/
def Request.isReaper : Request → Bool
  | .reapTick => true
  | _ => false

/-- The changes of a submission that a tick may commit. -/
inductive ReaperMove (platform : Platform) (id : String) (row : Submission) :
    Submission → Prop
  | claim (now : Time) (below : row.attempts < platform.maxTriggerAttempts) :
      ReaperMove platform id row
        ((claimChange id (row.attempts + 1)).apply now row)
  | accept (now : Time) (jobId : String) (pending : row.status = .pending) :
      ReaperMove platform id row
        ({ status := .running
           agentJobId := some jobId : SubmissionChange }.apply now row)
  | refuse (now : Time) (detail : String) (pending : row.status = .pending) :
      ReaperMove platform id row
        ({ status := .error
           errorReason := some (some (refusalReason detail)) :
             SubmissionChange }.apply now row)
  | giveUp (now : Time)
      (spent : platform.maxTriggerAttempts ≤ row.attempts ∨
        platform.question row.questionId = none) :
      ReaperMove platform id row
        ({ status := .error
           errorReason := some (some (giveUpReason row.attempts)) :
             SubmissionChange }.apply now row)

/-- How often a submission was claimed by ticks, ended by ticks, and taken out
of a final status by anybody. -/
structure ReapLog where
  claims : String → Nat
  settled : String → Nat
  reopened : String → Nat

/-- The log of a run that has not begun. -/
def ReapLog.empty : ReapLog where
  claims := fun _ => 0
  settled := fun _ => 0
  reopened := fun _ => 0

/-- How many commits of a change of one row to count: one or none. -/
def Store.counted (store : Store) (tid : Nat) (id : String)
    (event : Submission → Submission → Bool) : Nat :=
  match store.submissions.pending tid id, store.submissions.row id with
  | some value, some row => if event row value then 1 else 0
  | _, _ => 0

/-- A COMMIT is logged for every submission that it changes. -/
def recordReaps (requests : Nat → Request) :
    (op : Op) → Nat → Resp op → Store → Store → ReapLog → ReapLog
  | .commit, tid, _, before, _, log =>
      { claims := fun id => log.claims id +
          before.counted tid id fun row value =>
            (requests tid).isReaper && value.attempts != row.attempts
        settled := fun id => log.settled id +
          before.counted tid id fun _ value =>
            (requests tid).isReaper && value.status.terminal
        reopened := fun id => log.reopened id +
          before.counted tid id fun row value =>
            row.status.terminal && !value.status.terminal }
  | _, _, _, _, _, log => log

theorem recordReaps_of_not_commit {log : ReapLog} (notCommit : op ≠ .commit) :
    recordReaps requests op tid resp before after log = log := by
  cases op <;> first | rfl | exact absurd rfl notCommit

/-- The platform serving requests, with the log of its reaper. -/
abbrev reaping (platform : Platform) (requests : Nat → Request) :
    System Nat Op Resp AgentAnswer Reply (Store × ReapLog) :=
  (serving platform requests).withHistory (recordReaps requests)

/-- Whether a row is not older than the grace of a running submission. -/
def Young (platform : Platform) (now : Time) (sub : Submission) : Prop :=
  platform.reapRunningAfterS ≤ 0 ∨
    now - platform.reapRunningAfterS * second ≤ sub.updatedAt

/-- Whenever a tick reads the clock, no change of a submission that has not been
committed yet is older than that grace. -/
def ticksPrompt (platform : Platform) (requests : Nat → Request) :
    Nat → Op → Store → Prop
  | tid, .now, store => (requests tid).isReaper →
      ∀ id ∈ store.submissions.keys, ∀ row owner value,
        store.submissions.row id = some row →
          store.submissions.staged id = some (owner, value) →
            Young platform store.clock value
  | _, _, _ => True

/-! ## The contract -/

/-- What may be staged on a submission: attempts never go down, the question
stays, and a tick moves a submission that has not ended. -/
structure StrandWrite (platform : Platform) (request : Request) (id : String)
    (row : Option Submission) (value : Submission) : Prop where
  kept : ∀ current, row = some current →
    current.attempts ≤ value.attempts ∧
      value.questionId = current.questionId
  reaper : request.isReaper → ∃ current, row = some current ∧
    current.status.terminal = false ∧ ReaperMove platform id current value

/-- The attempts of a submission that may not be there. -/
def Store.attemptsOf (store : Store) (id : String) : Nat :=
  ((store.submissions.row id).map Submission.attempts).getD 0

/-- One for a submission that has ended. -/
def Store.endedOf (store : Store) (id : String) : Nat :=
  match store.submissions.row id with
  | some row => if row.status.terminal then 1 else 0
  | none => 0

/-- The invariant: claims are among the attempts and within the limit, and what
has been ended more than once was taken up again in between. -/
structure StrandInv (platform : Platform) (requests : Nat → Request)
    (store : Store) (log : ReapLog) : Prop where
  wellFormed : store.WellFormed
  writes :
    store.submissions.Staged fun tid id row value =>
      StrandWrite platform (requests tid) id row value
  claims : ∀ id, log.claims id ≤ platform.maxTriggerAttempts ∧
    log.claims id ≤ store.attemptsOf id
  settled : ∀ id, log.settled id ≤ log.reopened id + store.endedOf id

/-- What others see of a step: time does not go back, and what is staged is
stamped with the time. -/
structure StrandStep (tid : Nat) (before after : Store) : Prop where
  moves : Store.Moves tid before after
  clock : before.clock ≤ after.clock
  stamped : ∀ id row owner value, before.submissions.row id = some row →
    after.submissions.staged id = some (owner, value) →
      before.submissions.staged id = some (owner, value) ∨
        before.clock ≤ value.updatedAt
  locked : ∀ id value, after.submissions.staged id = some (tid, value) →
    after.submissions.row id = before.submissions.row id

/-- The contract of every thread. -/
def strandContract (platform : Platform) (requests : Nat → Request) :
    Contract Nat (Store × ReapLog) where
  inv := fun recorded => StrandInv platform requests recorded.1 recorded.2
  guar := fun tid before after =>
    StrandInv platform requests after.1 after.2 ∧
      StrandStep tid before.1 after.1
  guar_inv := fun _ guaranteed => guaranteed.1

/-! ## One statement -/

theorem clock_le_of_exec
    (executes : exec platform op tid answer before = some (resp, after)) :
    before.clock ≤ after.clock := by
  by_cases passes : op.passesTime
  · cases op with
    | passTime elapsed =>
        cases executes
        exact Int.le_add_of_nonneg_right (Int.natCast_nonneg elapsed)
    | _ => exact passes.elim
  · exact Int.le_of_eq (exec_clock executes passes).symm

/-- Whatever is written over a row is stamped with the time. -/
theorem SubmissionWrite.stamped {row value : Submission}
    (write : SubmissionWrite before op id value)
    (present : before.submissions.row id = some row) :
    value.updatedAt = before.clock := by
  cases write with
  | insert fresh =>
      rw [fresh] at present
      cases present
  | cas => rfl
  | save => rfl
  | erase => rfl

theorem StrandStep.of_exec (wellFormed : before.WellFormed)
    (executes : exec platform op tid answer before = some (resp, after)) :
    StrandStep tid before after := by
  have acts := exec_submissions wellFormed.submissions executes
  refine ⟨wellFormed.moves executes, clock_le_of_exec executes, ?_, ?_⟩
  · intro id row owner value present staged
    rcases acts.staged staged with earlier | ⟨-, -, -, write⟩
    · exact Or.inl earlier
    · exact Or.inr (Int.le_of_eq (write.stamped present).symm)
  · exact fun id value staged => acts.row_of_staged staged

/-- What a COMMIT does to one submission, and what is counted of it. -/
theorem committed_cases (store : Store) (tid : Nat) (id : String) :
    ((store.commit tid).submissions.row id = store.submissions.row id ∧
        ∀ event, store.counted tid id event = 0) ∨
      (∃ value, store.submissions.row id = none ∧
        (store.commit tid).submissions.row id = some value ∧
        ∀ event, store.counted tid id event = 0) ∨
      ∃ row value, store.submissions.row id = some row ∧
        store.submissions.staged id = some (tid, value) ∧
        (store.commit tid).submissions.row id = some value ∧
        ∀ event, store.counted tid id event =
          if event row value then 1 else 0 := by
  cases isPending : store.submissions.pending tid id with
  | none =>
      have notStaged (value : Submission) :
          store.submissions.staged id ≠ some (tid, value) := by
        intro staged
        rw [pending_eq_some staged] at isPending
        cases isPending
      exact Or.inl ⟨row_commit_of_not_staged notStaged,
        fun event => by simp [Store.counted, isPending]⟩
  | some value =>
      have staged := pending_eq_some_iff.mp isPending
      have visible := row_commit_of_staged staged
      cases found : store.submissions.row id with
      | none =>
          exact Or.inr (Or.inl ⟨value, rfl, visible,
            fun event => by simp [Store.counted, found]⟩)
      | some row =>
          exact Or.inr (Or.inr ⟨row, value, rfl, staged, visible,
            fun event => by simp [Store.counted, isPending, found]⟩)

/-- A tick raises the attempts with a claim only, by one and within the
limit. -/
theorem ReaperMove.attempts {row value : Submission}
    (move : ReaperMove platform id row value)
    (raised : value.attempts ≠ row.attempts) :
    value.attempts = row.attempts + 1 ∧
      value.attempts ≤ platform.maxTriggerAttempts := by
  cases move with
  | claim now below => exact ⟨rfl, below⟩
  | accept => exact absurd rfl raised
  | refuse => exact absurd rfl raised
  | giveUp => exact absurd rfl raised

section Step

variable {log : ReapLog}

/-- A COMMIT keeps the counts of one submission. -/
theorem StrandInv.commit (inv : StrandInv platform requests before log)
    (id : String) :
    let later := recordReaps requests .commit tid () before
      (before.commit tid) log
    (later.claims id ≤ platform.maxTriggerAttempts ∧
      later.claims id ≤ (before.commit tid).attemptsOf id) ∧
    later.settled id ≤ later.reopened id + (before.commit tid).endedOf id := by
  have claims := inv.claims id
  have settled := inv.settled id
  unfold Store.attemptsOf at claims
  unfold Store.endedOf at settled
  rcases committed_cases before tid id with
    ⟨same, nothing⟩ | ⟨value, absent, visible, nothing⟩ |
      ⟨row, value, found, staged, visible, counts⟩
  · simp only [recordReaps, nothing, Store.attemptsOf, Store.endedOf, same,
      Nat.add_zero]
    exact ⟨claims, settled⟩
  · simp only [absent, Option.map_none, Option.getD_none] at claims
    simp only [absent] at settled
    simp only [recordReaps, nothing, Store.attemptsOf, Store.endedOf, visible,
      Option.map_some, Option.getD_some]
    omega
  · have write := inv.writes id tid value staged
    obtain ⟨kept, -⟩ := write.kept row found
    simp only [found, Option.map_some, Option.getD_some] at claims
    simp only [found] at settled
    simp only [recordReaps, counts, Store.attemptsOf, Store.endedOf, visible,
      Option.map_some, Option.getD_some]
    by_cases isReaper : (requests tid).isReaper
    · obtain ⟨_, isRow, live, move⟩ := write.reaper isReaper
      rw [found] at isRow
      cases isRow
      have raised := move.attempts
      simp only [isReaper, live, Bool.true_and, Bool.false_and, bne_iff_ne]
      simp only [live, Bool.false_eq_true, if_false] at settled
      by_cases same : value.attempts = row.attempts
      · simp only [same, ne_eq, not_true, if_false]
        cases ends : value.status.terminal <;> simp <;> omega
      · obtain ⟨isNext, within⟩ := raised same
        simp only [ne_eq, same, not_false_iff, if_true]
        cases ends : value.status.terminal <;> simp <;> omega
    · simp only [isReaper, Bool.false_and, Bool.false_eq_true, if_false]
      cases was : row.status.terminal <;> cases ends : value.status.terminal <;>
        simp [was] at settled ⊢ <;> omega

/-- A statement keeps the contract if the writes that it stages do. -/
theorem StrandInv.step (inv : StrandInv platform requests before log)
    (executes : exec platform op tid answer before = some (resp, after))
    (own : ∀ id value, SubmissionWrite before op id value →
      StrandWrite platform (requests tid) id (before.submissions.row id)
        value) :
    (strandContract platform requests).guar tid (before, log)
      (after, recordReaps requests op tid resp before after log) := by
  have acts := exec_submissions inv.wellFormed.submissions executes
  refine ⟨⟨inv.wellFormed.exec executes, inv.writes.acts acts own, ?_, ?_⟩,
    .of_exec inv.wellFormed executes⟩
  all_goals
    intro id
    by_cases committing : op = .commit
  · subst committing
    cases executes
    exact (inv.commit id).1
  · rw [recordReaps_of_not_commit committing]
    simp only [Store.attemptsOf, acts.row_of_not_commits committing]
    exact inv.claims id
  · subst committing
    cases executes
    exact (inv.commit id).2
  · rw [recordReaps_of_not_commit committing]
    simp only [Store.endedOf, acts.row_of_not_commits committing]
    exact inv.settled id

end Step

/-! ## Everybody else -/

namespace Op

/-- Statements that do not lower the attempts. -/
def climbs : Op → Prop
  | .casSubmission _ _ expectAttempts values =>
      ∀ attempts ∈ values.attempts, expectAttempts ≤ attempts
  | _ => True

theorem submitting.climbs {op : Op} (submitting : op.submitting) :
    op.climbs := by
  cases op with
  | casSubmission id expectStatus expectAttempts values =>
      cases submitting with
      | claim => simp [Op.climbs, claimChange]
      | fail => simp [Op.climbs]
      | accept => simp [Op.climbs]
  | _ => trivial

theorem recording.climbs {op : Op} (recording : op.recording) :
    op.climbs := by
  cases op <;> first | trivial | exact recording.elim False.elim False.elim

theorem erasing.climbs {op : Op} (erasing : op.erasing) : op.climbs := by
  cases op <;> trivial

end Op

theorem Request.program_climbs (request : Request) :
    (request.program platform).All Op.climbs := by
  cases isCallback : request.isCallback with
  | true =>
      cases request with
      | assessmentsCallback payload =>
          exact Program.All.bind
            ((assessmentsCallback_all payload).mono
              fun _ => Op.recording.climbs)
            fun _ => Program.All.pure _ _
      | _ => cases isCallback
  | false =>
      cases isErasure : request.isErasure with
      | true =>
          cases request with
          | erase scope email token =>
              exact Program.All.bind
                ((eraseCandidate_all scope email token).mono
                  fun _ => Op.erasing.climbs)
                fun _ => Program.All.pure _ _
          | _ => cases isErasure
      | false =>
          exact (Request.program_submitting isCallback isErasure).mono
            fun _ => Op.submitting.climbs

/-- What a statement that does not lower the attempts writes over a row. -/
theorem SubmissionWrite.climbs {row value : Submission}
    (write : SubmissionWrite before op id value) (climbs : op.climbs)
    (present : before.submissions.row id = some row) :
    row.attempts ≤ value.attempts ∧ value.questionId = row.questionId := by
  cases write with
  | insert fresh =>
      rw [fresh] at present
      cases present
  | @cas _ _ _ values current found _ same =>
      rw [found] at present
      cases present
      refine ⟨?_, rfl⟩
      cases given : values.attempts with
      | none => simp [SubmissionChange.apply, given]
      | some attempts =>
          have atLeast := climbs attempts given
          simp only [SubmissionChange.apply, given, Option.getD_some]
          omega
  | save found =>
      rw [found] at present
      cases present
      exact ⟨Nat.le_refl _, rfl⟩
  | erase found =>
      rw [found] at present
      cases present
      exact ⟨Nat.le_refl _, rfl⟩

/-- The triples of the threads' programs. -/
abbrev StrandTriple (platform : Platform) (requests : Nat → Request)
    (tid : Nat) {α : Type} (pre : Store × ReapLog → Prop) (program : Prog α)
    (post : α → Store × ReapLog → Prop) : Prop :=
  Triple (reaping platform requests)
    (System.ignoringHistory (ticksPrompt platform requests))
    (strandContract platform requests) tid pre program post

/-- A thread that is no reaper has no move of the reaper to account for. -/
theorem strand_triple (isOther : (requests tid).isReaper = false) :
    StrandTriple platform requests tid (fun _ => True)
      ((requests tid).program platform) fun _ _ => True := by
  refine all_recorded (Contract.stable_const True) (fun _ _ _ => trivial)
    (Request.program_climbs _) ?_
  intro op climbs store log answer resp after inv _ _ executes
  refine ⟨inv.step executes ?_, trivial⟩
  intro id value write
  refine ⟨fun row present => write.climbs climbs present, fun isReaper => ?_⟩
  rw [isOther] at isReaper
  cases isReaper

/-! ## What a tick watches -/

/-- Since a tick has read the clock, what it found stranded can end only by a
change that is too young for the tick. -/
structure Watched (platform : Platform) (tid : Nat) (now : Time)
    (ids : List String) (store : Store) : Prop where
  past : now ≤ store.clock
  rows : ∀ id ∈ ids, ∃ row, store.submissions.row id = some row ∧
    (row.status.terminal = true → Young platform now row)
  staged : ∀ id ∈ ids, ∀ owner value,
    store.submissions.staged id = some (owner, value) →
      Young platform now value
  copies : ∀ id ∈ ids, ∀ copy, store.session tid id = some copy →
    (copy.status.terminal = true → Young platform now copy) ∧
      ∀ row, store.submissions.row id = some row →
        copy.questionId = row.questionId

section Watch

variable {log : ReapLog} {now : Time} {ids : List String}

theorem young_of_stamped {sub : Submission} {clock : Time}
    (past : now ≤ clock) (stamped : clock ≤ sub.updatedAt) :
    Young platform now sub := by
  by_cases positive : platform.reapRunningAfterS ≤ 0
  · exact Or.inl positive
  · right
    have grace : 0 ≤ platform.reapRunningAfterS * second :=
      Int.mul_nonneg (by omega) (by decide)
    have later : now ≤ sub.updatedAt := Int.le_trans past stamped
    have earlier : now - platform.reapRunningAfterS * second ≤ now := by
      exact Int.sub_le_self now grace
    exact Int.le_trans earlier later

/-- A step of any thread keeps what is watched, copies of the own session
apart. -/
theorem Watched.of_step (watched : Watched platform tid now ids before)
    (inv : StrandInv platform requests before log)
    (step : StrandStep other before after)
    (copies : ∀ id copy, after.session tid id = some copy →
      before.session tid id = some copy ∨
        before.submissions.row id = some copy) :
    Watched platform tid now ids after := by
  have question {id : String} {row later : Submission}
      (found : before.submissions.row id = some row)
      (visible : after.submissions.row id = some later) :
      later.questionId = row.questionId := by
    rcases inv.writes.change step.moves.submissions id with
      same | ⟨value, -, committed, write⟩
    · rw [same, found] at visible
      cases visible
      rfl
    · rw [committed] at visible
      cases visible
      exact (write.kept row found).2
  refine ⟨Int.le_trans watched.past step.clock, ?_, ?_, ?_⟩
  · intro id member
    obtain ⟨row, found, young⟩ := watched.rows id member
    rcases step.moves.submissions.row id with
      same | ⟨value, staged, committed⟩
    · exact ⟨row, same ▸ found, young⟩
    · exact ⟨value, committed, fun _ =>
        watched.staged id member other value staged⟩
  · intro id member owner value staged
    obtain ⟨row, found, -⟩ := watched.rows id member
    rcases step.stamped id row owner value found staged with earlier | stamped
    · exact watched.staged id member owner value earlier
    · exact young_of_stamped watched.past stamped
  · intro id member copy copied
    obtain ⟨row, found, young⟩ := watched.rows id member
    rcases copies id copy copied with earlier | committed
    · obtain ⟨youngCopy, same⟩ := watched.copies id member copy earlier
      refine ⟨youngCopy, fun later visible => ?_⟩
      rw [question found visible, same row found]
    · rw [found] at committed
      cases committed
      exact ⟨young, fun later visible => (question found visible).symm⟩

theorem watched_stable :
    (strandContract platform requests).Stable tid fun recorded =>
      Watched platform tid now ids recorded.1 := by
  intro before after other different inv guaranteed watched
  refine watched.of_step inv guaranteed.2 fun id copy copied => Or.inl ?_
  rwa [guaranteed.2.moves.session different.symm] at copied

/-- A statement of the tick itself keeps what is watched. -/
theorem Watched.exec (watched : Watched platform tid now ids before)
    (inv : StrandInv platform requests before log)
    (executes :
      AssessmentPlatform.exec platform op tid answer before =
        some (resp, after)) :
    Watched platform tid now ids after :=
  watched.of_step inv (.of_exec inv.wellFormed executes) fun _ _ copied =>
    exec_copy executes copied

end Watch

/-! ## The programs of a tick -/

section Tick

variable {now : Time} {ids : List String} {copy : Submission}

/-- `Watched`, beside the log. -/
abbrev Watching (platform : Platform) (tid : Nat) (now : Time)
    (ids : List String) (recorded : Store × ReapLog) : Prop :=
  Watched platform tid now ids recorded.1

/-- The tick is at a submission, of which it has a copy. -/
def Holding (platform : Platform) (tid : Nat) (now : Time) (ids : List String)
    (id : String) (copy : Submission) (recorded : Store × ReapLog) : Prop :=
  Watched platform tid now ids recorded.1 ∧
    recorded.1.session tid id = some copy

theorem holding_stable :
    (strandContract platform requests).Stable tid
      (Holding platform tid now ids id copy) := by
  intro before after other different inv guaranteed holding
  refine ⟨watched_stable _ _ other different inv guaranteed holding.1, ?_⟩
  rw [guaranteed.2.moves.session different.symm]
  exact holding.2

/-- A statement that writes no submission. -/
theorem watching_quiet {α : Type} {op : Op} {next : Resp op → Prog α}
    {post : α → Store × ReapLog → Prop} (quiet : ¬op.writesSubmission)
    (rest : ∀ resp, StrandTriple platform requests tid
      (Watching platform tid now ids) (next resp) post) :
    StrandTriple platform requests tid (Watching platform tid now ids)
      (issue op >>= next) post := by
  refine issue_recorded (fun _ => Watching platform tid now ids)
    watched_stable (fun _ _ _ => trivial) ?_ rest
  intro store log answer resp after inv watched _ executes
  exact ⟨inv.step executes fun _ _ write => absurd write.writes quiet,
    Watched.exec watched inv executes⟩

theorem watching_all {α : Type} {program : Prog α}
    (quiet : program.All fun op => ¬op.writesSubmission) :
    StrandTriple platform requests tid (Watching platform tid now ids) program
      fun _ => Watching platform tid now ids := by
  refine all_recorded watched_stable (fun _ _ _ => trivial) quiet ?_
  intro op quiet store log answer resp after inv watched _ executes
  exact ⟨inv.step executes fun _ _ write => absurd write.writes quiet,
    Watched.exec watched inv executes⟩

theorem Op.notifying.quiet_submissions {op : Op} (notifying : op.notifying) :
    ¬op.writesSubmission := by
  cases op <;> first | exact notifying.elim | exact not_false

theorem watching_return {α : Type} {value : α} :
    StrandTriple platform requests tid (Watching platform tid now ids)
      (pure value) fun _ => Watching platform tid now ids :=
  Triple.ret watched_stable fun _ _ watched => watched

/-- `_cas` from a status that is not final: the change is a move of the
reaper. -/
theorem cas_watching {expectStatus : Status} {expectAttempts : Nat}
    {values : SubmissionChange} (member : id ∈ ids)
    (live : expectStatus.terminal = false)
    (move : ∀ clock row, row.status = expectStatus →
      row.attempts = expectAttempts → copy.questionId = row.questionId →
        ReaperMove platform id row (values.apply clock row))
    (climbs : ∀ attempts ∈ values.attempts, expectAttempts ≤ attempts) :
    StrandTriple platform requests tid
      (Holding platform tid now ids id copy)
      (cas id expectStatus expectAttempts values)
      fun _ => Watching platform tid now ids := by
  unfold cas
  refine issue_recorded (fun _ => Watching platform tid now ids)
    holding_stable (fun _ _ _ => trivial) ?_ fun won => ?_
  · intro store log answer resp after inv ⟨watched, copied⟩ _ executes
    refine ⟨inv.step executes ?_, Watched.exec watched inv executes⟩
    intro written value write
    refine ⟨fun row present => write.climbs climbs present, fun _ => ?_⟩
    cases write with
    | @cas _ _ _ _ row found status attempts =>
        have question := (watched.copies id member copy copied).2 row found
        exact ⟨row, found, status ▸ live,
          move store.clock row status attempts question⟩
  · refine watching_quiet not_false fun _ => ?_
    exact watching_quiet not_false fun _ => watching_return

theorem endSitting_watching :
    StrandTriple platform requests tid (Watching platform tid now ids)
      (endSittingIfComplete platform id)
      fun _ => Watching platform tid now ids :=
  watching_all (endSittingIfComplete_all
    (fun _ => Op.notifying.quiet_submissions) id)

/-- Reading a submission gives a copy to hold. -/
theorem load_watching {α : Type} {next : Option Submission → Prog α}
    {post : α → Store × ReapLog → Prop} (member : id ∈ ids)
    (absent : StrandTriple platform requests tid
      (Watching platform tid now ids) (next none) post)
    (present : ∀ copy,
      (copy.status.terminal = true → Young platform now copy) →
        StrandTriple platform requests tid
          (Holding platform tid now ids id copy) (next (some copy)) post) :
    StrandTriple platform requests tid (Watching platform tid now ids)
      (issue (.load id) >>= next) post := by
  refine issue_recorded (fun found recorded =>
      Watching platform tid now ids recorded ∧ ∀ copy, found = some copy →
        recorded.1.session tid id = some copy) watched_stable
    (fun _ _ _ => trivial) ?_ ?_
  · intro store log answer found after inv watched _ executes
    refine ⟨inv.step executes fun _ _ write => write.writes.elim,
      Watched.exec watched inv executes, ?_⟩
    intro copy isCopy
    subst isCopy
    exact session_of_load executes
  · intro found
    cases found with
    | none => exact absent.strengthen fun _ _ holds => holds.1
    | some copy =>
        refine Triple.of_fact (fun recorded _ holds => ?_) fun young =>
          (present copy young).strengthen fun _ _ holds =>
            ⟨holds.1, holds.2 copy rfl⟩
        exact (holds.1.copies id member copy (holds.2 copy rfl)).1

/-- Reading it again without a commit in between gives the same copy. -/
theorem load_holding {α : Type} {next : Option Submission → Prog α}
    {post : α → Store × ReapLog → Prop}
    (rest : StrandTriple platform requests tid
      (Holding platform tid now ids id copy) (next (some copy)) post) :
    StrandTriple platform requests tid (Holding platform tid now ids id copy)
      (issue (.load id) >>= next) post := by
  refine issue_recorded (fun found recorded =>
      Holding platform tid now ids id copy recorded ∧ found = some copy)
    holding_stable (fun _ _ _ => trivial) ?_ ?_
  · intro store log answer found after inv ⟨watched, copied⟩ _ executes
    have isCopy : found = some copy := by
      rcases exec_load executes with
        ⟨_, rfl, same, -⟩ | ⟨_, -, absent, -⟩ | ⟨-, absent, -⟩
      · rw [copied] at same
        exact same.symm
      · rw [copied] at absent
        cases absent
      · rw [copied] at absent
        cases absent
    subst isCopy
    exact ⟨inv.step executes fun _ _ write => write.writes.elim,
      ⟨Watched.exec watched inv executes, session_of_load executes⟩, rfl⟩
  · intro found
    refine Triple.of_fact (fun _ _ holds => holds.2) fun isCopy => ?_
    subst isCopy
    exact rest.strengthen fun _ _ holds => holds.1

/-- A statement that leaves the session's copies alone. -/
theorem holding_quiet {α : Type} {op : Op} {next : Resp op → Prog α}
    {post : α → Store × ReapLog → Prop} (quiet : ¬op.writesSubmission)
    (apart : ¬op.touchesSession)
    (rest : ∀ resp, StrandTriple platform requests tid
      (Holding platform tid now ids id copy) (next resp) post) :
    StrandTriple platform requests tid (Holding platform tid now ids id copy)
      (issue op >>= next) post := by
  refine issue_recorded (fun _ => Holding platform tid now ids id copy)
    holding_stable (fun _ _ _ => trivial) ?_ rest
  intro store log answer resp after inv ⟨watched, copied⟩ _ executes
  refine ⟨inv.step executes fun _ _ write => absurd write.writes quiet,
    Watched.exec watched inv executes, ?_⟩
  rw [exec_session_same executes apart]
  exact copied

theorem holding_return {α : Type} {value : α} :
    StrandTriple platform requests tid (Holding platform tid now ids id copy)
      (pure value) fun _ => Watching platform tid now ids :=
  Triple.ret holding_stable fun _ _ holding => holding.1

/-- `_trigger_agent`, for a submission that the tick has found stranded. -/
theorem triggerAgent_watching (member : id ∈ ids)
    (live : copy.status.terminal = false)
    (below : copy.attempts < platform.maxTriggerAttempts) :
    StrandTriple platform requests tid
      (Holding platform tid now ids id copy) (triggerAgent platform id)
      fun _ => Watching platform tid now ids := by
  unfold triggerAgent
  refine load_holding ?_
  dsimp only
  refine Triple.bind (cas_watching member live ?_ ?_) fun claimed => ?_
  · intro clock row _ attempts _
    rw [← attempts]
    exact .claim clock (attempts ▸ below)
  · simp [claimChange]
  split
  · exact watching_return
  refine load_watching member watching_return fun job _ => ?_
  dsimp only
  refine holding_quiet not_false not_false fun answered => ?_
  cases answered with
  | refused detail =>
      refine Triple.bind (cas_watching member rfl ?_ ?_) fun refused => ?_
      · exact fun clock row pending _ _ => .refuse clock detail pending
      · simp
      split
      · exact endSitting_watching
      · exact watching_return
  | failed => exact holding_return
  | accepted jobId =>
      refine Triple.bind (cas_watching member rfl ?_ ?_)
        fun _ => watching_return
      · exact fun clock row pending _ _ => .accept clock jobId pending
      · simp

/-- What is due when it is read has not ended. -/
theorem live_of_due {sub : Submission} (due : reapDue platform now sub = true)
    (young : sub.status.terminal = true → Young platform now sub) :
    sub.status.terminal = false := by
  by_contra ended
  have isTerminal : sub.status.terminal = true := by simpa using ended
  have notPending : sub.status ≠ .pending := by
    intro pending
    rw [pending] at isTerminal
    cases isTerminal
  simp only [reapDue, notPending, if_false, Bool.not_eq_true',
    Bool.or_eq_false_iff, decide_eq_false_iff_not] at due
  rcases young isTerminal with disabled | young
  · exact due.1 disabled
  · exact due.2 young

theorem reapOne_watching (member : id ∈ ids) :
    StrandTriple platform requests tid (Watching platform tid now ids)
      (reapOne platform now id) fun _ => Watching platform tid now ids := by
  unfold reapOne
  refine load_watching member watching_return fun sub young => ?_
  dsimp only
  split
  · exact holding_return
  next due =>
    have live := live_of_due (by simpa using due) young
    split
    · next below => exact triggerAgent_watching member live below.1
    · next spent =>
        refine Triple.bind (cas_watching member live ?_ ?_) fun gaveUp => ?_
        · intro clock row _ attempts question
          rw [← attempts]
          refine .giveUp clock ?_
          rw [attempts, ← question]
          by_cases exhausted :
              platform.maxTriggerAttempts ≤ sub.attempts
          · exact Or.inl exhausted
          · right
            by_contra known
            have isSome := Option.isSome_iff_ne_none.mpr known
            exact spent ⟨Nat.lt_of_not_le exhausted, isSome⟩
        · simp
        split
        · exact endSitting_watching
        · exact watching_return

theorem reapEach_watching {rest : List String} (listed : rest ⊆ ids) :
    StrandTriple platform requests tid (Watching platform tid now ids)
      (reapEach platform now rest)
      fun _ => Watching platform tid now ids := by
  induction rest with
  | nil => exact watching_return
  | cons id rest inductionHypothesis =>
      obtain ⟨member, others⟩ := List.cons_subset.mp listed
      exact Triple.bind (reapOne_watching member)
        fun _ => inductionHypothesis others

end Tick

/-! ## A tick as a whole -/

/-- The thread has read no submission yet. -/
def Unread (tid : Nat) (recorded : Store × ReapLog) : Prop :=
  ∀ id, recorded.1.session tid id = none

theorem unread_stable :
    (strandContract platform requests).Stable tid (Unread tid) := by
  intro before after other different _ guaranteed unread id
  rw [guaranteed.2.moves.session different.symm]
  exact unread id

/-- A tick has read the clock: what is still staged over a row is young. -/
structure Prompt (platform : Platform) (tid : Nat) (now : Time)
    (recorded : Store × ReapLog) : Prop where
  past : now ≤ recorded.1.clock
  staged : ∀ id row owner value, recorded.1.submissions.row id = some row →
    recorded.1.submissions.staged id = some (owner, value) →
      Young platform now value
  unread : Unread tid recorded

theorem prompt_stable {now : Time} :
    (strandContract platform requests).Stable tid
      (Prompt platform tid now) := by
  intro before after other different inv guaranteed prompt
  have step := guaranteed.2
  refine ⟨Int.le_trans prompt.past step.clock, ?_,
    unread_stable _ _ other different inv guaranteed prompt.unread⟩
  intro id row owner value found staged
  have present : ∃ row, before.1.submissions.row id = some row := by
    by_cases own : owner = other
    · subst own
      exact ⟨row, (step.locked id value staged) ▸ found⟩
    · have earlier := (step.moves.submissions.others own).mp staged
      rcases step.moves.submissions.row id with same | ⟨_, locked, -⟩
      · exact ⟨row, same ▸ found⟩
      · rw [earlier] at locked
        cases locked
        exact absurd rfl own
  obtain ⟨row, found⟩ := present
  rcases step.stamped id row owner value found staged with earlier | stamped
  · exact prompt.staged id row owner value found earlier
  · exact young_of_stamped prompt.past stamped

/-- What a tick selects is what it watches from then on. -/
theorem Prompt.select {now : Time} {store : Store} {log : ReapLog}
    (prompt : Prompt platform tid now (store, log)) :
    let ids := store.submissions.select fun row => !row.status.terminal
    Watched platform tid now ids (store.rememberAll tid ids) := by
  intro ids
  have selected {id : String} (member : id ∈ ids) :
      ∃ row, store.submissions.row id = some row ∧
        row.status.terminal = false := by
    obtain ⟨-, row, found, live⟩ := mem_select_iff.mp member
    exact ⟨row, found, by simpa using live⟩
  refine ⟨prompt.past, ?_, ?_, ?_⟩
  · intro id member
    obtain ⟨row, found, live⟩ := selected member
    refine ⟨row, found, fun ended => ?_⟩
    rw [live] at ended
    cases ended
  · intro id member owner value staged
    obtain ⟨row, found, -⟩ := selected member
    exact prompt.staged id row owner value found staged
  · intro id member copy copied
    obtain ⟨row, found, live⟩ := selected member
    have unread : store.session tid id = none := prompt.unread id
    simp only [Store.rememberAll, Function.update_self, member, if_true,
      unread, Option.none_or] at copied
    rw [found] at copied
    cases copied
    refine ⟨fun ended => ?_, fun later visible => ?_⟩
    · rw [live] at ended
      cases ended
    · have visible : store.submissions.row id = some later := visible
      rw [found] at visible
      cases visible
      rfl

theorem reapTick_strand (isReaper : (requests tid).isReaper = true) :
    StrandTriple platform requests tid (Unread tid) (reapTick platform)
      fun _ _ => True := by
  unfold reapTick
  refine issue_recorded (fun now => Prompt platform tid now) unread_stable
    (fun _ _ _ => trivial) ?_ fun now => ?_
  · intro store log answer now after inv unread prompt executes
    refine ⟨inv.step executes fun _ _ write => write.writes.elim, ?_⟩
    cases executes
    refine ⟨Int.le_refl _, fun id row owner value found staged => ?_, unread⟩
    have isKey := inv.wellFormed.submissions.row found
    exact prompt isReaper id isKey row owner value found staged
  refine issue_recorded (fun ids => Watching platform tid now ids)
    prompt_stable (fun _ _ _ => trivial) ?_ fun ids => ?_
  · intro store log answer ids after inv prompt _ executes
    refine ⟨inv.step executes fun _ _ write => write.writes.elim, ?_⟩
    cases executes
    exact prompt.select
  exact (reapEach_watching (List.Subset.refl ids)).weaken
    fun _ _ _ _ => trivial

theorem request_strand :
    StrandTriple platform requests tid (Unread tid)
      ((requests tid).program platform) fun _ _ => True := by
  cases isReaper : (requests tid).isReaper with
  | true =>
      cases request : requests tid with
      | reapTick =>
          exact Triple.bind (reapTick_strand isReaper) fun _ =>
            Triple.ret (Contract.stable_const True) fun _ _ _ => trivial
      | _ =>
          rw [request] at isReaper
          cases isReaper
  | false =>
      exact (strand_triple isReaper).strengthen fun _ _ _ => trivial

/-! ## Every run -/

theorem StrandInv.initial (clock : Time) :
    StrandInv platform requests (Store.initial clock) .empty where
  wellFormed := .initial clock
  writes := Staged.empty
  claims := fun _ => ⟨Nat.zero_le _, Nat.zero_le _⟩
  settled := fun _ => Nat.zero_le _

/-- In every interleaving in which the ticks are prompt, a submission is claimed
by ticks at most as often as the limit says and ended by them at most once
unless it is taken up again, and a tick changes a submission only while it has
not ended: it claims it for one more attempt, records the agent's answer to its
claim, or gives it up when the attempts are spent. -/
theorem stranded_settles {clock : Time}
    {config : Config Nat Op Resp Reply (Store × ReapLog)}
    (reached :
      (reaping platform requests).Reaches
        (System.ignoringHistory (ticksPrompt platform requests))
        ((reaping platform requests).start (.initial clock, .empty))
        config) :
    (∀ id, config.store.2.claims id ≤ platform.maxTriggerAttempts ∧
      config.store.2.settled id ≤ config.store.2.reopened id + 1) ∧
    ∀ tid after, (requests tid).isReaper →
      (reaping platform requests).Step
        (System.ignoringHistory (ticksPrompt platform requests)) tid config
        after →
        ∀ id row, config.store.1.submissions.row id = some row →
          after.store.1.submissions.row id = some row ∨
            row.status.terminal = false ∧
              ∃ value, after.store.1.submissions.row id = some value ∧
                ReaperMove platform id row value := by
  have holdsStart :
      (strandContract platform requests).Holds (reaping platform requests)
        (System.ignoringHistory (ticksPrompt platform requests))
        (fun _ _ _ => True)
        ((reaping platform requests).start (.initial clock, .empty)) :=
    Contract.holds_start (.initial clock) (fun _ _ => rfl)
      fun _ => request_strand
  have holds := holdsStart.reaches reached
  have inv : StrandInv platform requests config.store.1 config.store.2 :=
    holds.1
  constructor
  · intro id
    refine ⟨(inv.claims id).1, Nat.le_trans (inv.settled id) ?_⟩
    have atMost : config.store.1.endedOf id ≤ 1 := by
      unfold Store.endedOf
      repeat' split
      all_goals omega
    omega
  · intro tid after isReaper step id row found
    obtain ⟨⟨-, seen⟩, -⟩ := holds.step step
    rcases inv.writes.change seen.moves.submissions id with
      same | ⟨value, -, visible, write⟩
    · exact Or.inl (same ▸ found)
    · obtain ⟨_, isRow, live, move⟩ := write.reaper isReaper
      rw [found] at isRow
      cases isRow
      exact Or.inr ⟨live, value, visible, move⟩

/-! ## Two workers -/

/-- A direct submission, two workers' ticks, and time in between. -/
def twoReapers : Nat → Request
  | 0 => Sample.direct
  | 1 => .passTime (1000 * 1000000)
  | 2 | 3 => .reapTick
  | _ => .idle

/-- Ticks read the clock while nothing is staged. -/
def nothingStaged : Nat → Op → Store × ReapLog → Bool
  | _, .now, recorded =>
      recorded.1.submissions.keys.all fun id =>
        (recorded.1.submissions.staged id).isNone
  | _, _, _ => true

/-- Both workers find the submission stranded with its attempts spent; one of
them gives it up. -/
theorem stranded_settles_once :
    ∃ config : Config Nat Op Resp Reply (Store × ReapLog),
      config.store.2.settled "s" = 1 ∧
        Sample.statusIs config.store.1 .error ∧
        config.store.2.claims "s" ≤ 1 ∧
        config.store.2.settled "s" ≤ config.store.2.reopened "s" + 1 := by
  have ran :
      ((reaping (Sample.platform 1) twoReapers).runSchedule nothingStaged
        ((reaping (Sample.platform 1) twoReapers).start (.initial 0, .empty))
        (Sample.steps 0 13 ++ Sample.steps 1 1 ++ Sample.steps 2 2 ++
          Sample.steps 3 2 ++ Sample.steps 2 5 ++ Sample.steps 3 4)).any
        fun config => config.store.2.settled "s" == 1 &&
          Sample.statusIs config.store.1 .error := by
    decide +kernel
  have sound :
      ∀ tid op store, nothingStaged tid op store →
        System.ignoringHistory (ticksPrompt (Sample.platform 1) twoReapers) tid
          op store := by
    intro tid op store permitted
    cases op with
    | now =>
        intro _ id isKey row owner value _ staged
        have free := List.all_eq_true.mp permitted id isKey
        rw [staged] at free
        cases free
    | _ => trivial
  obtain ⟨config, reached, seen⟩ := System.exists_of_runSchedule sound ran
  simp only [Bool.and_eq_true, beq_iff_eq] at seen
  obtain ⟨claims, settled⟩ := (stranded_settles reached).1 "s"
  exact ⟨config, seen.1, seen.2, claims, settled⟩

end AssessmentPlatform
