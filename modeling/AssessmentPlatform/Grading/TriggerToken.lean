import AssessmentPlatform.Grading.Effects
import AssessmentPlatform.Grading.Sample
import AssessmentPlatform.Grading.Statements
import Mathlib.Data.List.Perm.Subperm

/-!
# The trigger token

`attempts` counts the trigger claims that were won, each claim makes at most one
call to the agent, and the reaper never claims past the limit.  The argument
keeps a history of who won which attempt.
-/

namespace AssessmentPlatform

open Interleaving RowTable

variable {platform : Platform} {requests : Nat → Request} {tid : Nat}
variable {answer : AgentAnswer} {op : Op} {before after : Store}
variable {resp : Resp op}

/-! ## Who won which attempt -/

/-- The thread that committed the claim of an attempt. -/
abbrev Winners := String → Nat → Option Nat

/-- The claim of attempt `attempt` that `tid` is about to commit. -/
def Store.claims
    (store : Store) (tid : Nat) (id : String) (attempt : Nat) : Bool :=
  match store.submissions.staged id, store.submissions.row id with
  | some (owner, value), some row =>
      owner == tid && value.attempts == attempt && row.attempts + 1 == attempt
  | _, _ => false

/-- A COMMIT records the claims it makes visible. -/
def recordWinners :
    (op : Op) → Nat → Resp op → Store → Store → Winners → Winners
  | .commit, tid, _, before, _, winners => fun id attempt =>
      if before.claims tid id attempt then some tid else winners id attempt
  | _, _, _, _, _, winners => winners

theorem claims_iff {id : String} {attempt : Nat} :
    before.claims tid id attempt ↔
      ∃ value row, before.submissions.staged id = some (tid, value) ∧
        before.submissions.row id = some row ∧
        value.attempts = attempt ∧ row.attempts + 1 = attempt := by
  unfold Store.claims
  split
  · next owner value row staged found =>
      simp only [Bool.and_eq_true, beq_iff_eq, staged, found]
      constructor
      · rintro ⟨⟨rfl, attempts⟩, earlier⟩
        exact ⟨value, row, rfl, rfl, attempts, earlier⟩
      · rintro ⟨_, _, ⟨⟩, ⟨⟩, attempts, earlier⟩
        exact ⟨⟨rfl, attempts⟩, earlier⟩
  · next none =>
      constructor
      · exact nofun
      · rintro ⟨value, row, staged, found, -⟩
        exact absurd found (none tid value row staged)

theorem recordWinners_of_not_commit
    {winners : Winners} (notCommit : op ≠ .commit) :
    recordWinners op tid resp before after winners = winners := by
  cases op <;> first | rfl | exact absurd rfl notCommit

/-! ## The contract -/

/-- Whether a request never takes `attempts` past the limit: a submit and a
manual retry trigger without looking at it, the reaper looks first. -/
def Request.isLimited : Request → Bool
  | .candidateSubmit _ | .createSubmission _ | .retrySubmission _ => false
  | _ => true

/-- What may be staged on a submission: nothing that touches `attempts`, or a
trigger claim. -/
structure ClaimWrite
    (platform : Platform) (request : Request) (id : String)
    (row : Option Submission) (value : Submission) : Prop where
  fresh : row = none → value.attempts = 0
  kept :
    ∀ {current}, row = some current →
      value.attempts = current.attempts ∨
        ∃ now, value =
          (claimChange id (current.attempts + 1)).apply now current
  limited :
    ∀ {current}, row = some current → request.isLimited →
      value.attempts ≠ current.attempts →
        value.attempts ≤ platform.maxTriggerAttempts

/-- The invariant: calls are made by the winners of their attempts. -/
structure TokenInv
    (platform : Platform) (requests : Nat → Request) (store : Store)
    (winners : Winners) : Prop where
  wellFormed : store.WellFormed
  writes :
    store.submissions.Staged fun tid id row value =>
      ClaimWrite platform (requests tid) id row value
  bound :
    ∀ {id attempt tid}, winners id attempt = some tid →
      1 ≤ attempt ∧ ∃ row, store.submissions.row id = some row ∧
        attempt ≤ row.attempts
  caller :
    ∀ call ∈ store.calls,
      winners call.submissionId call.attempt = some call.caller
  distinct :
    (store.calls.map fun call => (call.submissionId, call.attempt)).Nodup
  limited :
    ∀ call ∈ store.calls, (requests call.caller).isLimited →
      call.attempt ≤ platform.maxTriggerAttempts

/-- What others see of a step: winners stay, and new calls are one's own. -/
structure TokenStep
    (tid : Nat) (before after : Store × Winners) : Prop where
  moves : Store.Moves tid before.1 after.1
  winners :
    ∀ {id attempt winner}, before.2 id attempt = some winner →
      after.2 id attempt = some winner
  calls :
    ∀ call ∈ after.1.calls, call ∈ before.1.calls ∨ call.caller = tid

/-- The contract of every thread. -/
def tokenContract (platform : Platform) (requests : Nat → Request) :
    Contract Nat (Store × Winners) where
  inv := fun recorded => TokenInv platform requests recorded.1 recorded.2
  guar := fun tid before after =>
    TokenInv platform requests after.1 after.2 ∧ TokenStep tid before after
  guar_inv := fun _ guaranteed => guaranteed.1

/-! ## One statement -/

/-- The log of calls after a statement: as before, or with one call more that
the winner of its attempt makes for the first time. -/
def CallsKept
    (platform : Platform) (request : Request) (tid : Nat)
    (winners : Winners) (before after : List TriggerCall) : Prop :=
  after = before ∨
    ∃ call, after = before ++ [call] ∧ call.caller = tid ∧
      winners call.submissionId call.attempt = some tid ∧
      (∀ other ∈ before,
        (other.submissionId, other.attempt) ≠
          (call.submissionId, call.attempt)) ∧
      (request.isLimited → call.attempt ≤ platform.maxTriggerAttempts)

section Step

variable {winners : Winners}

/-- `attempts` never goes down. -/
theorem TokenInv.attempts_le
    (inv : TokenInv platform requests before winners)
    (moves : Store.Moves tid before after)
    {id : String} {row : Submission}
    (found : before.submissions.row id = some row) :
    ∃ later, after.submissions.row id = some later ∧
      row.attempts ≤ later.attempts := by
  rcases inv.writes.change moves.submissions id with
    same | ⟨value, -, committed, write⟩
  · exact ⟨row, same ▸ found, le_rfl⟩
  · refine ⟨value, committed, ?_⟩
    rcases write.kept found with kept | ⟨now, rfl⟩
    · exact kept.ge
    · simp [SubmissionChange.apply, claimChange]

/-- A winner is recorded for the attempt after the last one, and stays. -/
theorem TokenInv.winner_kept
    (inv : TokenInv platform requests before winners)
    {id : String} {attempt winner : Nat}
    (won : winners id attempt = some winner) :
    recordWinners op tid resp before after winners id attempt =
      some winner := by
  by_cases committing : op = .commit
  · subst committing
    simp only [recordWinners]
    split
    · next claims =>
        obtain ⟨value, row, -, found, -, next⟩ := claims_iff.mp claims
        obtain ⟨-, current, foundCurrent, bound⟩ := inv.bound won
        rw [found] at foundCurrent
        cases foundCurrent
        omega
    · exact won
  · rw [recordWinners_of_not_commit committing]
    exact won

/-- A statement keeps the contract if the writes it stages and the call it makes
do. -/
theorem TokenInv.step
    (inv : TokenInv platform requests before winners)
    (executes : exec platform op tid answer before = some (resp, after))
    (own :
      ∀ id value, SubmissionWrite before op id value →
        ClaimWrite platform (requests tid) id (before.submissions.row id)
          value)
    (calls :
      CallsKept platform (requests tid) tid winners before.calls
        after.calls) :
    (tokenContract platform requests).guar tid (before, winners)
      (after, recordWinners op tid resp before after winners) := by
  have wellFormed := inv.wellFormed
  have submissions := exec_submissions wellFormed.submissions executes
  have moves := wellFormed.moves executes
  have bound :
      ∀ {id attempt winner},
        recordWinners op tid resp before after winners id attempt =
            some winner →
          1 ≤ attempt ∧ ∃ row, after.submissions.row id = some row ∧
            attempt ≤ row.attempts := by
    intro id attempt winner won
    have earlier : winners id attempt = some winner →
        1 ≤ attempt ∧ ∃ row, after.submissions.row id = some row ∧
          attempt ≤ row.attempts := by
      intro won
      obtain ⟨positive, row, found, atMost⟩ := inv.bound won
      obtain ⟨later, foundLater, more⟩ := inv.attempts_le moves found
      exact ⟨positive, later, foundLater, atMost.trans more⟩
    by_cases committing : op = .commit
    · subst committing
      simp only [recordWinners] at won
      split at won
      · next claims =>
          obtain ⟨value, row, staged, found, attempts, next⟩ :=
            claims_iff.mp claims
          cases executes
          exact
            ⟨by omega, value, row_commit_of_staged staged, attempts.ge⟩
      · exact earlier won
    · rw [recordWinners_of_not_commit committing] at won
      exact earlier won
  refine
    ⟨⟨wellFormed.exec executes, inv.writes.acts submissions own, bound,
      ?_, ?_, ?_⟩, moves, inv.winner_kept, ?_⟩
  all_goals
    rcases calls with same | ⟨call, appended, mine, won, first, limit⟩
  · rw [same]
    exact fun call member => inv.winner_kept (inv.caller call member)
  · rw [appended]
    intro tested member
    rcases List.mem_append.mp member with earlier | last
    · exact inv.winner_kept (inv.caller tested earlier)
    · rw [List.mem_singleton] at last
      rw [last, mine]
      exact inv.winner_kept won
  · rw [same]
    exact inv.distinct
  · rw [appended, List.map_append, List.map_singleton]
    refine List.nodup_append.mpr ⟨inv.distinct, List.nodup_singleton _, ?_⟩
    intro tested member other last
    rw [List.mem_singleton] at last
    obtain ⟨earlier, earlierMember, rfl⟩ := List.mem_map.mp member
    rw [last]
    exact first earlier earlierMember
  · rw [same]
    exact inv.limited
  · rw [appended]
    intro tested member isLimited
    rcases List.mem_append.mp member with earlier | last
    · exact inv.limited tested earlier isLimited
    · rw [List.mem_singleton] at last
      subst last
      exact limit (mine ▸ isLimited)
  · rw [same]
    exact fun call member => Or.inl member
  · rw [appended]
    intro tested member
    rcases List.mem_append.mp member with earlier | last
    · exact Or.inl earlier
    · rw [List.mem_singleton] at last
      exact Or.inr (last ▸ mine)

end Step

namespace Op

/-- Statements that neither claim nor call the agent. -/
def quiet : Op → Prop
  | .trigger .. => False
  | .casSubmission _ _ _ values => values.attempts = none
  | .insertSubmission row => row.attempts = 0
  | _ => True

end Op

/-- A statement that neither claims nor calls the agent. -/
theorem token_quiet
    {winners : Winners} (quiet : op.quiet)
    (inv : TokenInv platform requests before winners)
    (executes : exec platform op tid answer before = some (resp, after)) :
    (tokenContract platform requests).guar tid (before, winners)
      (after, recordWinners op tid resp before after winners) := by
  have silent : ¬op.callsAgent := by
    cases op <;> first | exact id | exact fun _ => quiet
  refine inv.step executes ?_ (Or.inl (exec_calls executes silent))
  intro id value write
  have keeps :
      ∀ current, before.submissions.row id = some current →
        value.attempts = current.attempts →
          ClaimWrite platform (requests tid) id
            (before.submissions.row id) value := by
    intro current found same
    refine ⟨fun absent => ?_, fun found' => ?_, fun found' _ different => ?_⟩
    · rw [found] at absent
      cases absent
    · rw [found] at found'
      cases found'
      exact Or.inl same
    · rw [found] at found'
      cases found'
      exact absurd same different
  cases write with
  | insert fresh =>
      refine ⟨fun _ => quiet, fun found => ?_, fun found => ?_⟩
      · rw [fresh] at found
        cases found
      · rw [fresh] at found
        cases found
  | @cas _ _ _ values row found =>
      have untouched : values.attempts = none := quiet
      exact keeps row found (by simp [SubmissionChange.apply, untouched])
  | @save _ _ row found =>
      exact keeps row found rfl
  | @erase _ _ row _ found =>
      exact keeps row found rfl

theorem Op.metering.quiet {op : Op} (metering : op.metering) : op.quiet := by
  cases op <;> trivial

theorem Op.notifying.quiet {op : Op} (notifying : op.notifying) :
    op.quiet := by
  cases op <;> trivial

theorem Op.reopening.quiet {op : Op} (reopening : op.reopening) :
    op.quiet := by
  cases op <;> trivial

theorem Op.starting.quiet {op : Op} (starting : op.starting) : op.quiet := by
  cases op <;> trivial

theorem Op.recording.quiet {op : Op} (recording : op.recording) :
    op.quiet := by
  cases op <;> first | trivial | exact recording.elim False.elim False.elim

theorem Op.erasing.quiet {op : Op} (erasing : op.erasing) : op.quiet := by
  cases op <;> trivial

/-! ## The programs -/

section Triples

/-- The triples of the threads' programs. -/
abbrev TokenTriple
    (platform : Platform) (requests : Nat → Request) (tid : Nat) {α : Type}
    (pre : Store × Winners → Prop) (program : Prog α)
    (post : α → Store × Winners → Prop) : Prop :=
  Triple ((serving platform requests).withHistory recordWinners)
    (System.ignoringHistory System.anyRun) (tokenContract platform requests)
    tid pre program post

/-- Nothing is assumed or promised. -/
abbrev anything : Store × Winners → Prop :=
  fun _ => True

theorem anything_stable :
    (tokenContract platform requests).Stable tid anything :=
  Contract.stable_const True

theorem quiet_program
    {α : Type} {program : Prog α} (quiet : program.All Op.quiet) :
    TokenTriple platform requests tid anything program
      (fun _ => anything) :=
  all_recorded anything_stable (fun _ _ _ => trivial) quiet
    fun _ quiet _ _ _ _ _ inv _ _ executes =>
      ⟨token_quiet quiet inv executes, trivial⟩

theorem quiet_issue
    {α : Type} {op : Op} {next : Resp op → Prog α}
    {post : α → Store × Winners → Prop} (quiet : op.quiet)
    (rest :
      ∀ resp, TokenTriple platform requests tid anything (next resp) post) :
    TokenTriple platform requests tid anything (issue op >>= next) post :=
  issue_recorded (fun _ => anything) anything_stable
    (fun _ _ _ => trivial)
    (fun _ _ _ _ _ inv _ _ executes =>
      ⟨token_quiet quiet inv executes, trivial⟩) rest

/-- `tid` has a claim of the attempt staged. -/
def Claimed (tid : Nat) (id : String) (attempt : Nat)
    (recorded : Store × Winners) : Prop :=
  recorded.1.claims tid id attempt

/-- `tid` won the attempt, and has not called the agent for it yet. -/
def Won (tid : Nat) (id : String) (attempt : Nat)
    (recorded : Store × Winners) : Prop :=
  recorded.2 id attempt = some tid ∧
    ∀ call ∈ recorded.1.calls, (call.submissionId, call.attempt) ≠ (id, attempt)

theorem claimed_stable {id : String} {attempt : Nat} :
    (tokenContract platform requests).Stable tid (Claimed tid id attempt) := by
  rintro before after other different - ⟨-, step⟩ claimed
  obtain ⟨value, row, staged, found, attempts⟩ := claims_iff.mp claimed
  refine claims_iff.mpr ⟨value, row, ?_, ?_, attempts⟩
  · exact (step.moves.submissions.others different.symm).mpr staged
  · rw [step.moves.submissions.row_of_locked different.symm staged]
    exact found

theorem won_stable {id : String} {attempt : Nat} :
    (tokenContract platform requests).Stable tid (Won tid id attempt) := by
  rintro before after other different - ⟨inv, step⟩ ⟨won, first⟩
  refine ⟨step.winners won, fun call member same => ?_⟩
  rcases step.calls call member with earlier | theirs
  · exact first call earlier same
  · cases same
    have caller := inv.caller call member
    rw [step.winners won, theirs] at caller
    exact different (Option.some.inj caller).symm

/-- `_cas` with a trigger claim: winning it wins the attempt. -/
theorem claim_triple
    {id : String} {expectStatus : Status} {expectAttempts : Nat}
    (limit :
      (requests tid).isLimited →
        expectAttempts < platform.maxTriggerAttempts) :
    TokenTriple platform requests tid anything
      (cas id expectStatus expectAttempts
        (claimChange id (expectAttempts + 1)))
      (fun won recorded => won → Won tid id (expectAttempts + 1) recorded) := by
  unfold cas
  refine issue_recorded
    (fun won recorded => won → Claimed tid id (expectAttempts + 1) recorded)
    anything_stable (fun _ _ _ => trivial) ?_ fun won => ?_
  · rintro store winners answer won after inv - - executes
    have calls := exec_calls executes not_false
    refine ⟨TokenInv.step inv executes ?_ (Or.inl calls), ?_⟩
    · intro write value staged
      cases staged with
      | @cas _ _ _ _ row found status attempts =>
          subst attempts
          refine ⟨fun absent => ?_, fun foundCurrent => ?_,
            fun foundCurrent isLimited _ => ?_⟩
          · rw [found] at absent
            cases absent
          · rw [found] at foundCurrent
            cases foundCurrent
            exact Or.inr ⟨store.clock, rfl⟩
          · exact limit isLimited
    · rintro rfl
      simp only [exec, Option.map_eq_some_iff] at executes
      obtain ⟨⟨_, table⟩, tried, equal⟩ := executes
      cases equal
      rcases tryUpdate_cases tried with
        ⟨-, -, row, found, isMatch, rfl⟩ | ⟨⟨⟩, -⟩
      simp only [Bool.and_eq_true, beq_iff_eq] at isMatch
      refine claims_iff.mpr
        ⟨_, row, Function.update_self .., found, rfl, by omega⟩
  refine issue_recorded
    (fun _ recorded => won → Won tid id (expectAttempts + 1) recorded)
    claimed_stable.imp (fun _ _ _ => trivial) ?_ fun _ => ?_
  · rintro store winners answer _ after inv claimed - executes
    refine ⟨token_quiet trivial inv executes, fun isWon => ?_⟩
    have claims : store.claims tid id (expectAttempts + 1) = true :=
      claimed isWon
    obtain ⟨value, row, -, found, -, next⟩ := claims_iff.mp claims
    refine ⟨by simp [recordWinners, claims], fun call member same => ?_⟩
    rw [exec_calls executes not_false] at member
    obtain ⟨rfl, same⟩ := Prod.mk.inj same
    -- an earlier call would have been for an attempt already counted
    obtain ⟨-, current, foundCurrent, bound⟩ :=
      inv.bound (inv.caller call member)
    rw [found] at foundCurrent
    cases foundCurrent
    omega
  refine issue_recorded
    (fun _ recorded => won → Won tid id (expectAttempts + 1) recorded)
    won_stable.imp (fun _ _ _ => trivial) ?_ fun _ =>
      Triple.ret won_stable.imp fun _ _ holds => holds
  rintro store winners answer _ after inv hasWon - executes
  refine ⟨token_quiet trivial inv executes, fun isWon => ?_⟩
  refine ⟨(hasWon isWon).1, ?_⟩
  rw [exec_calls executes not_false]
  exact (hasWon isWon).2

/-- What a limited request must know of the session's copy before it
triggers. -/
def MayTrigger
    (platform : Platform) (request : Request) (tid : Nat) (id : String)
    (recorded : Store × Winners) : Prop :=
  request.isLimited → ∃ copy, recorded.1.session tid id = some copy ∧
    copy.attempts < platform.maxTriggerAttempts

theorem mayTrigger_stable {id : String} :
    (tokenContract platform requests).Stable tid
      (MayTrigger platform (requests tid) tid id) := by
  rintro before after other different - ⟨-, step⟩ may isLimited
  rw [step.moves.session different.symm]
  exact may isLimited

theorem triggerAgent_triple {id : String} :
    TokenTriple platform requests tid
      (MayTrigger platform (requests tid) tid id)
      (triggerAgent platform id) (fun _ => anything) := by
  unfold triggerAgent
  refine issue_recorded
    (fun found _ => ∀ copy, found = some copy → (requests tid).isLimited →
      copy.attempts < platform.maxTriggerAttempts)
    mayTrigger_stable (fun _ _ _ => trivial) ?_ ?_
  · rintro store winners answer found after inv may - executes
    refine ⟨token_quiet trivial inv executes, ?_⟩
    rintro copy rfl isLimited
    obtain ⟨seen, copied, limit⟩ := may isLimited
    rcases exec_load executes with
      ⟨_, ⟨⟩, same, -⟩ | ⟨_, -, absent, -⟩ | ⟨⟨⟩, -⟩
    · rw [copied] at same
      cases same
      exact limit
    · rw [copied] at absent
      cases absent
  rintro (_ | copy)
  · exact Triple.ret (Contract.stable_const _) fun _ _ _ => trivial
  refine Triple.of_fact (fun _ _ limit => limit copy rfl) fun limit => ?_
  refine Triple.strengthen ?_ fun _ _ _ => trivial
  refine Triple.bind (claim_triple limit) fun won => ?_
  split
  · exact Triple.ret won_stable.imp fun _ _ _ => trivial
  next claimed =>
    have isWon : won = true := by simpa using claimed
    refine issue_recorded
      (fun found recorded => Won tid id (copy.attempts + 1) recorded ∧
        ∀ job, found = some job → job.id = id)
      won_stable.imp (fun _ _ _ => trivial) ?_ ?_
    · rintro store winners answer found after inv hasWon - executes
      obtain ⟨winner, first⟩ := hasWon isWon
      refine ⟨token_quiet trivial inv executes, ⟨winner, ?_⟩, ?_⟩
      · rw [exec_calls executes not_false]
        exact first
      · rintro job rfl
        have wellFormed := inv.wellFormed.exec executes
        exact wellFormed.session (session_of_load executes)
    rintro (_ | job)
    · exact Triple.ret (won_stable.and (Contract.stable_const _))
        fun _ _ _ => trivial
    refine issue_recorded (fun _ => anything)
      (won_stable.and (Contract.stable_const _)) (fun _ _ _ => trivial)
      ?_ fun answered => ?_
    · rintro store winners answer answered after inv ⟨⟨winner, first⟩, keys⟩ -
        executes
      have sameId := keys job rfl
      refine
        ⟨inv.step executes (fun _ _ write => write.writes.elim) ?_, trivial⟩
      cases executes
      refine Or.inr ⟨_, rfl, rfl, ?_, ?_, ?_⟩
      · rw [sameId]
        exact winner
      · rw [sameId]
        exact first
      · exact limit
    · refine quiet_program ?_
      split
      · refine Program.All.bind (cas_all rfl trivial trivial)
          fun refused => ?_
        split
        · exact endSittingIfComplete_all (fun _ => Op.notifying.quiet) _
        · exact Program.All.pure _ _
      · exact Program.All.pure _ _
      · exact Program.All.bind (cas_all rfl trivial trivial)
          fun _ => Program.All.pure _ _

/-- A submit and a manual retry trigger in any state. -/
theorem trigger_unbounded
    {id : String} (unlimited : (requests tid).isLimited = false) :
    TokenTriple platform requests tid anything (triggerAgent platform id)
      (fun _ => anything) := by
  refine triggerAgent_triple.strengthen fun _ _ _ isLimited => ?_
  rw [unlimited] at isLimited
  cases isLimited

theorem reapOne_triple {now : Time} {id : String} :
    TokenTriple platform requests tid anything (reapOne platform now id)
      (fun _ => anything) := by
  unfold reapOne
  refine issue_recorded
    (fun found recorded => ∀ copy, found = some copy →
      recorded.1.session tid id = some copy) anything_stable
    (fun _ _ _ => trivial) ?_ ?_
  · rintro store winners answer found after inv - - executes
    refine ⟨token_quiet trivial inv executes, ?_⟩
    rintro copy rfl
    exact session_of_load executes
  have stable :
      ∀ found : Option Submission,
        (tokenContract platform requests).Stable tid fun recorded =>
          ∀ copy, found = some copy →
            recorded.1.session tid id = some copy := by
    rintro found before after other different - ⟨-, step⟩ copied copy same
    rw [step.moves.session different.symm]
    exact copied copy same
  rintro (_ | copy)
  · exact Triple.ret (stable none) fun _ _ _ => trivial
  dsimp only
  split
  · exact Triple.ret (stable (some copy)) fun _ _ _ => trivial
  split
  · next below =>
      exact triggerAgent_triple.strengthen
        fun _ _ copied _ => ⟨copy, copied copy rfl, below.1⟩
  · refine (quiet_program ?_).strengthen fun _ _ _ => trivial
    refine Program.All.bind (cas_all rfl trivial trivial) fun gaveUp => ?_
    split
    · exact endSittingIfComplete_all (fun _ => Op.notifying.quiet) _
    · exact Program.All.pure _ _

theorem reapEach_triple {now : Time} {ids : List String} :
    TokenTriple platform requests tid anything (reapEach platform now ids)
      (fun _ => anything) := by
  induction ids with
  | nil =>
      exact quiet_program (Program.All.pure _ _)
  | cons id rest inductionHypothesis =>
      exact Triple.bind reapOne_triple fun _ => inductionHypothesis

theorem retrySubmission_triple
    {id : String} (unlimited : (requests tid).isLimited = false) :
    TokenTriple platform requests tid anything (retrySubmission platform id)
      (fun _ => anything) := by
  unfold retrySubmission
  refine quiet_issue trivial fun found => ?_
  split
  case h_2 => exact quiet_program (Program.All.pure _ _)
  split
  · exact quiet_program (Program.All.pure _ _)
  split
  · exact quiet_program (Program.All.pure _ _)
  refine Triple.bind (quiet_program ?_) fun _ =>
    Triple.bind (trigger_unbounded unlimited)
      fun _ => quiet_program (Program.All.pure _ _)
  exact (reopenSitting_all _).mono fun _ => Op.reopening.quiet

theorem candidateSubmit_triple
    {request : CandidateSubmit}
    (unlimited : (requests tid).isLimited = false) :
    TokenTriple platform requests tid anything
      (candidateSubmit platform request) (fun _ => anything) := by
  unfold candidateSubmit
  split
  case h_2 => exact quiet_program (Program.All.pure _ _)
  split
  · exact quiet_program (Program.All.pure _ _)
  refine quiet_issue trivial fun submitted => ?_
  split
  · exact quiet_program (Program.All.pure _ _)
  refine Triple.bind (quiet_program ?_) fun started => ?_
  · exact (getOrStartAttempt_all _ _ _ _ _).mono fun _ => Op.starting.quiet
  split
  · exact quiet_program (Program.All.pure _ _)
  split
  · exact quiet_program (Program.All.pure _ _)
  refine quiet_issue trivial fun now => ?_
  refine quiet_issue rfl fun inserted => ?_
  split
  · exact quiet_program (Program.All.statement trivial
      fun _ => Program.All.pure _ _)
  refine quiet_issue trivial fun _ => ?_
  refine quiet_issue trivial fun _ => ?_
  exact Triple.bind (trigger_unbounded unlimited)
    fun _ => quiet_program (Program.All.pure _ _)

theorem createSubmission_triple
    {request : DirectSubmit}
    (unlimited : (requests tid).isLimited = false) :
    TokenTriple platform requests tid anything
      (createSubmission platform request) (fun _ => anything) := by
  unfold createSubmission
  split
  · exact quiet_program (Program.All.pure _ _)
  refine quiet_issue trivial fun now => ?_
  refine quiet_issue rfl fun inserted => ?_
  split
  · exact quiet_program (Program.All.statement trivial
      fun _ => Program.All.pure _ _)
  refine quiet_issue trivial fun _ => ?_
  exact quiet_issue trivial fun _ => trigger_unbounded unlimited

theorem token_request_triple :
    TokenTriple platform requests tid anything
      ((requests tid).program platform) (fun _ => anything) := by
  have returns :
      ∀ reply : Reply, TokenTriple platform requests tid anything
        (pure reply) (fun _ => anything) :=
    fun _ => quiet_program (Program.All.pure _ _)
  cases request : requests tid with
  | idle => exact returns _
  | candidateSubmit submit =>
      exact Triple.bind (candidateSubmit_triple (by rw [request]; rfl))
        fun _ => returns _
  | createSubmission submit =>
      exact Triple.bind (createSubmission_triple (by rw [request]; rfl))
        fun _ => returns _
  | retrySubmission id =>
      exact Triple.bind (retrySubmission_triple (by rw [request]; rfl))
        fun _ => returns _
  | reapTick =>
      exact Triple.bind
        (quiet_issue trivial fun _ => quiet_issue trivial
          fun _ => reapEach_triple)
        fun _ => returns _
  | assessmentsCallback payload =>
      exact Triple.bind
        (quiet_program ((assessmentsCallback_all _).mono
          fun _ => Op.recording.quiet))
        fun _ => returns _
  | erase scope email token =>
      exact Triple.bind
        (quiet_program ((eraseCandidate_all _ _ _).mono
          fun _ => Op.erasing.quiet))
        fun _ => returns _
  | consume org metric amount =>
      exact Triple.bind
        (quiet_program ((consume_all _ _ _).mono fun _ => Op.metering.quiet))
        fun _ => returns _
  | passTime elapsed =>
      exact quiet_issue trivial fun _ => returns _

end Triples

/-! ## Every run -/

theorem TokenInv.initial (clock : Time) :
    TokenInv platform requests (Store.initial clock) (fun _ _ => none) where
  wellFormed := .initial clock
  writes := Staged.empty
  bound := nofun
  caller := nofun
  distinct := List.nodup_nil
  limited := nofun

/-- How many calls the agent has been sent for a submission. -/
def Store.callCount (store : Store) (id : String) : Nat :=
  (store.calls.filter fun call => call.submissionId == id).length

/-- One call for each attempt, and every attempt counted: there are no more
calls than attempts. -/
theorem TokenInv.callCount_le
    {winners : Winners} {store : Store}
    (inv : TokenInv platform requests store winners)
    {id : String} {row : Submission}
    (found : store.submissions.row id = some row) :
    store.callCount id ≤ row.attempts := by
  have numbers :
      ((store.calls.filter fun call => call.submissionId == id).map
        TriggerCall.attempt).Nodup := by
    refine (List.nodup_map_iff_inj_on ?_).mpr ?_
    · exact (List.Nodup.of_map _ inv.distinct).filter _
    · intro first firstMember second secondMember same
      rw [List.mem_filter, beq_iff_eq] at firstMember secondMember
      refine List.inj_on_of_nodup_map inv.distinct firstMember.1
        secondMember.1 ?_
      rw [firstMember.2, secondMember.2, same]
  have counted :
      (store.calls.filter fun call => call.submissionId == id).map
          TriggerCall.attempt ⊆ List.range' 1 row.attempts := by
    intro attempt member
    obtain ⟨call, callMember, rfl⟩ := List.mem_map.mp member
    rw [List.mem_filter, beq_iff_eq] at callMember
    obtain ⟨callMember, rfl⟩ := callMember
    obtain ⟨positive, current, foundCurrent, atMost⟩ :=
      inv.bound (inv.caller call callMember)
    rw [found] at foundCurrent
    cases foundCurrent
    rw [List.mem_range'_1]
    omega
  simpa [Store.callCount] using (List.subperm_of_subset numbers counted).length_le

/-- What one step may do to `attempts`: nothing, or it is the commit of a claim
that its thread won and raises it by one, past the limit only for a submit or a
manual retry. -/
def AttemptsKept
    (platform : Platform) (request : Request) (tid : Nat)
    (before after : Store) : Prop :=
  ∀ id row later, before.submissions.row id = some row →
    after.submissions.row id = some later →
      later.attempts = row.attempts ∨
        later.attempts = row.attempts + 1 ∧
          before.submissions.staged id = some (tid, later) ∧
          (∃ now, later =
            (claimChange id (row.attempts + 1)).apply now row) ∧
          (request.isLimited → later.attempts ≤ platform.maxTriggerAttempts)

theorem TokenInv.attemptsKept
    {winners : Winners}
    (inv : TokenInv platform requests before winners)
    (moves : Store.Moves tid before after) :
    AttemptsKept platform (requests tid) tid before after := by
  intro id row later found foundLater
  rcases inv.writes.change moves.submissions id with
    same | ⟨value, staged, committed, write⟩
  · rw [same, found] at foundLater
    cases foundLater
    exact Or.inl rfl
  · rw [committed] at foundLater
    cases foundLater
    rcases write.kept found with kept | ⟨now, claim⟩
    · exact Or.inl kept
    · have raised : later.attempts = row.attempts + 1 := by
        rw [claim]
        rfl
      refine Or.inr ⟨raised, staged, ⟨now, claim⟩, fun isLimited => ?_⟩
      exact write.limited found isLimited (by omega)

/-- In every run: the agent is called at most once for each attempt of a
submission and never more often than `attempts` says, a call by anyone but a
submit or a manual retry stays within the limit, and a step changes `attempts`
only as the commit of a trigger claim, by one. -/
theorem attempts_count_triggers
    {clock : Time} {config : Config Nat Op Resp Reply Store}
    (reached :
      (serving platform requests).Reaches System.anyRun
        ((serving platform requests).start (.initial clock)) config) :
    (config.store.calls.map
        fun call => (call.submissionId, call.attempt)).Nodup ∧
      (∀ id row, config.store.submissions.row id = some row →
        config.store.callCount id ≤ row.attempts) ∧
      (∀ call ∈ config.store.calls, (requests call.caller).isLimited →
        call.attempt ≤ platform.maxTriggerAttempts) ∧
      ∀ tid after,
        (serving platform requests).Step System.anyRun tid config after →
          AttemptsKept platform (requests tid) tid config.store
            after.store := by
  have holdsStart :
      (tokenContract platform requests).Holds
        ((serving platform requests).withHistory recordWinners)
        (System.ignoringHistory System.anyRun) (fun _ _ => anything)
        (((serving platform requests).withHistory recordWinners).start
          (.initial clock, fun _ _ => none)) :=
    Contract.holds_start (.initial clock) (fun _ => trivial)
      fun _ => token_request_triple
  obtain ⟨winners, recorded⟩ :=
    System.Reaches.withHistory recordWinners reached fun _ _ => none
  have holds := holdsStart.reaches recorded
  refine ⟨holds.1.distinct, fun id row => holds.1.callCount_le,
    holds.1.limited, fun tid after step => ?_⟩
  obtain ⟨later, recordedStep⟩ :=
    System.Step.withHistory recordWinners step winners
  obtain ⟨⟨-, seen⟩, -⟩ := holds.step recordedStep
  exact holds.1.attemptsKept seen.moves

/-! ## Concrete runs -/

/-- A candidate's submit and the reaper. -/
def reapedSubmit : Nat → Request
  | 0 => Sample.candidate
  | 1 => .passTime (1000 * 1000000)
  | 2 => .reapTick
  | _ => .idle

/-- With a limit of one, the reaper spends it between the commit of the
submission and its refresh, and the submit then claims a second attempt. -/
theorem reapedSubmit_reaches :
    ∃ config,
      (serving (Sample.platform 1) reapedSubmit).Reaches System.anyRun
        ((serving (Sample.platform 1) reapedSubmit).start (.initial 0))
        config ∧
      ∃ row, config.store.submissions.row "s" = some row ∧
        row.attempts = 2 := by
  have ran :
      ((serving (Sample.platform 1) reapedSubmit).runSchedule
        (fun _ _ _ => true)
        ((serving (Sample.platform 1) reapedSubmit).start (.initial 0))
        (Sample.steps 0 17 ++ Sample.steps 1 1 ++ Sample.steps 2 12 ++
          Sample.steps 0 4)).any
        fun config => Sample.attemptsAre config.store 2 := by
    decide +kernel
  obtain ⟨config, reached, seen⟩ :=
    System.exists_of_runSchedule (fun _ _ _ _ => trivial) ran
  simp only [Sample.attemptsAre, beq_iff_eq, Option.map_eq_some_iff] at seen
  exact ⟨config, reached, seen⟩

theorem attempts_exceeded_without_retry :
    ∃ config,
      (serving (Sample.platform 1) reapedSubmit).Reaches System.anyRun
        ((serving (Sample.platform 1) reapedSubmit).start (.initial 0))
        config ∧
      (∀ tid id, reapedSubmit tid ≠ .retrySubmission id) ∧
      ∃ row, config.store.submissions.row "s" = some row ∧
        (Sample.platform 1).maxTriggerAttempts < row.attempts := by
  obtain ⟨config, reached, row, found, attempts⟩ := reapedSubmit_reaches
  refine ⟨config, reached, ?_, row, found, ?_⟩
  · rintro (_ | _ | _ | _) id <;> nofun
  · rw [attempts]
    decide

theorem attempts_count_triggers_reaped :
    ∃ config : Config Nat Op Resp Reply Store,
      (∃ row, config.store.submissions.row "s" = some row ∧
        row.attempts = 2 ∧ config.store.callCount "s" ≤ row.attempts) ∧
      ∀ call ∈ config.store.calls, (reapedSubmit call.caller).isLimited →
        call.attempt ≤ 1 := by
  obtain ⟨config, reached, row, found, attempts⟩ := reapedSubmit_reaches
  obtain ⟨-, counted, limited, -⟩ := attempts_count_triggers reached
  exact ⟨config, ⟨row, found, attempts, counted "s" row found⟩, limited⟩

end AssessmentPlatform
