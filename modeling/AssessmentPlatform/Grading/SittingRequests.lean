import AssessmentPlatform.Grading.SittingPrograms

/-!
# What submissions and callbacks do for a sitting

A submission is inserted open, with its attempt; a callback that lands a grade
owes the completion step until it has claimed.  Together with the other
programs this is one triple for every request that erases nothing.
-/

namespace AssessmentPlatform

open Interleaving RowTable

variable {platform : Platform} {requests : Nat → Request} {tid : Nat}
variable {answer : AgentAnswer} {op : Op} {before after store : Store}
variable {resp : Resp op} {sitting : Sitting} {strict : Prop}
variable {log : SittingLog} {id : String}

/-! ## Submissions -/

/-- There is an attempt of the address on the invite. -/
def Attending
    (inviteId : Nat) (email : String) (recorded : Store × SittingLog) :
    Prop :=
  recorded.1.Attended inviteId email

theorem lasting_attending {inviteId : Nat} {email : String} :
    Lasting platform requests (Attending inviteId email) :=
  fun _ _ _ rows moves attended => attended.moves rows moves

/-- The thread has staged an attempt, or the name on one. -/
def rosterPhase : Phase where
  stamps := fun _ row value =>
    ∀ current, row = some current →
      value.resultsNotifiedAt = current.resultsNotifiedAt

theorem rosterPhase_stable :
    (sittingContract platform requests sitting strict).Stable tid
      (AtPhase tid rosterPhase) :=
  atPhase_stable ⟨stable_false, stable_false, claiming_false⟩

/-- The thread has inserted a submission. -/
def insertPhase : Phase where
  stages := fun _ row _ => row = none

theorem insertPhase_stable :
    (sittingContract platform requests sitting strict).Stable tid
      (AtPhase tid insertPhase) :=
  atPhase_stable ⟨stable_false, stable_false, claiming_false⟩

/-- The thread has staged the row of an attempt. -/
def AttemptStaged
    (tid : Nat) (attempt : CandidateAttempt)
    (recorded : Store × SittingLog) : Prop :=
  recorded.1.attempts.staged attempt.id = some (tid, attempt)

theorem attemptStaged_stable {attempt : CandidateAttempt} :
    (sittingContract platform requests sitting strict).Stable tid
      (AttemptStaged tid attempt) :=
  fun _ _ _ different _ guaranteed staged =>
    (guaranteed.moves.attempts.others (Ne.symm different)).mpr staged

/-- After the attempt has been inserted. -/
def AfterInsertAttempt
    (tid : Nat) (attempt : CandidateAttempt) :
    Bool → Store × SittingLog → Prop
  | true, recorded =>
      AtPhase tid rosterPhase recorded ∧ AttemptStaged tid attempt recorded
  | false, recorded => Settled tid recorded

namespace Sitting

variable (known : platform.invite sitting.invite.id = some sitting.invite)

include known

/-- The attempt that is found attends. -/
theorem selectAttempt_attending_establishes
    {inviteId : Nat} {email : String} :
    SittingEstablishes platform requests sitting strict tid (Settled tid)
      (.selectAttempt inviteId email)
      (fun found recorded =>
        Settled tid recorded ∧
          (found.isSome → Attending inviteId email recorded)) := by
  intro before log answer found after inv settled allowed executes
  have quiet : (Op.selectAttempt inviteId email).keepsRows := trivial
  obtain ⟨guaranteed, settledAfter⟩ :=
    settled.quiet known quiet (lasting_const False) inv allowed executes
  refine ⟨guaranteed, settledAfter, ?_⟩
  intro isSome
  cases executes
  obtain ⟨attempt, isFound⟩ := Option.isSome_iff_exists.mp isSome
  obtain ⟨id, isFirst, found⟩ := Option.bind_eq_some_iff.mp isFound
  obtain ⟨-, row, foundRow, isMatch⟩ :=
    mem_select_iff.mp (List.mem_of_head? isFirst)
  simp only [Bool.and_eq_true, beq_iff_eq] at isMatch
  exact ⟨id, row, foundRow, isMatch⟩

/-- A statement that stages an attempt or the name on one. -/
theorem stage_roster
    (settled : Settled tid (before, log))
    (inv : SittingInv platform requests sitting strict before log)
    (allowed : admits sitting strict tid op (before, log))
    (executes : exec platform op tid answer before = some (resp, after))
    (keeps : op.keepsSittings platform (requests tid))
    (notSubmission : ¬op.writesSubmission) (notCommit : op ≠ .commit)
    (unstamped :
      ∀ id value, AttemptWrite platform before op id value →
        ∀ current, before.attempts.row id = some current →
          value.resultsNotifiedAt = current.resultsNotifiedAt) :
    SittingGuar platform requests sitting strict tid (before, log)
        (after,
          recordSitting platform sitting op tid resp before after log) ∧
      AtPhase tid rosterPhase
        (after,
          recordSitting platform sitting op tid resp before after log) := by
  have proceeds :
      Proceeds platform requests sitting strict tid op before log := by
    refine settled.proceeds inv.rows keeps ?_ ?_ ?_
    · intro row _ _ isInsert
      subst isInsert
      exact absurd trivial notSubmission
    · exact fun isCommit => absurd isCommit notCommit
    · intro _ _ _ _ isCas
      subst isCas
      exact absurd trivial notSubmission
  have issued := settled.issued sitting inv.rows executes notCommit
  refine ⟨inv.guar proceeds known allowed executes, ?_⟩
  refine issued.mono ?_ ?_ ?_ ?_ ?_
  · exact fun _ _ _ write => notSubmission write.1.writes
  · intro id row value write current isCurrent
    obtain ⟨write, rfl⟩ := write
    exact unstamped id value write current isCurrent
  · exact fun impossible => impossible
  · exact fun impossible => impossible
  · exact fun _ impossible => impossible

theorem saveAttemptName_establishes
    {inviteId attemptId : Nat} {email name : String} :
    SittingEstablishes platform requests sitting strict tid
      (fun recorded =>
        Settled tid recorded ∧ Attending inviteId email recorded)
      (.saveAttemptName attemptId name)
      (fun _ recorded =>
        AtPhase tid rosterPhase recorded ∧
          Attending inviteId email recorded) := by
  intro before log answer resp after inv holds allowed executes
  obtain ⟨settled, attending⟩ := holds
  have unstamped :
      ∀ id value,
        AttemptWrite platform before (.saveAttemptName attemptId name) id
            value →
          ∀ current, before.attempts.row id = some current →
            value.resultsNotifiedAt = current.resultsNotifiedAt := by
    intro id value write current isCurrent
    cases write with
    | name found =>
        rw [found] at isCurrent
        cases isCurrent
        rfl
  obtain ⟨guaranteed, atPhase⟩ :=
    stage_roster known settled inv allowed executes trivial not_false nofun
      unstamped
  exact
    ⟨guaranteed, atPhase,
      lasting_attending _ _ tid inv.rows guaranteed.moves attending⟩

theorem insertAttempt_establishes
    {attempt : CandidateAttempt}
    (unstamped : attempt.resultsNotifiedAt = none) :
    SittingEstablishes platform requests sitting strict tid (Settled tid)
      (.insertAttempt attempt) (AfterInsertAttempt tid attempt) := by
  intro before log answer inserted after inv settled allowed executes
  have fresh :
      ∀ id value,
        AttemptWrite platform before (.insertAttempt attempt) id value →
          ∀ current, before.attempts.row id = some current →
            value.resultsNotifiedAt = current.resultsNotifiedAt := by
    intro id value write current isCurrent
    cases write with
    | insert absent =>
        rw [absent] at isCurrent
        cases isCurrent
  obtain ⟨guaranteed, atPhase⟩ :=
    stage_roster known settled inv allowed executes unstamped not_false nofun
      fresh
  refine ⟨guaranteed, ?_⟩
  simp only [exec, Option.map_eq_some_iff] at executes
  obtain ⟨⟨isInserted, table⟩, tried, equal⟩ := executes
  cases equal
  rcases tryInsert_cases tried with ⟨rfl, rfl, -⟩ | ⟨rfl, rfl⟩
  · exact ⟨atPhase, Function.update_self _ _ _⟩
  · exact
      ⟨atPhase.stages, settled.stamps, atPhase.owes, atPhase.reopens,
        atPhase.claiming⟩

/-- COMMIT of an attempt or of the name on one. -/
theorem commit_roster
    (atPhase : AtPhase tid rosterPhase (before, log))
    (inv : SittingInv platform requests sitting strict before log)
    (allowed : admits sitting strict tid .commit (before, log)) :
    SittingGuar platform requests sitting strict tid (before, log)
        (before.commit tid,
          recordSitting platform sitting .commit tid () before
            (before.commit tid) log) ∧
      Settled tid
        (before.commit tid,
          recordSitting platform sitting .commit tid () before
            (before.commit tid) log) := by
  have listed := inv.rows.wellFormed.attempts
  have stampsNone : before.attempts.commits tid sitting.stamps = false := by
    refine commits_of_unstamping atPhase listed _ ?_
    intro id row value same
    have isSame : value.resultsNotifiedAt = row.resultsNotifiedAt :=
      same row rfl
    cases stamped : row.resultsNotifiedAt <;>
      simp [Sitting.stamps, isSame, stamped]
  have clearsNone : before.attempts.commits tid sitting.clears = false := by
    refine commits_of_unstamping atPhase listed _ ?_
    intro id row value same
    have isSame : value.resultsNotifiedAt = row.resultsNotifiedAt :=
      same row rfl
    cases stamped : row.resultsNotifiedAt <;>
      simp [Sitting.clears, isSame, stamped]
  have proceeds :
      Proceeds platform requests sitting strict tid .commit before log := by
    refine .commit ?_ ?_ ?_
    · exact fun stamps => absurd stamps (by simp [stampsNone])
    · exact fun clears => absurd clears (by simp [clearsNone])
    · exact fun reopened => (atPhase.reopens reopened).elim
  have executes :
      exec platform .commit tid .failed before =
        some ((), before.commit tid) := rfl
  have closesNone : before.submissions.commits tid sitting.closes = false :=
    commits_of_clean atPhase (fun _ _ _ impossible => impossible)
      inv.rows.wellFormed.submissions _
  refine ⟨inv.guar proceeds known allowed executes, ?_⟩
  refine atPhase.committed.mono (fun _ _ _ impossible => impossible)
    (fun _ _ _ impossible => impossible) ?_ ?_ ?_
  · intro owed
    rcases owed with closes | ⟨isOwed, -⟩
    · exact absurd closes (by simp [closesNone])
    · exact atPhase.owes isOwed
  · exact fun clears => absurd clears (by simp [clearsNone])
  · intro claim claiming
    rcases claiming with ⟨stamps, -⟩ | ⟨-, impossible⟩
    · exact absurd stamps (by simp [stampsNone])
    · exact impossible

/-- COMMIT of an inserted attempt: its candidate attends. -/
theorem commit_attempt_establishes {attempt : CandidateAttempt} :
    SittingEstablishes platform requests sitting strict tid
      (fun recorded =>
        AtPhase tid rosterPhase recorded ∧
          AttemptStaged tid attempt recorded)
      .commit
      (fun _ recorded =>
        Settled tid recorded ∧
          Attending attempt.inviteId attempt.candidateEmail recorded) := by
  intro before log answer resp after inv holds allowed executes
  cases executes
  obtain ⟨guaranteed, settled⟩ := commit_roster known holds.1 inv allowed
  have committed :
      (before.commit tid).attempts.row attempt.id = some attempt :=
    row_commit_of_staged holds.2
  exact ⟨guaranteed, settled, attempt.id, attempt, committed, rfl, rfl⟩

omit known in
theorem claimAllowance_quiet (orgId : Nat) :
    (claimAllowance platform orgId).All Op.keepsRows := by
  unfold claimAllowance
  split
  · refine Program.All.bind
      ((consume_all _ _ _).mono fun _ => Op.metering.keepsRows)
      fun reply => ?_
    cases reply <;> exact Program.All.pure _ _
  · exact Program.All.pure _ _

/-- `_get_or_start_attempt`: who is let in attends. -/
theorem getOrStartAttempt_triple
    {invite : Invite} {email candidateName : String} {consent : Bool}
    {attemptId : Nat} :
    SittingTriple platform requests sitting strict tid (Settled tid)
      (getOrStartAttempt platform invite email candidateName consent
        attemptId)
      (fun reply recorded =>
        Settled tid recorded ∧
          (reply.isOk → Attending invite.id email recorded)) := by
  have refused :
      ∀ refusal, SittingTriple platform requests sitting strict tid
        (Settled tid)
        (pure (.error refusal) : Prog (Except Refusal CandidateAttempt))
        (fun reply recorded =>
          Settled tid recorded ∧
            (reply.isOk → Attending invite.id email recorded)) :=
    fun refusal =>
      Triple.ret settled_stable fun _ _ settled =>
        ⟨settled, fun isOk => nomatch isOk⟩
  have attends :
      ∀ attempt, SittingTriple platform requests sitting strict tid
        (fun recorded =>
          Settled tid recorded ∧ Attending invite.id email recorded)
        (pure (.ok attempt) : Prog (Except Refusal CandidateAttempt))
        (fun reply recorded =>
          Settled tid recorded ∧
            (reply.isOk → Attending invite.id email recorded)) :=
    fun attempt =>
      Triple.ret (settled_stable.and lasting_attending.stable)
        fun _ _ holds => ⟨holds.1, fun _ => holds.2⟩
  unfold getOrStartAttempt
  refine issue_recorded _ settled_stable
    (fun _ _ _ => trivial)
    (selectAttempt_attending_establishes known) fun found => ?_
  cases found with
  | some existing =>
      have attending :
          ∀ recorded : Store × SittingLog,
            (Settled tid recorded ∧
              ((some existing).isSome → Attending invite.id email recorded)) →
              Settled tid recorded ∧ Attending invite.id email recorded :=
        fun _ holds => ⟨holds.1, holds.2 rfl⟩
      refine Triple.strengthen ?_ fun recorded _ holds =>
        attending recorded holds
      dsimp only
      split
      · refine issue_recorded _
          (settled_stable.and lasting_attending.stable)
          (fun _ _ _ => trivial)
          (saveAttemptName_establishes known) fun _ => ?_
        refine issue_recorded
          (fun _ recorded =>
            Settled tid recorded ∧ Attending invite.id email recorded)
          (rosterPhase_stable.and lasting_attending.stable)
          (fun _ _ _ => trivial) ?_
          fun _ => attends _
        intro before log answer resp after inv holds allowed executes
        cases executes
        obtain ⟨guaranteed, settled⟩ :=
          commit_roster known holds.1 inv allowed
        exact
          ⟨guaranteed, settled,
            lasting_attending _ _ tid inv.rows guaranteed.moves holds.2⟩
      · exact attends existing
  | none =>
      refine Triple.strengthen ?_ fun _ _ holds => holds.1
      dsimp only
      split
      · exact refused _
      · split
        case h_2 => exact refused _
        · next orgId _ =>
            refine Triple.bind
              (settled_of_quiet known (claimAllowance_quiet orgId))
              fun allowance => ?_
            cases allowance with
            | error refusal => exact refused refusal
            | ok _ =>
                refine settled_issue known trivial fun now => ?_
                refine issue_recorded _ settled_stable
                  (fun _ _ _ => trivial)
                  (insertAttempt_establishes known rfl) fun inserted => ?_
                cases inserted with
                | true =>
                    refine issue_recorded _
                      (rosterPhase_stable.and attemptStaged_stable)
                      (fun _ _ _ => trivial)
                      (commit_attempt_establishes known) fun _ => ?_
                    exact attends _
                | false =>
                    refine settled_issue known trivial fun _ => ?_
                    refine issue_recorded _ settled_stable
                      (fun _ _ _ => trivial)
                      (selectAttempt_attending_establishes known)
                      fun raced => ?_
                    cases raced with
                    | none =>
                        exact (refused _).strengthen fun _ _ holds => holds.1
                    | some raced =>
                        have quiet :
                            (release platform orgId .sittings 1).All
                              Op.keepsRows :=
                          (release_all _ _ _).mono
                            fun _ => Op.metering.keepsRows
                        refine Triple.bind
                          ((lasting_of_quiet known quiet
                            lasting_attending).strengthen
                              fun _ _ holds => ⟨holds.1, holds.2 rfl⟩)
                          fun _ => ?_
                        exact attends raced

/-! ## Inserting a submission -/

theorem insertSubmission_establishes
    {row : Submission} (pending : row.status = .pending)
    (admitted : platform.Admitted row) :
    SittingEstablishes platform requests sitting strict tid
      (fun recorded =>
        Settled tid recorded ∧
          ∀ inviteId email, row.inviteId = some inviteId →
            row.candidateEmail = some email →
              Attending inviteId email recorded)
      (.insertSubmission row)
      (fun inserted =>
        if inserted then AtPhase tid insertPhase else Settled tid) := by
  intro before log answer inserted after inv holds allowed executes
  obtain ⟨settled, attending⟩ := holds
  have proceeds :
      Proceeds platform requests sitting strict tid (.insertSubmission row)
        before log := by
    refine settled.proceeds inv.rows ⟨pending, admitted⟩ ?_ ?_ ?_
    · intro new inviteId email isInsert isInvite isEmail
      cases isInsert
      exact attending inviteId email isInvite isEmail
    · exact fun isCommit => nomatch isCommit
    · exact fun _ _ _ _ isCas => nomatch isCas
  have issued := settled.issued sitting inv.rows executes nofun
  refine ⟨inv.guar proceeds known allowed executes, ?_⟩
  simp only [exec, Option.map_eq_some_iff] at executes
  obtain ⟨⟨isInserted, table⟩, tried, equal⟩ := executes
  cases equal
  rcases tryInsert_cases tried with ⟨rfl, rfl, -⟩ | ⟨rfl, rfl⟩
  · refine issued.mono ?_ ?_ ?_ ?_ ?_
    · intro inserted current value write
      obtain ⟨write, rfl⟩ := write
      cases write with
      | insert fresh => exact fresh
    · exact fun _ _ _ write => write.1.writes
    · exact fun impossible => impossible
    · exact fun impossible => impossible
    · exact fun _ impossible => impossible
  · have same :
        ∀ recorded, AtPhase tid {} recorded → Settled tid recorded :=
      fun _ atPhase => atPhase
    exact
      same _
        ⟨settled.stages, settled.stamps, issued.owes, issued.reopens,
          issued.claiming⟩

/-- COMMIT of an inserted submission closes nothing. -/
theorem commit_insert_establishes :
    SittingEstablishes platform requests sitting strict tid
      (AtPhase tid insertPhase) .commit (fun _ => Settled tid) := by
  intro before log answer resp after inv atPhase allowed executes
  have unstamping :
      ∀ event, before.attempts.commits tid event = false := fun event =>
    commits_of_unstamping atPhase inv.rows.wellFormed.attempts event
      fun _ _ _ impossible => impossible.elim
  have closesNone : before.submissions.commits tid sitting.closes = false := by
    rw [Bool.eq_false_iff]
    intro closes
    obtain ⟨inserted, row, value, found, staged, -⟩ :=
      (commits_iff inv.rows.wellFormed.submissions).mp closes
    have absent : before.submissions.row inserted = none :=
      atPhase.stages inserted value staged
    rw [absent] at found
    cases found
  have proceeds :
      Proceeds platform requests sitting strict tid .commit before log := by
    refine .commit ?_ ?_ ?_
    · exact fun stamps => absurd stamps (by simp [unstamping])
    · exact fun clears => absurd clears (by simp [unstamping])
    · exact fun reopened => (atPhase.reopens reopened).elim
  refine ⟨inv.guar proceeds known allowed executes, ?_⟩
  cases executes
  refine atPhase.committed.mono (fun _ _ _ impossible => impossible)
    (fun _ _ _ impossible => impossible) ?_ ?_ ?_
  · intro owed
    rcases owed with closes | ⟨isOwed, -⟩
    · exact absurd closes (by simp [closesNone])
    · exact atPhase.owes isOwed
  · exact fun clears => absurd clears (by simp [unstamping])
  · intro claim claiming
    rcases claiming with ⟨stamps, -⟩ | ⟨-, impossible⟩
    · exact absurd stamps (by simp [unstamping])
    · exact impossible

/-- Insert a submission and commit it, and go on where it was inserted. -/
theorem insert_triple
    {α : Type} {row : Submission} {clash : α} {next : Prog α}
    (pending : row.status = .pending) (admitted : platform.Admitted row)
    (rest :
      SittingTriple platform requests sitting strict tid (Settled tid) next
        (fun _ => Settled tid)) :
    SittingTriple platform requests sitting strict tid
      (fun recorded =>
        Settled tid recorded ∧
          ∀ inviteId email, row.inviteId = some inviteId →
            row.candidateEmail = some email →
              Attending inviteId email recorded)
      (do
        let inserted ← issue (.insertSubmission row)
        if !inserted then
          issue .rollback
          return clash
        issue .commit
        let _ ← issue (.refresh row.id)
        next)
      (fun _ => Settled tid) := by
  have stable :
      (sittingContract platform requests sitting strict).Stable tid
        (fun recorded =>
          Settled tid recorded ∧
            ∀ inviteId email, row.inviteId = some inviteId →
              row.candidateEmail = some email →
                Attending inviteId email recorded) := by
    refine settled_stable.and ?_
    refine Contract.Stable.forall fun inviteId => ?_
    refine Contract.Stable.forall fun email => ?_
    exact Contract.Stable.imp (Contract.Stable.imp lasting_attending.stable)
  refine issue_recorded _ stable
    (fun _ _ _ => trivial)
    (insertSubmission_establishes known pending admitted) fun inserted => ?_
  cases inserted with
  | false =>
      refine settled_issue known trivial fun _ => ?_
      exact Triple.ret settled_stable fun _ _ settled => settled
  | true =>
      refine issue_recorded _ insertPhase_stable
        (fun _ _ _ => trivial)
        (commit_insert_establishes known) fun _ => ?_
      exact settled_issue known trivial fun _ => rest

/-- The first trigger of a submission. -/
theorem firstTrigger_triple :
    SittingTriple platform requests sitting strict tid (Settled tid)
      (triggerAgent platform id) (fun _ => Settled tid) :=
  (triggerAgent_triple known).strengthen fun _ _ settled => settled.reopen

/-- `candidate_submit` -/
theorem candidateSubmit_triple {request : CandidateSubmit} :
    SittingTriple platform requests sitting strict tid (Settled tid)
      (candidateSubmit platform request) (fun _ => Settled tid) := by
  have refused :
      ∀ refusal, SittingTriple platform requests sitting strict tid
        (Settled tid) (pure (.error refusal) : Prog (Except Refusal String))
        (fun _ => Settled tid) :=
    fun refusal => Triple.ret settled_stable fun _ _ settled => settled
  unfold candidateSubmit
  split
  case h_2 => exact refused _
  · next invite isInvite =>
      have isId := platform.invite_id isInvite
      split
      · exact refused _
      · next isPart =>
          refine settled_issue known trivial fun submitted => ?_
          split
          · exact refused _
          refine Triple.bind (getOrStartAttempt_triple known) fun reply => ?_
          cases reply with
          | error refusal =>
              exact (refused refusal).strengthen fun _ _ holds => holds.1
          | ok attempt =>
              have attending :
                  ∀ recorded : Store × SittingLog,
                    (Settled tid recorded ∧
                      ((Except.ok attempt :
                          Except Refusal CandidateAttempt).isOk →
                        Attending invite.id request.email recorded)) →
                      Settled tid recorded ∧
                        Attending invite.id request.email recorded :=
                fun _ holds => ⟨holds.1, holds.2 rfl⟩
              refine Triple.strengthen ?_ fun recorded _ holds =>
                attending recorded holds
              dsimp only
              split
              · exact (refused _).strengthen fun _ _ holds => holds.1
              refine Triple.bind
                (lasting_of_quiet known
                  ((Program.all_statement _ Op.now).mpr trivial)
                  lasting_attending) fun now => ?_
              have triggered :
                  SittingTriple platform requests sitting strict tid
                    (Settled tid)
                    (do
                      triggerAgent platform request.submissionId
                      return .ok request.submissionId :
                      Prog (Except Refusal String))
                    (fun _ => Settled tid) :=
                Triple.bind (firstTrigger_triple known) fun _ =>
                  Triple.ret settled_stable fun _ _ settled => settled
              refine (insert_triple known rfl ?_ triggered).strengthen ?_
              · intro inviteId isInviteId
                cases isInviteId
                refine ⟨invite, request.email, ?_, rfl,
                  request.email_nonempty, not_not.mp isPart⟩
                rw [isId]
                exact isInvite
              · intro recorded _ holds
                refine ⟨holds.1, ?_⟩
                intro inviteId email isInviteId isEmail
                cases isInviteId
                cases isEmail
                exact holds.2

/-- `create_submission` -/
theorem createSubmission_triple {request : DirectSubmit} :
    SittingTriple platform requests sitting strict tid (Settled tid)
      (createSubmission platform request) (fun _ => Settled tid) := by
  unfold createSubmission
  split
  · exact Triple.ret settled_stable fun _ _ settled => settled
  · refine settled_issue known trivial fun now => ?_
    refine
      (insert_triple known rfl ?_ (firstTrigger_triple known)).strengthen ?_
    · exact fun _ isInvite => nomatch isInvite
    · exact fun _ _ settled =>
        ⟨settled, fun _ _ isInvite => nomatch isInvite⟩

end Sitting

/-! ## Callbacks -/

/-- The thread has staged its copy of a submission: a status other than the
row's is the given one. -/
def savePhase (id : String) (status : Status) : Phase where
  stages := fun saved row value =>
    saved = id ∧ ∀ current, row = some current →
      value.status ≠ current.status → value.status = status

theorem savePhase_stable {status : Status} :
    (sittingContract platform requests sitting strict).Stable tid
      (AtPhase tid (savePhase id status)) :=
  atPhase_stable ⟨stable_false, stable_false, claiming_false⟩

namespace Sitting

variable (known : platform.invite sitting.invite.id = some sitting.invite)

include known

theorem saveSubmission_establishes {loaded new : Submission} :
    SittingEstablishes platform requests sitting strict tid (Settled tid)
      (.saveSubmission loaded new)
      (fun _ => AtPhase tid (savePhase loaded.id new.status)) := by
  intro before log answer resp after inv settled allowed executes
  have proceeds :
      Proceeds platform requests sitting strict tid
        (.saveSubmission loaded new) before log := by
    refine settled.proceeds inv.rows trivial ?_ ?_ ?_
    · exact fun _ _ _ isInsert => nomatch isInsert
    · exact fun isCommit => nomatch isCommit
    · exact fun _ _ _ _ isCas => nomatch isCas
  have issued := settled.issued sitting inv.rows executes nofun
  refine ⟨inv.guar proceeds known allowed executes, ?_⟩
  refine issued.mono ?_ ?_ ?_ ?_ ?_
  · intro saved current value write
    obtain ⟨write, rfl⟩ := write
    cases write with
    | @save _ _ row found =>
        refine ⟨rfl, fun current isCurrent different => ?_⟩
        rw [found] at isCurrent
        cases isCurrent
        by_cases same : new.status = loaded.status
        · simp [Submission.flush, changed, same] at different
        · simp [Submission.flush, changed, same]
  · exact fun _ _ _ write => write.1.writes
  · exact fun impossible => impossible
  · exact fun impossible => impossible
  · exact fun _ impossible => impossible

/-- COMMIT of a saved submission. -/
theorem commit_save_establishes {status : Status} :
    SittingEstablishes platform requests sitting strict tid
      (AtPhase tid (savePhase id status)) .commit
      (fun _ => AtPhase tid (closePhase sitting id status.terminal)) := by
  intro before log answer resp after inv atPhase allowed executes
  have unstamping :
      ∀ event, before.attempts.commits tid event = false := fun event =>
    commits_of_unstamping atPhase inv.rows.wellFormed.attempts event
      fun _ _ _ impossible => impossible.elim
  have proceeds :
      Proceeds platform requests sitting strict tid .commit before log := by
    refine .commit ?_ ?_ ?_
    · exact fun stamps => absurd stamps (by simp [unstamping])
    · exact fun clears => absurd clears (by simp [unstamping])
    · exact fun reopened => (atPhase.reopens reopened).elim
  have guaranteed := inv.guar proceeds known allowed executes
  refine ⟨guaranteed, ?_⟩
  cases executes
  refine atPhase.committed.mono (fun _ _ _ impossible => impossible)
    (fun _ _ _ impossible => impossible) ?_ ?_ ?_
  · intro owed
    rcases owed with closes | ⟨isOwed, -⟩
    · obtain ⟨saved, row, value, found, staged, isClose⟩ :=
        (commits_iff inv.rows.wellFormed.submissions).mp closes
      obtain ⟨isId, isStatus⟩ := atPhase.stages saved value staged
      simp only [Sitting.closes, Bool.and_eq_true, bne_iff_ne] at isClose
      obtain ⟨⟨submitted, terminal⟩, different⟩ := isClose
      have earlier : before.Submitted sitting id :=
        ⟨row, isId ▸ found, submitted⟩
      have isTerminal : status.terminal := by
        rw [← isStatus row found different]
        exact terminal
      exact ⟨isTerminal, earlier.moves inv.rows guaranteed.moves⟩
    · exact (atPhase.owes isOwed).elim
  · exact fun clears => absurd clears (by simp [unstamping])
  · intro claim claiming
    rcases claiming with ⟨stamps, -⟩ | ⟨-, impossible⟩
    · exact absurd stamps (by simp [unstamping])
    · exact impossible

omit known in
theorem upsertResult_quiet (graded : AssessmentResult) :
    (upsertResult graded).All Op.keepsRows := by
  unfold upsertResult
  refine Program.All.statement trivial fun existing => ?_
  cases existing with
  | some existing =>
      exact Program.All.statement trivial fun _ => Program.All.pure _ _
  | none => exact (Program.all_statement _ _).mpr trivial

omit known in
theorem recordCost_quiet (costDelta : Double) :
    (recordCost platform id costDelta).All Op.keepsRows := by
  unfold recordCost
  split
  · exact Program.All.pure _ _
  refine Program.All.statement trivial fun found => ?_
  split
  case h_2 => exact Program.All.pure _ _
  split
  case h_2 => exact Program.All.pure _ _
  split
  · exact Program.All.pure _ _
  exact ((record_all _ _).mono fun _ => Op.metering.keepsRows).bind
    fun _ => Program.All.pure _ _

/-- Storing a grade owes the completion step. -/
theorem storeGrade_triple
    {payload : Payload} {sub : Submission} {graded : AssessmentResult} :
    SittingTriple platform requests sitting strict tid (Settled tid)
      (storeGrade platform payload sub graded)
      (fun stored =>
        AtPhase tid (closePhase sitting sub.id (stored = true))) := by
  unfold storeGrade
  refine Triple.bind (settled_of_quiet known (upsertResult_quiet _))
    fun stored => ?_
  split
  · refine settled_issue known trivial fun _ => ?_
    exact Triple.ret settled_stable fun _ _ settled => settled.close
  · refine issue_recorded _ settled_stable
      (fun _ _ _ => trivial)
      (saveSubmission_establishes known) fun _ => ?_
    refine issue_recorded _ savePhase_stable (fun _ _ _ => trivial)
      (commit_save_establishes known)
      fun _ => ?_
    refine Triple.ret closePhase_stable fun _ _ atPhase => ?_
    exact
      atPhase.mono (fun _ _ _ impossible => impossible)
        (fun _ _ _ impossible => impossible)
        (fun owed => ⟨rfl, owed.2⟩)
        (fun impossible => impossible) fun _ impossible => impossible

theorem landGrade_triple {payload : Payload} {sub : Submission} :
    SittingTriple platform requests sitting strict tid (Settled tid)
      (landGrade platform payload sub) (fun _ => Settled tid) := by
  have failed :
      SittingTriple platform requests sitting strict tid (Settled tid)
        (pure .serverError : Prog CallbackReply) (fun _ => Settled tid) :=
    Triple.ret settled_stable fun _ _ settled => settled
  unfold landGrade
  split
  case h_2 => exact failed
  refine Triple.bind (storeGrade_triple known) fun stored => ?_
  cases stored with
  | false =>
      refine failed.strengthen fun _ _ atPhase => ?_
      exact atPhase.settled_of_open fun closed => nomatch closed
  | true =>
      refine Triple.bind
        (phase_of_quiet known (recordCost_quiet _) (lasting_close _))
        fun _ => ?_
      refine Triple.bind
        ((claimSitting_triple known).strengthen fun recorded _ atPhase =>
          atPhase.mono (fun _ _ _ impossible => impossible)
            (fun _ _ _ impossible => impossible)
            (fun owed => ⟨True.intro, owed.2⟩)
            (fun impossible => impossible) fun _ impossible => impossible)
        fun ready => ?_
      refine Triple.bind (deliverIfReady_triple known) fun _ => ?_
      exact Triple.ret settled_stable fun _ _ settled => settled

/-- `assessments_callback` -/
theorem assessmentsCallback_triple {payload : Payload} :
    SittingTriple platform requests sitting strict tid (Settled tid)
      (assessmentsCallback platform payload) (fun _ => Settled tid) := by
  have answered :
      ∀ reply, SittingTriple platform requests sitting strict tid
        (Settled tid) (pure reply : Prog CallbackReply)
        (fun _ => Settled tid) :=
    fun reply => Triple.ret settled_stable fun _ _ settled => settled
  unfold assessmentsCallback
  dsimp only
  split
  · exact answered _
  split
  case h_2 => exact answered _
  refine settled_issue known trivial fun found => ?_
  split
  case h_2 => exact answered _
  refine settled_issue known trivial fun loaded => ?_
  split
  case h_2 => exact answered _
  split
  · split
    · exact answered _
    split
    · refine issue_recorded _ settled_stable
        (fun _ _ _ => trivial)
        (saveSubmission_establishes known) fun _ => ?_
      refine issue_recorded _ savePhase_stable
        (fun _ _ _ => trivial)
        (commit_save_establishes known) fun _ => ?_
      refine Triple.ret closePhase_stable fun _ _ atPhase => ?_
      exact atPhase.settled_of_open fun terminal => nomatch terminal
    · exact landGrade_triple known
  · exact landGrade_triple known

/-! ## Requests -/

/-- Every request that erases nothing. -/
theorem program_triple
    {request : Request} (isRequest : requests tid = request)
    (notErasure : request.isErasure = false) :
    SittingTriple platform requests sitting strict tid (Settled tid)
      (request.program platform) (fun _ => Settled tid) := by
  have answered :
      ∀ reply, SittingTriple platform requests sitting strict tid
        (Settled tid) (pure reply : Prog Reply) (fun _ => Settled tid) :=
    fun reply => Triple.ret settled_stable fun _ _ settled => settled
  cases request with
  | idle => exact answered .done
  | candidateSubmit request =>
      exact Triple.bind (candidateSubmit_triple known) fun _ => answered _
  | createSubmission request =>
      exact Triple.bind (createSubmission_triple known) fun _ => answered _
  | retrySubmission id =>
      exact
        Triple.bind (retrySubmission_triple known isRequest)
          fun _ => answered _
  | reapTick => exact Triple.bind (reapTick_triple known) fun _ => answered _
  | assessmentsCallback payload =>
      exact
        Triple.bind (assessmentsCallback_triple known) fun _ => answered _
  | erase scope email token => cases notErasure
  | consume org metric amount =>
      have quiet : (consume platform org metric amount).All Op.keepsRows :=
        (consume_all _ _ _).mono fun _ => Op.metering.keepsRows
      exact Triple.bind (settled_of_quiet known quiet) fun _ => answered _
  | passTime elapsed =>
      exact settled_issue known trivial fun _ => answered _

end Sitting

end AssessmentPlatform
