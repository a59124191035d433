import AssessmentPlatform.Grading.SittingLog

/-!
# Where a thread is with respect to a sitting

A phase says what a thread has staged, what it owes the sitting, and how far its
claim of the notification has come.  The rules here take a thread through quiet
statements, conditional UPDATEs and COMMITs.
-/

namespace AssessmentPlatform

open Interleaving RowTable

variable {platform : Platform} {requests : Nat → Request} {tid : Nat}
variable {answer : AgentAnswer} {op : Op} {before after store : Store}
variable {resp : Resp op} {sitting : Sitting} {strict : Prop}
variable {log : SittingLog}

/-! ## Where a thread is -/

/-- What a thread has staged, what it owes the sitting, what its reopening is
for, and how far its claim has come. -/
structure Phase where
  stages : String → Option Submission → Submission → Prop :=
    fun _ _ _ => False
  stamps : Nat → Option CandidateAttempt → CandidateAttempt → Prop :=
    fun _ _ _ => False
  owes : Store × SittingLog → Prop := fun _ => False
  reopens : Store × SittingLog → Prop := fun _ => False
  claiming : SittingClaim → Store × SittingLog → Prop := fun _ _ => False

/-- The thread is in the phase. -/
structure AtPhase
    (tid : Nat) (phase : Phase) (recorded : Store × SittingLog) : Prop where
  stages :
    ∀ id value, recorded.1.submissions.staged id = some (tid, value) →
      phase.stages id (recorded.1.submissions.row id) value
  stamps :
    ∀ id value, recorded.1.attempts.staged id = some (tid, value) →
      phase.stamps id (recorded.1.attempts.row id) value
  owes : recorded.2.owed tid → phase.owes recorded
  reopens : recorded.2.reopened tid → phase.reopens recorded
  claiming :
    ∀ claim, recorded.2.last = some claim → claim.claimant = tid →
      claim.ready = none → phase.claiming claim recorded

/-- The thread has nothing left to do for the sitting. -/
abbrev Settled (tid : Nat) : Store × SittingLog → Prop :=
  AtPhase tid {}

/-- Nothing that the phase speaks of is taken away by other threads. -/
structure Phase.Stable
    (platform : Platform) (requests : Nat → Request) (sitting : Sitting)
    (strict : Prop) (tid : Nat) (phase : Phase) : Prop where
  owes :
    (sittingContract platform requests sitting strict).Stable tid phase.owes
  reopens :
    (sittingContract platform requests sitting strict).Stable tid
      phase.reopens
  claiming :
    ∀ claim,
      (sittingContract platform requests sitting strict).Stable tid
        fun recorded => recorded.2.last = some claim →
          claim.claimant = tid → phase.claiming claim recorded

theorem stable_false :
    (sittingContract platform requests sitting strict).Stable tid
      fun _ => False :=
  Contract.stable_const False

theorem claiming_false (claim : SittingClaim) :
    (sittingContract platform requests sitting strict).Stable tid
      fun recorded => recorded.2.last = some claim →
        claim.claimant = tid → False := by
  intro before after other different _ guaranteed nothing found isTid
  have isOther : claim.claimant ≠ other := by
    rw [isTid]
    exact Ne.symm different
  exact nothing (guaranteed.last claim found isOther).1 isTid

theorem atPhase_stable
    {phase : Phase}
    (stable : phase.Stable platform requests sitting strict tid) :
    (sittingContract platform requests sitting strict).Stable tid
      (AtPhase tid phase) := by
  intro before after other different inv guaranteed atPhase
  have isOther : tid ≠ other := Ne.symm different
  constructor
  · intro id value staged
    have earlier := (guaranteed.moves.submissions.others isOther).mp staged
    rw [guaranteed.moves.submissions.row_of_locked isOther earlier]
    exact atPhase.stages id value earlier
  · intro id value staged
    have earlier := (guaranteed.moves.attempts.others isOther).mp staged
    rw [guaranteed.moves.attempts.row_of_locked isOther earlier]
    exact atPhase.stamps id value earlier
  · intro owed
    rw [guaranteed.owed tid isOther] at owed
    exact
      stable.owes before after other different inv guaranteed
        (atPhase.owes owed)
  · intro reopened
    rw [guaranteed.reopened tid isOther] at reopened
    exact
      stable.reopens before after other different inv guaranteed
        (atPhase.reopens reopened)
  · intro claim found isTid isOpen
    have earlier :
        before.2.last = some claim → claim.claimant = tid →
          phase.claiming claim before :=
      fun foundBefore _ => atPhase.claiming claim foundBefore isTid isOpen
    exact
      stable.claiming claim before after other different inv guaranteed
        earlier found isTid

theorem AtPhase.mono
    {phase wider : Phase} {recorded : Store × SittingLog}
    (atPhase : AtPhase tid phase recorded)
    (stages :
      ∀ id row value, phase.stages id row value →
        wider.stages id row value)
    (stamps :
      ∀ id row value, phase.stamps id row value →
        wider.stamps id row value)
    (owes : phase.owes recorded → wider.owes recorded)
    (reopens : phase.reopens recorded → wider.reopens recorded)
    (claiming :
      ∀ claim, phase.claiming claim recorded →
        wider.claiming claim recorded) :
    AtPhase tid wider recorded :=
  ⟨fun id value staged => stages _ _ _ (atPhase.stages id value staged),
    fun id value staged => stamps _ _ _ (atPhase.stamps id value staged),
    fun owed => owes (atPhase.owes owed),
    fun reopened => reopens (atPhase.reopens reopened),
    fun claim found isTid isOpen =>
      claiming claim (atPhase.claiming claim found isTid isOpen)⟩

/-! ## One statement of a thread -/

section Statement

/-- The statement writes neither submissions nor attempts, and erases
nothing. -/
def Op.keepsRows : Op → Prop
  | .insertSubmission _ | .casSubmission .. | .saveSubmission ..
  | .eraseSubmissions .. | .insertAttempt _ | .saveAttemptName ..
  | .stampAttempt _ | .clearStamp .. | .eraseAttempts ..
  | .eraseResults _ => False
  | _ => True

theorem Op.keepsRows.submissions (quiet : op.keepsRows) :
    ¬op.writesSubmission := by
  cases op <;> first | exact quiet.elim | exact not_false

theorem Op.keepsRows.attempts (quiet : op.keepsRows) :
    ¬op.writesAttempt := by
  cases op <;> first | exact quiet.elim | exact not_false

theorem Op.keepsRows.keepsSittings
    {request : Request} (quiet : op.keepsRows) :
    op.keepsSittings platform request := by
  cases op <;> first | exact quiet.elim | trivial

theorem Op.metering.keepsRows (metering : op.metering) : op.keepsRows := by
  cases op <;> first | exact metering.elim | trivial

/-- A thread that has staged nothing commits nothing. -/
theorem commits_of_clean
    {phase : Phase} (atPhase : AtPhase tid phase (before, log))
    (clean : ∀ id row value, ¬phase.stages id row value)
    (listed : before.submissions.Listed) (event : _ → _ → Bool) :
    before.submissions.commits tid event = false := by
  rw [Bool.eq_false_iff]
  intro commits
  obtain ⟨id, row, value, -, staged, -⟩ := (commits_iff listed).mp commits
  exact clean _ _ _ (atPhase.stages id value staged)

theorem commits_of_unstamping
    {phase : Phase} (atPhase : AtPhase tid phase (before, log))
    (listed : before.attempts.Listed) (event : _ → _ → Bool)
    (none :
      ∀ id row value, phase.stamps id (some row) value →
        event row value = false) :
    before.attempts.commits tid event = false := by
  rw [Bool.eq_false_iff]
  intro commits
  obtain ⟨id, row, value, found, staged, happens⟩ :=
    (commits_iff listed).mp commits
  have stamps : phase.stamps id (before.attempts.row id) value :=
    atPhase.stamps id value staged
  rw [found] at stamps
  rw [none id row value stamps] at happens
  cases happens

/-- A thread that has staged nothing and has no open claim proceeds with any
quiet statement. -/
theorem AtPhase.proceeds
    {owes reopens : Store × SittingLog → Prop}
    (atPhase :
      AtPhase tid { owes := owes, reopens := reopens } (before, log))
    (rows : SittingRows platform requests before)
    (keeps : op.keepsSittings platform (requests tid))
    (started :
      ∀ row inviteId email, op = .insertSubmission row →
        row.inviteId = some inviteId → row.candidateEmail = some email →
          before.Attended inviteId email)
    (commits : op = .commit → ¬log.reopened tid)
    (expects :
      ∀ id status attempts values,
        op = .casSubmission id status attempts values → log.reopened tid →
          requests tid = .retrySubmission id ∧
            ∃ copy, before.session tid id = some copy ∧
              copy.status = status ∧ copy.attempts = attempts) :
    Proceeds platform requests sitting strict tid op before log where
  keeps := keeps
  started := started
  claims := by
    intro _ stamps
    rw [commits_of_unstamping atPhase rows.wellFormed.attempts
      sitting.stamps fun _ _ _ impossible => impossible.elim] at stamps
    cases stamps
  clears := by
    intro _ clears
    rw [commits_of_unstamping atPhase rows.wellFormed.attempts
      sitting.clears fun _ _ _ impossible => impossible.elim] at clears
    cases clears
  retries := fun isCommit reopened => absurd reopened (commits isCommit)
  expects := expects
  delivers := by
    intro ready claim _ found isTid isOpen
    exact (atPhase.claiming claim found isTid isOpen).elim

/-- What a COMMIT must respect. -/
theorem Proceeds.commit
    (claims :
      store.attempts.commits tid sitting.stamps → log.reached)
    (clears :
      store.attempts.commits tid sitting.clears →
        ∃ id, requests tid = .retrySubmission id ∧
          store.Submitted sitting id)
    (retries :
      log.reopened tid →
        ∃ id value, store.submissions.staged id = some (tid, value) ∧
          store.Submitted sitting id ∧ value.status.terminal = false) :
    Proceeds platform requests sitting strict tid .commit store log where
  keeps := trivial
  started := fun _ _ _ isInsert => nomatch isInsert
  claims := fun _ => claims
  clears := fun _ => clears
  retries := fun _ => retries
  expects := fun _ _ _ _ isCas => nomatch isCas
  delivers := fun _ _ isDeliver => nomatch isDeliver

/-- What a statement other than COMMIT does to the flags of its thread. -/
theorem flags_noted
    (sitting : Sitting) (log : SittingLog) (notCommit : op ≠ .commit)
    (rows : SittingRows platform requests before)
    (executes : exec platform op tid answer before = some (resp, after)) :
    ((noteSitting platform sitting op tid resp before log).owed tid →
      log.owed tid) ∧
    ((noteSitting platform sitting op tid resp before log).reopened tid →
      log.reopened tid) ∧
    ((∀ claim, log.last = some claim → claim.claimant = tid →
        claim.ready ≠ none) →
      ∀ claim,
        (noteSitting platform sitting op tid resp before log).last =
          some claim → claim.claimant = tid → claim.ready ≠ none) := by
  have unchanged :
      ∀ change : SittingClaim → SittingClaim,
        (∀ claim, log.last = some claim → claim.claimant = tid →
          claim.ready ≠ none) →
        ∀ claim, (log.updateOpen tid change).last = some claim →
          claim.claimant = tid → claim.ready ≠ none := by
    intro change closed claim found isTid
    obtain ⟨old, foundOld, isClaim⟩ := Option.map_eq_some_iff.mp found
    split at isClaim
    · next isOpen =>
        exact absurd isOpen.2 (closed old foundOld isOpen.1)
    · exact closed claim (isClaim ▸ foundOld) isTid
  rcases noteSitting_cases sitting log notCommit rows executes with
    same | ⟨settled, -⟩ | ⟨_, _, _, _, -, lost, -⟩ | ⟨id, read⟩ |
      ⟨ready, -, delivered⟩
  · rw [same]
    exact ⟨id, id, id⟩
  · rw [settled]
    refine ⟨fun owed => ?_, id, id⟩
    simp [SittingLog.settle] at owed
  · rw [lost]
    refine ⟨id, fun reopened => ?_, id⟩
    simp at reopened
  · rw [read]
    exact ⟨fun owed => owed, fun reopened => reopened, unchanged _⟩
  · rw [delivered]
    exact ⟨fun owed => owed, fun reopened => reopened, unchanged _⟩

/-- What a thread that had staged nothing is left with by a statement other
than COMMIT. -/
theorem AtPhase.issued
    {owes reopens : Store × SittingLog → Prop}
    (atPhase :
      AtPhase tid { owes := owes, reopens := reopens } (before, log))
    (sitting : Sitting) (rows : SittingRows platform requests before)
    (executes : exec platform op tid answer before = some (resp, after))
    (notCommit : op ≠ .commit) :
    AtPhase tid
      { stages := fun id row value =>
          SubmissionWrite before op id value ∧
            row = before.submissions.row id
        stamps := fun id row value =>
          AttemptWrite platform before op id value ∧
            row = before.attempts.row id
        owes := fun _ => owes (before, log)
        reopens := fun _ => reopens (before, log) }
      (after,
        recordSitting platform sitting op tid resp before after log) := by
  have submissions := exec_submissions rows.wellFormed.submissions executes
  have attempts := exec_attempts rows.wellFormed.attempts executes
  have submissionRows := submissions.row_of_not_commits notCommit
  have attemptRows := attempts.row_of_not_commits notCommit
  obtain ⟨owed, reopened, closed⟩ :=
    flags_noted sitting log notCommit rows executes
  constructor
  · intro id value staged
    rcases submissions.staged staged with earlier | ⟨-, -, -, write⟩
    · exact (atPhase.stages id value earlier).elim
    · exact ⟨write, congrFun submissionRows id⟩
  · intro id value staged
    rcases attempts.staged staged with earlier | ⟨-, -, -, write⟩
    · exact (atPhase.stamps id value earlier).elim
    · exact ⟨write, congrFun attemptRows id⟩
  · exact fun isOwed => atPhase.owes (owed isOwed)
  · exact fun isReopened => atPhase.reopens (reopened isReopened)
  · intro claim found isTid isOpen
    have closedBefore :
        ∀ claim, log.last = some claim → claim.claimant = tid →
          claim.ready ≠ none :=
      fun claim found isTid isOpen =>
        (atPhase.claiming claim found isTid isOpen).elim
    exact closed closedBefore claim found isTid isOpen

/-- What a thread is left with by its COMMIT. -/
theorem AtPhase.committed
    {phase : Phase} (atPhase : AtPhase tid phase (before, log)) :
    AtPhase tid
      { owes := fun _ =>
          before.submissions.commits tid sitting.closes ∨
            log.owed tid ∧ ¬before.attempts.commits tid sitting.stamps
        reopens := fun _ => before.attempts.commits tid sitting.clears
        claiming := fun claim _ =>
          before.attempts.commits tid sitting.stamps ∧
              claim = ⟨tid, [], none⟩ ∨
            log.last = some claim ∧ phase.claiming claim (before, log) }
      (before.commit tid,
        recordSitting platform sitting .commit tid () before
          (before.commit tid) log) := by
  constructor
  · intro id value staged
    exact (unlock_eq_some_iff.mp staged).2 rfl
  · intro id value staged
    exact (unlock_eq_some_iff.mp staged).2 rfl
  · intro owed
    simpa [recordSitting, noteSitting, SittingLog.commit] using owed
  · intro reopened
    simpa [recordSitting, noteSitting, SittingLog.commit] using reopened
  · intro claim found isTid isOpen
    by_cases stamps : before.attempts.commits tid sitting.stamps
    · have isLast : some ⟨tid, [], none⟩ = some claim := by
        simpa [recordSitting, noteSitting, SittingLog.commit, stamps]
          using found
      exact Or.inl ⟨stamps, (Option.some.inj isLast).symm⟩
    · have isLast : log.last = some claim := by
        simpa [recordSitting, noteSitting, SittingLog.commit, stamps]
          using found
      exact Or.inr ⟨isLast, atPhase.claiming claim isLast isTid isOpen⟩

end Statement

/-! ## Quiet programs -/

/-- The condition on the runs, where `strict` asks for one. -/
def admits (sitting : Sitting) (strict : Prop) :
    Nat → Op → Store × SittingLog → Prop :=
  fun tid op recorded => strict → keepsReports sitting tid op recorded

/-- The triples of the threads' programs. -/
abbrev SittingTriple
    (platform : Platform) (requests : Nat → Request) (sitting : Sitting)
    (strict : Prop) (tid : Nat) {α : Type}
    (pre : Store × SittingLog → Prop) (program : Prog α)
    (post : α → Store × SittingLog → Prop) : Prop :=
  Triple
    ((serving platform requests).withHistory (recordSitting platform sitting))
    (admits sitting strict)
    (sittingContract platform requests sitting strict) tid pre program post

/-- What a statement of a thread establishes. -/
abbrev SittingEstablishes
    (platform : Platform) (requests : Nat → Request) (sitting : Sitting)
    (strict : Prop) (tid : Nat) (pre : Store × SittingLog → Prop) (op : Op)
    (middle : Resp op → Store × SittingLog → Prop) : Prop :=
  EstablishesRecorded platform (recordSitting platform sitting)
    (admits sitting strict)
    (sittingContract platform requests sitting strict) tid pre op middle

/-- An assertion that no statement takes away. -/
def Lasting
    (platform : Platform) (requests : Nat → Request)
    (assertion : Store × SittingLog → Prop) : Prop :=
  ∀ before after tid, SittingRows platform requests before.1 →
    Store.Moves tid before.1 after.1 → assertion before → assertion after

theorem Lasting.stable
    {assertion : Store × SittingLog → Prop}
    (lasting : Lasting platform requests assertion) :
    (sittingContract platform requests sitting strict).Stable tid
      assertion :=
  fun before after other _ inv guaranteed holds =>
    lasting before after other inv.rows guaranteed.moves holds

theorem lasting_const (fact : Prop) :
    Lasting platform requests fun _ => fact :=
  fun _ _ _ _ _ holds => holds

theorem lasting_submitted (id : String) :
    Lasting platform requests fun recorded =>
      recorded.1.Submitted sitting id :=
  fun _ _ _ rows moves submitted => submitted.moves rows moves

section Quiet

variable {owes : Store × SittingLog → Prop}

theorem owes_stable (lasting : Lasting platform requests owes) :
    (sittingContract platform requests sitting strict).Stable tid
      (AtPhase tid { owes := owes }) :=
  atPhase_stable ⟨lasting.stable, stable_false, claiming_false⟩

theorem settled_stable :
    (sittingContract platform requests sitting strict).Stable tid
      (Settled tid) :=
  owes_stable (lasting_const False)

variable (known : platform.invite sitting.invite.id = some sitting.invite)

include known

/-- A quiet statement keeps the guarantee and the phase. -/
theorem AtPhase.quiet
    (atPhase : AtPhase tid { owes := owes } (before, log))
    (quiet : op.keepsRows) (lasting : Lasting platform requests owes)
    (inv : SittingInv platform requests sitting strict before log)
    (allowed : admits sitting strict tid op (before, log))
    (executes : exec platform op tid answer before = some (resp, after)) :
    SittingGuar platform requests sitting strict tid (before, log)
        (after,
          recordSitting platform sitting op tid resp before after log) ∧
      AtPhase tid { owes := owes }
        (after,
          recordSitting platform sitting op tid resp before after log) := by
  have notReopened : ¬log.reopened tid := atPhase.reopens
  have proceeds :
      Proceeds platform requests sitting strict tid op before log := by
    refine atPhase.proceeds inv.rows quiet.keepsSittings ?_ ?_ ?_
    · intro row inviteId email isInsert
      subst isInsert
      exact absurd trivial quiet.submissions
    · exact fun _ => notReopened
    · exact fun _ _ _ _ _ reopened => absurd reopened notReopened
  have guaranteed := inv.guar proceeds known allowed executes
  refine ⟨guaranteed, ?_⟩
  by_cases committing : op = .commit
  · subst committing
    cases executes
    have closesNone : before.submissions.commits tid sitting.closes = false :=
      commits_of_clean atPhase (fun _ _ _ impossible => impossible)
        inv.rows.wellFormed.submissions _
    have unstamping :
        ∀ event, before.attempts.commits tid event = false := fun event =>
      commits_of_unstamping atPhase inv.rows.wellFormed.attempts event
        fun _ _ _ impossible => impossible.elim
    refine atPhase.committed.mono (fun _ _ _ impossible => impossible)
      (fun _ _ _ impossible => impossible) ?_ ?_ ?_
    · intro owed
      rw [closesNone, unstamping] at owed
      have isOwed : log.owed tid := by simpa using owed
      exact
        lasting _ _ tid inv.rows guaranteed.moves (atPhase.owes isOwed)
    · exact fun clears => absurd clears (by simp [unstamping])
    · intro claim claiming
      rw [unstamping] at claiming
      simp at claiming
  · refine (atPhase.issued sitting inv.rows executes committing).mono ?_ ?_ ?_ ?_ ?_
    · exact fun _ _ _ write => quiet.submissions write.1.writes
    · exact fun _ _ _ write => quiet.attempts write.1.writes
    · exact fun holds =>
        lasting _ _ tid inv.rows guaranteed.moves holds
    · exact fun impossible => impossible
    · exact fun _ impossible => impossible

theorem quiet_establishes_phase
    (quiet : op.keepsRows) (lasting : Lasting platform requests owes) :
    SittingEstablishes platform requests sitting strict tid
      (AtPhase tid { owes := owes }) op
      (fun _ => AtPhase tid { owes := owes }) :=
  fun _ _ _ _ _ inv atPhase allowed executes =>
    atPhase.quiet known quiet lasting inv allowed executes

theorem phase_of_quiet
    {α : Type} {program : Prog α} (quiet : program.All Op.keepsRows)
    (lasting : Lasting platform requests owes) :
    SittingTriple platform requests sitting strict tid
      (AtPhase tid { owes := owes }) program
      (fun _ => AtPhase tid { owes := owes }) :=
  all_recorded (owes_stable lasting) (fun _ _ _ => trivial)
    quiet fun _ isQuiet =>
    quiet_establishes_phase known isQuiet lasting

theorem settled_of_quiet
    {α : Type} {program : Prog α} (quiet : program.All Op.keepsRows) :
    SittingTriple platform requests sitting strict tid (Settled tid) program
      (fun _ => Settled tid) :=
  phase_of_quiet known quiet (lasting_const False)

/-- A quiet program keeps whatever no statement takes away. -/
theorem lasting_of_quiet
    {α : Type} {program : Prog α} {assertion : Store × SittingLog → Prop}
    (quiet : program.All Op.keepsRows)
    (lasting : Lasting platform requests assertion) :
    SittingTriple platform requests sitting strict tid
      (fun recorded => Settled tid recorded ∧ assertion recorded) program
      (fun _ recorded => Settled tid recorded ∧ assertion recorded) := by
  refine all_recorded (settled_stable.and lasting.stable) (fun _ _ _ => trivial)
    quiet ?_
  intro op isQuiet before log answer resp after inv holds allowed executes
  obtain ⟨guaranteed, settled⟩ :=
    holds.1.quiet known isQuiet (lasting_const False) inv allowed executes
  exact
    ⟨guaranteed, settled,
      lasting _ _ tid inv.rows guaranteed.moves holds.2⟩

theorem settled_issue
    {α : Type} {next : Resp op → Prog α}
    {post : α → Store × SittingLog → Prop} (quiet : op.keepsRows)
    (rest :
      ∀ resp, SittingTriple platform requests sitting strict tid
        (Settled tid) (next resp) post) :
    SittingTriple platform requests sitting strict tid (Settled tid)
      (issue op >>= next) post :=
  issue_recorded _ settled_stable
    (fun _ _ _ => trivial)
    (quiet_establishes_phase known quiet (lasting_const False)) rest

end Quiet

/-! ## Conditional UPDATEs -/

section Cas

variable {id : String} {status : Status} {attempts : Nat}
variable {values : SubmissionChange}

/-- The thread retries the submission, and its copy shows these columns. -/
def Retrying
    (requests : Nat → Request) (sitting : Sitting) (tid : Nat) (id : String)
    (status : Status) (attempts : Nat) (recorded : Store × SittingLog) :
    Prop :=
  requests tid = .retrySubmission id ∧ recorded.1.Submitted sitting id ∧
    ∃ copy, recorded.1.session tid id = some copy ∧ copy.status = status ∧
      copy.attempts = attempts

theorem retrying_stable :
    (sittingContract platform requests sitting strict).Stable tid
      (Retrying requests sitting tid id status attempts) := by
  intro before after other different inv guaranteed retrying
  obtain ⟨request, submitted, copy, copied, same⟩ := retrying
  rw [← guaranteed.moves.session (Ne.symm different)] at copied
  exact
    ⟨request, submitted.moves inv.rows guaranteed.moves, copy, copied, same⟩

/-- The thread has staged the UPDATE of a submission. -/
def StagedUpdate
    (sitting : Sitting) (tid : Nat) (id : String)
    (recorded : Store × SittingLog) : Prop :=
  recorded.1.Submitted sitting id ∧
    ∃ value, recorded.1.submissions.staged id = some (tid, value) ∧
      value.status.terminal = false

theorem stagedUpdate_stable :
    (sittingContract platform requests sitting strict).Stable tid
      (StagedUpdate sitting tid id) := by
  intro before after other different inv guaranteed stagedUpdate
  obtain ⟨submitted, value, staged, isOpen⟩ := stagedUpdate
  have kept :=
    (guaranteed.moves.submissions.others (Ne.symm different)).mpr staged
  exact
    ⟨submitted.moves inv.rows guaranteed.moves, value, kept, isOpen⟩

/-- What a thread has staged once its conditional UPDATE has won. -/
def updatePhase
    (sitting : Sitting) (tid : Nat) (id : String) (status : Status) :
    Phase where
  stages := fun updated _ value => updated = id ∧ value.status = status
  reopens := StagedUpdate sitting tid id

/-- What a thread owes once its UPDATE of the status is committed. -/
def closePhase
    (sitting : Sitting) (id : String) (closed : Prop) : Phase where
  owes := fun recorded => closed ∧ recorded.1.Submitted sitting id

theorem lasting_close (closed : Prop) :
    Lasting platform requests
      (closePhase sitting id closed).owes :=
  fun _ _ _ rows moves owed => ⟨owed.1, owed.2.moves rows moves⟩

/-- After the conditional UPDATE. -/
def AfterCas
    (sitting : Sitting) (tid : Nat) (id : String) (status : Status) :
    Bool → Store × SittingLog → Prop
  | true => AtPhase tid (updatePhase sitting tid id status)
  | false => Settled tid

variable (known : platform.invite sitting.invite.id = some sitting.invite)

include known

theorem casSubmission_establishes
    (counted : values.attempts.isSome → values.status.terminal = false) :
    SittingEstablishes platform requests sitting strict tid
      (AtPhase tid
        { reopens := fun recorded =>
            Retrying requests sitting tid id status attempts recorded ∧
              values.status.terminal = false })
      (.casSubmission id status attempts values)
      (AfterCas sitting tid id values.status) := by
  intro before log answer won after inv atPhase allowed executes
  have proceeds :
      Proceeds platform requests sitting strict tid
        (.casSubmission id status attempts values) before log := by
    refine atPhase.proceeds inv.rows counted
      (fun _ _ _ isInsert => nomatch isInsert)
      (fun isCommit => nomatch isCommit) ?_
    intro casId casStatus casAttempts casValues isCas reopened
    cases isCas
    obtain ⟨⟨request, -, copied⟩, -⟩ := atPhase.reopens reopened
    exact ⟨request, copied⟩
  refine ⟨inv.guar proceeds known allowed executes, ?_⟩
  have issued := atPhase.issued sitting inv.rows executes nofun
  have executed := executes
  simp only [exec, Option.map_eq_some_iff] at executed
  obtain ⟨⟨isWon, table⟩, tried, equal⟩ := executed
  cases equal
  rcases tryUpdate_cases tried with
    ⟨rfl, -, row, found, isMatch, rfl⟩ | ⟨rfl, rfl, -⟩
  · refine issued.mono ?_ ?_ ?_ ?_ ?_
    · intro updated _ value write
      cases write.1 with
      | cas => exact ⟨rfl, rfl⟩
    · exact fun _ _ _ write => write.1.writes
    · exact fun impossible => impossible
    · intro reopens
      obtain ⟨⟨-, ⟨other, foundOther, submitted⟩, -⟩, isOpen⟩ := reopens
      exact
        ⟨⟨other, foundOther, submitted⟩, values.apply before.clock row,
          Function.update_self _ _ _, isOpen⟩
    · exact fun _ impossible => impossible
  · constructor
    · exact fun id value staged => atPhase.stages id value staged
    · exact fun id value staged => atPhase.stamps id value staged
    · exact fun owed => atPhase.owes owed
    · intro reopened
      simp [recordSitting, noteSitting] at reopened
    · exact fun claim found isTid isOpen =>
        atPhase.claiming claim found isTid isOpen

/-- COMMIT of a staged UPDATE of the status. -/
theorem commit_update_establishes :
    SittingEstablishes platform requests sitting strict tid
      (AtPhase tid (updatePhase sitting tid id status)) .commit
      (fun _ => AtPhase tid (closePhase sitting id status.terminal)) := by
  intro before log answer resp after inv atPhase allowed executes
  have unstamping :
      ∀ event, before.attempts.commits tid event = false := fun event =>
    commits_of_unstamping atPhase inv.rows.wellFormed.attempts event
      fun _ _ _ impossible => impossible.elim
  have proceeds :
      Proceeds platform requests sitting strict tid .commit before log := by
    refine .commit ?_ ?_ ?_
    · exact fun stamps => absurd stamps (by simp [unstamping])
    · exact fun clears => absurd clears (by simp [unstamping])
    · intro reopened
      obtain ⟨submitted, value, staged, isOpen⟩ := atPhase.reopens reopened
      exact ⟨id, value, staged, submitted, isOpen⟩
  have guaranteed := inv.guar proceeds known allowed executes
  refine ⟨guaranteed, ?_⟩
  cases executes
  refine atPhase.committed.mono (fun _ _ _ impossible => impossible)
    (fun _ _ _ impossible => impossible) ?_ ?_ ?_
  · intro owed
    rcases owed with closes | ⟨isOwed, -⟩
    · obtain ⟨updated, row, value, found, staged, isClose⟩ :=
        (commits_iff inv.rows.wellFormed.submissions).mp closes
      obtain ⟨isId, isStatus⟩ := atPhase.stages updated value staged
      simp only [Sitting.closes, Bool.and_eq_true] at isClose
      obtain ⟨⟨submitted, terminal⟩, -⟩ := isClose
      have earlier : before.Submitted sitting id :=
        ⟨row, isId ▸ found, submitted⟩
      exact
        ⟨isStatus ▸ terminal, earlier.moves inv.rows guaranteed.moves⟩
    · exact (atPhase.owes isOwed).elim
  · exact fun clears => absurd clears (by simp [unstamping])
  · intro claim claiming
    simp only [unstamping] at claiming
    rcases claiming with ⟨⟨⟩, -⟩ | ⟨-, impossible⟩
    exact impossible

end Cas

end AssessmentPlatform
