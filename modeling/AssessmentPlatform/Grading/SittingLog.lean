import AssessmentPlatform.Grading.Sitting

/-!
# Who owes a sitting its notification

A history of the runs of one sitting: its claims, which threads still have to
run the completion step of a submission they closed, and which threads have
reopened the sitting and not yet claimed the submission that they retry.  As
long as a complete sitting is not notified, some thread is obliged to it.
-/

namespace AssessmentPlatform

open Interleaving RowTable

variable {platform : Platform} {requests : Nat → Request} {tid : Nat}
variable {answer : AgentAnswer} {op : Op} {before after store : Store}
variable {resp : Resp op} {sitting : Sitting} {strict : Prop}

/-! ## The history -/

/-- One successful claim: who made it, the submissions whose results it has
read since, and what it handed to delivery. -/
structure SittingClaim where
  claimant : Nat
  read : List String
  ready : Option ResultsReady

/-- The history of a sitting. -/
structure SittingLog where
  /-- The sitting has been complete in some state. -/
  reached : Bool
  /-- The thread has closed a submission and its completion step has not
  ended. -/
  owed : Nat → Bool
  /-- The thread has cleared the stamp and not yet claimed its submission. -/
  reopened : Nat → Bool
  /-- The number of successful claims. -/
  claims : Nat
  /-- The last successful claim. -/
  last : Option SittingClaim

namespace Sitting

/-- The update takes a submission of the sitting to a terminal status. -/
def closes (sitting : Sitting) (row value : Submission) : Bool :=
  sitting.submitted row && value.status.terminal && value.status != row.status

/-- The update stamps the attempt of the sitting. -/
def stamps (sitting : Sitting) (row value : CandidateAttempt) : Bool :=
  sitting.attempted row && row.resultsNotifiedAt.isNone &&
    value.resultsNotifiedAt.isSome

/-- The update clears the stamp of the sitting. -/
def clears (sitting : Sitting) (row value : CandidateAttempt) : Bool :=
  sitting.attempted row && row.resultsNotifiedAt.isSome &&
    value.resultsNotifiedAt.isNone

end Sitting

namespace SittingLog

/-- Before the first statement. -/
def empty : SittingLog where
  reached := false
  owed := fun _ => false
  reopened := fun _ => false
  claims := 0
  last := none

/-- The completion step of `tid` has ended. -/
def settle (log : SittingLog) (tid : Nat) : SittingLog :=
  { log with owed := Function.update log.owed tid false }

/-- Change the last claim, if it is `tid`'s and not yet delivered. -/
def updateOpen
    (log : SittingLog) (tid : Nat) (change : SittingClaim → SittingClaim) :
    SittingLog :=
  { log with
    last := log.last.map fun claim =>
      if claim.claimant = tid ∧ claim.ready = none then change claim
      else claim }

/-- What a COMMIT of `tid` does to the sitting. -/
def commit
    (log : SittingLog) (sitting : Sitting) (tid : Nat) (before : Store) :
    SittingLog :=
  let claimed := before.attempts.commits tid sitting.stamps
  { log with
    owed := Function.update log.owed tid
      (before.submissions.commits tid sitting.closes ||
        log.owed tid && !claimed)
    reopened := Function.update log.reopened tid
      (before.attempts.commits tid sitting.clears)
    claims := if claimed then log.claims + 1 else log.claims
    last := if claimed then some ⟨tid, [], none⟩ else log.last }

end SittingLog

/-- What a statement adds to the history.  A completion step ends where it
counts too few terminal submissions, finds no attempt or a stamped one, or with
the COMMIT of its claim; a retry's claim ends where it is lost or committed. -/
def noteSitting (platform : Platform) (sitting : Sitting) :
    (op : Op) → Nat → Resp op → Store → SittingLog → SittingLog
  | .selectGraded inviteId email, tid, graded, _, log =>
      if inviteId = sitting.invite.id ∧ email = sitting.email ∧
          graded.length < platform.slotCount sitting.invite then
        log.settle tid
      else log
  | .selectAttempt inviteId email, tid, found, _, log =>
      if inviteId = sitting.invite.id ∧ email = sitting.email ∧
          found = none then
        log.settle tid
      else log
  | .stampAttempt id, tid, won, before, log =>
      if !won && (before.attempts.row id).any sitting.attempted then
        log.settle tid
      else log
  | .casSubmission .., tid, won, _, log =>
      if won then log
      else { log with reopened := Function.update log.reopened tid false }
  | .selectGradedResult id, tid, _, _, log =>
      log.updateOpen tid fun claim => { claim with read := id :: claim.read }
  | .deliver ready, tid, _, _, log =>
      log.updateOpen tid fun claim => { claim with ready := some ready }
  | .commit, tid, _, before, log => log.commit sitting tid before
  | _, _, _, _, log => log

/-- The history of a sitting after a statement. -/
def recordSitting (platform : Platform) (sitting : Sitting)
    (op : Op) (tid : Nat) (resp : Resp op) (before after : Store)
    (log : SittingLog) : SittingLog :=
  { noteSitting platform sitting op tid resp before log with
    reached := log.reached || decide (after.Complete platform sitting) }

theorem reached_of_complete
    {log : SittingLog} (complete : after.Complete platform sitting) :
    (recordSitting platform sitting op tid resp before after log).reached := by
  simp [recordSitting, complete]

theorem reached_of_reached
    {log : SittingLog} (reached : log.reached) :
    (recordSitting platform sitting op tid resp before after log).reached := by
  simp [recordSitting, reached]

/-! ## The invariant -/

/-- The identifiers are submissions of the sitting, at least one for each
slot. -/
structure Store.Covers
    (store : Store) (platform : Platform) (sitting : Sitting)
    (ids : List String) : Prop where
  nodup : ids.Nodup
  enough : platform.slotCount sitting.invite ≤ ids.length
  submitted : ∀ id ∈ ids, store.Submitted sitting id

/-- The questions carry the stored verdicts and scores. -/
def Store.Reports (store : Store) (questions : List GradedQuestion) : Prop :=
  ∀ question ∈ questions,
    (question.verdict, question.scorePct) =
      reportOf (store.results.row question.submissionId)

/-- The submissions that a notification reports. -/
def ResultsReady.reported (ready : ResultsReady) : List String :=
  ready.questions.map GradedQuestion.submissionId

/-- A thread that will notify a complete sitting or reopen one of its
submissions: it owes the completion step, or it is about to claim the submission
that it retries, of which it has no outdated copy. -/
def Obliged
    (requests : Nat → Request) (sitting : Sitting) (tid : Nat)
    (store : Store) (log : SittingLog) : Prop :=
  log.owed tid ∨
    log.reopened tid ∧ ∃ id row, requests tid = .retrySubmission id ∧
      store.submissions.row id = some row ∧ sitting.submitted row ∧
        ∀ copy, store.session tid id = some copy →
          copy.status = row.status ∧ copy.attempts = row.attempts

/-- What holds of a delivered claim: it reports the sitting's submissions, and,
while it stands, what is stored for them. -/
structure Delivered
    (platform : Platform) (sitting : Sitting) (strict : Prop) (store : Store)
    (claim : SittingClaim) (ready : ResultsReady) : Prop where
  covers : store.Covers platform sitting ready.reported
  read : ∀ id ∈ ready.reported, id ∈ claim.read
  reports : strict → store.Notified sitting → store.Reports ready.questions

/-- The invariant.  `strict` restricts the runs to those in which no commit
changes what a standing claim has read. -/
structure SittingInv
    (platform : Platform) (requests : Nat → Request) (sitting : Sitting)
    (strict : Prop) (store : Store) (log : SittingLog) : Prop where
  rows : SittingRows platform requests store
  reached : store.Complete platform sitting → log.reached
  counted : 0 < log.claims → log.reached
  notified : store.Notified sitting → 0 < log.claims ∧ log.last.isSome
  once :
    (∀ tid, (requests tid).isRetry = false) →
      log.claims ≤ 1 ∧ (¬store.Notified sitting → log.claims = 0)
  obliged :
    store.Complete platform sitting → ¬store.Notified sitting →
      ∃ tid, Obliged requests sitting tid store log
  delivered :
    ∀ claim ready, log.last = some claim → claim.ready = some ready →
      Delivered platform sitting strict store claim ready

/-- What a statement must respect, beyond the rows of the sittings. -/
structure Proceeds
    (platform : Platform) (requests : Nat → Request) (sitting : Sitting)
    (strict : Prop) (tid : Nat) (op : Op) (store : Store) (log : SittingLog) :
    Prop where
  keeps : op.keepsSittings platform (requests tid)
  started :
    ∀ row inviteId email, op = .insertSubmission row →
      row.inviteId = some inviteId → row.candidateEmail = some email →
        store.Attended inviteId email
  claims :
    op = .commit → store.attempts.commits tid sitting.stamps → log.reached
  clears :
    op = .commit → store.attempts.commits tid sitting.clears →
      ∃ id, requests tid = .retrySubmission id ∧ store.Submitted sitting id
  retries :
    op = .commit → log.reopened tid →
      ∃ id value, store.submissions.staged id = some (tid, value) ∧
        store.Submitted sitting id ∧ value.status.terminal = false
  expects :
    ∀ id status attempts values,
      op = .casSubmission id status attempts values → log.reopened tid →
        requests tid = .retrySubmission id ∧
          ∃ copy, store.session tid id = some copy ∧
            copy.status = status ∧ copy.attempts = attempts
  delivers :
    ∀ ready claim, op = .deliver ready → log.last = some claim →
      claim.claimant = tid → claim.ready = none →
        Delivered platform sitting strict store claim ready

/-- The condition on the runs in `strict`: no COMMIT changes the verdict or the
score that a standing claim has read. -/
def keepsReports (sitting : Sitting) :
    Nat → Op → Store × SittingLog → Prop
  | tid, .commit, (store, log) =>
      store.Notified sitting → ∀ claim id value, log.last = some claim →
        id ∈ claim.read → store.results.staged id = some (tid, value) →
          reportOf (some value) = reportOf (store.results.row id)
  | _, _, _ => True

/-- What the other threads may rely on. -/
structure SittingGuar
    (platform : Platform) (requests : Nat → Request) (sitting : Sitting)
    (strict : Prop) (tid : Nat) (before after : Store × SittingLog) :
    Prop where
  inv : SittingInv platform requests sitting strict after.1 after.2
  moves : Store.Moves tid before.1 after.1
  owed : ∀ other, other ≠ tid → after.2.owed other = before.2.owed other
  reopened :
    ∀ other, other ≠ tid → after.2.reopened other = before.2.reopened other
  reached : before.2.reached → after.2.reached
  last :
    ∀ claim, after.2.last = some claim → claim.claimant ≠ tid →
      before.2.last = some claim ∧
        (after.1.Notified sitting → before.1.Notified sitting ∧
          (strict → ∀ id ∈ claim.read,
            reportOf (after.1.results.row id) =
              reportOf (before.1.results.row id)))

/-- The contract of every thread. -/
def sittingContract
    (platform : Platform) (requests : Nat → Request) (sitting : Sitting)
    (strict : Prop) : Contract Nat (Store × SittingLog) where
  inv := fun recorded =>
    SittingInv platform requests sitting strict recorded.1 recorded.2
  guar := SittingGuar platform requests sitting strict
  guar_inv := fun _ guaranteed => guaranteed.inv

/-! ## Statements other than COMMIT -/

section NotCommit

variable {log : SittingLog}

theorem complete_of_row_eq
    (listed : before.submissions.Listed) (listedAfter : after.submissions.Listed)
    (same : after.submissions.row = before.submissions.row)
    (complete : before.Complete platform sitting) :
    after.Complete platform sitting :=
  le_trans complete
    (length_select_mono listed listedAfter fun found graded =>
      ⟨_, same ▸ found, graded⟩)

theorem notified_of_row_eq
    (sitting : Sitting) (same : after.attempts.row = before.attempts.row) :
    after.Notified sitting ↔ before.Notified sitting := by
  rw [Store.Notified, Store.Notified, same]

theorem Store.Covers.moves
    {ids : List String} (covers : before.Covers platform sitting ids)
    (rows : SittingRows platform requests before)
    (moves : Store.Moves tid before after) :
    after.Covers platform sitting ids :=
  ⟨covers.nodup, covers.enough, fun id member =>
    (covers.submitted id member).moves rows moves⟩

/-- A complete sitting has an attempt. -/
theorem attended_of_complete
    (rows : SittingRows platform requests store)
    (complete : store.Complete platform sitting) :
    store.Attended sitting.invite.id sitting.email := by
  have nonempty : 0 < (store.graded sitting).length :=
    lt_of_lt_of_le (platform.slotCount_pos sitting.invite) complete
  obtain ⟨id, member⟩ := List.exists_mem_of_length_pos nonempty
  obtain ⟨-, row, found, graded⟩ := mem_select_iff.mp member
  obtain ⟨isInvite, isEmail⟩ :=
    Sitting.submitted_iff.mp (isGraded_iff.mp graded).1
  exact rows.attended (Or.inl found) isInvite isEmail

/-- Where there is an attempt, the first one is found. -/
theorem firstAttempt_isSome
    {inviteId : Nat} {email : String} (listed : store.attempts.Listed)
    (attended : store.Attended inviteId email) :
    (store.firstAttempt inviteId email).isSome := by
  obtain ⟨id, row, found, rfl, rfl⟩ := attended
  have member :
      id ∈ store.attempts.select fun other =>
        other.inviteId == row.inviteId &&
          other.candidateEmail == row.candidateEmail :=
    mem_select_iff.mpr ⟨listed.row found, row, found, by simp⟩
  unfold Store.firstAttempt
  obtain ⟨first, rest, isFirst⟩ :=
    List.exists_cons_of_ne_nil (List.ne_nil_of_mem member)
  have firstMember :
      first ∈ store.attempts.select fun other =>
        other.inviteId == row.inviteId &&
          other.candidateEmail == row.candidateEmail :=
    isFirst ▸ List.mem_cons_self
  obtain ⟨-, other, foundFirst, -⟩ := mem_select_iff.mp firstMember
  rw [isFirst]
  simp [foundFirst]

/-- What a statement other than COMMIT adds to the history: nothing, the end of
a completion step that has nothing left to do, the loss of a retry's claim, or
progress of a claim. -/
theorem noteSitting_cases
    (sitting : Sitting) (log : SittingLog)
    (notCommit : op ≠ .commit)
    (rows : SittingRows platform requests before)
    (executes : exec platform op tid answer before = some (resp, after)) :
    noteSitting platform sitting op tid resp before log = log ∨
    (noteSitting platform sitting op tid resp before log = log.settle tid ∧
      (before.Complete platform sitting → before.Notified sitting)) ∨
    (∃ id status attempts values,
      op = .casSubmission id status attempts values ∧
      noteSitting platform sitting op tid resp before log =
        { log with reopened := Function.update log.reopened tid false } ∧
      ∀ row, before.submissions.row id = some row →
        ¬(row.status = status ∧ row.attempts = attempts)) ∨
    (∃ id, noteSitting platform sitting op tid resp before log =
      log.updateOpen tid fun claim =>
        { claim with read := id :: claim.read }) ∨
    ∃ ready, op = .deliver ready ∧
      noteSitting platform sitting op tid resp before log =
        log.updateOpen tid fun claim =>
          { claim with ready := some ready } := by
  cases op with
  | commit => exact absurd rfl notCommit
  | selectGraded inviteId email =>
      cases executes
      simp only [noteSitting]
      split
      · next few =>
          obtain ⟨rfl, rfl, few⟩ := few
          exact
            Or.inr (Or.inl ⟨rfl, fun complete =>
              absurd complete (not_le.mpr few)⟩)
      · exact Or.inl rfl
  | selectAttempt inviteId email =>
      cases executes
      simp only [noteSitting]
      split
      · next none =>
          obtain ⟨rfl, rfl, none⟩ := none
          refine Or.inr (Or.inl ⟨rfl, fun complete => ?_⟩)
          have isSome :=
            firstAttempt_isSome rows.wellFormed.attempts
              (attended_of_complete rows complete)
          rw [none] at isSome
          cases isSome
      · exact Or.inl rfl
  | stampAttempt id =>
      simp only [exec, Option.map_eq_some_iff] at executes
      obtain ⟨⟨won, table⟩, tried, equal⟩ := executes
      cases equal
      simp only [noteSitting]
      split
      · next lost =>
          simp only [Bool.and_eq_true, Bool.not_eq_true',
            Option.any_eq_true] at lost
          obtain ⟨rfl, row, found, attempted⟩ := lost
          refine Or.inr (Or.inl ⟨rfl, fun _ => ?_⟩)
          rcases tryUpdate_cases tried with ⟨⟨⟩, -⟩ | ⟨-, -, stamped⟩
          have isStamped := stamped row found
          exact ⟨id, row, found, attempted, by simpa using isStamped⟩
      · exact Or.inl rfl
  | casSubmission id status attempts values =>
      simp only [exec, Option.map_eq_some_iff] at executes
      obtain ⟨⟨won, table⟩, tried, equal⟩ := executes
      cases equal
      cases won with
      | true => exact Or.inl rfl
      | false =>
          rcases tryUpdate_cases tried with ⟨⟨⟩, -⟩ | ⟨-, -, lost⟩
          refine Or.inr (Or.inr (Or.inl
            ⟨id, status, attempts, values, rfl, rfl, ?_⟩))
          rintro row found ⟨isStatus, isAttempts⟩
          have mismatch := lost row found
          simp [isStatus, isAttempts] at mismatch
  | selectGradedResult id =>
      exact Or.inr (Or.inr (Or.inr (Or.inl ⟨id, rfl⟩)))
  | deliver ready =>
      exact Or.inr (Or.inr (Or.inr (Or.inr ⟨ready, rfl, rfl⟩)))
  | _ => exact Or.inl rfl

/-- What the parts of the history that others rely on have in common before and
after a statement other than COMMIT. -/
structure SittingLog.Extends (tid : Nat) (log noted : SittingLog) : Prop where
  claims : noted.claims = log.claims
  owed : ∀ other, other ≠ tid → noted.owed other = log.owed other
  reopened : ∀ other, other ≠ tid → noted.reopened other = log.reopened other
  isSome : noted.last.isSome = log.last.isSome
  last :
    ∀ claim, noted.last = some claim → claim.claimant ≠ tid →
      log.last = some claim

namespace SittingLog.Extends

theorem refl : log.Extends tid log :=
  ⟨rfl, fun _ _ => rfl, fun _ _ => rfl, rfl, fun _ found _ => found⟩

theorem settle : log.Extends tid (log.settle tid) := by
  have owed :
      ∀ other, other ≠ tid → (log.settle tid).owed other = log.owed other :=
    fun other different => Function.update_of_ne different _ _
  exact ⟨rfl, owed, fun _ _ => rfl, rfl, fun _ found _ => found⟩

theorem lost :
    log.Extends tid
      { log with reopened := Function.update log.reopened tid false } := by
  have reopened :
      ∀ other, other ≠ tid →
        Function.update log.reopened tid false other = log.reopened other :=
    fun other different => Function.update_of_ne different _ _
  exact ⟨rfl, fun _ _ => rfl, reopened, rfl, fun _ found _ => found⟩

theorem updateOpen
    {change : SittingClaim → SittingClaim}
    (keeps : ∀ claim, (change claim).claimant = claim.claimant) :
    log.Extends tid (log.updateOpen tid change) := by
  have last :
      ∀ claim, (log.updateOpen tid change).last = some claim →
        claim.claimant ≠ tid → log.last = some claim := by
    intro claim found different
    obtain ⟨old, foundOld, isClaim⟩ := Option.map_eq_some_iff.mp found
    split at isClaim
    · next isOpen =>
        have claimant : claim.claimant = tid := by
          rw [← isClaim, keeps, isOpen.1]
        exact absurd claimant different
    · rw [foundOld, isClaim]
  have isSome :
      (log.updateOpen tid change).last.isSome = log.last.isSome :=
    Option.isSome_map
  exact ⟨rfl, fun _ _ => rfl, fun _ _ => rfl, isSome, last⟩

end SittingLog.Extends

theorem noteSitting_extends
    (sitting : Sitting) (notCommit : op ≠ .commit)
    (rows : SittingRows platform requests before)
    (executes : exec platform op tid answer before = some (resp, after)) :
    log.Extends tid
      (noteSitting platform sitting op tid resp before log) := by
  rcases noteSitting_cases sitting log notCommit rows executes with
    same | ⟨settled, -⟩ | ⟨_, _, _, _, -, lost, -⟩ | ⟨id, read⟩ |
      ⟨ready, -, delivered⟩
  · rw [same]
    exact .refl
  · rw [settled]
    exact .settle
  · rw [lost]
    exact .lost
  · rw [read]
    exact .updateOpen fun _ => rfl
  · rw [delivered]
    exact .updateOpen fun _ => rfl

/-- A statement other than COMMIT leaves an obliged thread obliged, as long as
the history keeps its flags. -/
theorem Obliged.exec
    {other : Nat} {noted : SittingLog}
    (obliged : Obliged requests sitting other before log)
    (notCommit : op ≠ .commit)
    (rows : SittingRows platform requests before)
    (executes :
      AssessmentPlatform.exec platform op tid answer before =
        some (resp, after))
    (owed : log.owed other → noted.owed other)
    (reopened :
      ∀ id row, requests other = .retrySubmission id →
        before.submissions.row id = some row →
          (∀ copy, before.session other id = some copy →
            copy.status = row.status ∧ copy.attempts = row.attempts) →
            log.reopened other → noted.reopened other) :
    Obliged requests sitting other after noted := by
  rcases obliged with isOwed | ⟨isReopened, id, row, request, found,
    submitted, current⟩
  · exact Or.inl (owed isOwed)
  have acts := exec_submissions rows.wellFormed.submissions executes
  have same := acts.row_of_not_commits notCommit
  have foundAfter : after.submissions.row id = some row := same ▸ found
  refine Or.inr
    ⟨reopened id row request found current isReopened, id, row, request,
      foundAfter, submitted, ?_⟩
  intro copy copied
  by_cases isTid : other = tid
  · subst isTid
    rcases exec_copy executes copied with earlier | committed
    · exact current copy earlier
    · rw [found] at committed
      cases committed
      exact ⟨rfl, rfl⟩
  · rw [exec_session executes isTid] at copied
    exact current copy copied

/-- A delivered claim stays one as long as rows do not change. -/
theorem Delivered.of_row_eq
    {claim : SittingClaim} {ready : ResultsReady}
    (delivered : Delivered platform sitting strict before claim ready)
    (submissions : after.submissions.row = before.submissions.row)
    (results : after.results.row = before.results.row)
    (attempts : after.attempts.row = before.attempts.row) :
    Delivered platform sitting strict after claim ready := by
  have submitted :
      ∀ id ∈ ready.reported, after.Submitted sitting id := by
    intro id member
    obtain ⟨row, found, isSubmitted⟩ := delivered.covers.submitted id member
    exact ⟨row, submissions ▸ found, isSubmitted⟩
  have reports :
      strict → after.Notified sitting → after.Reports ready.questions := by
    intro isStrict notified question member
    rw [results]
    have notifiedBefore := (notified_of_row_eq sitting attempts).mp notified
    exact delivered.reports isStrict notifiedBefore question member
  exact
    ⟨⟨delivered.covers.nodup, delivered.covers.enough, submitted⟩,
      delivered.read, reports⟩

/-- The last claim after a statement other than COMMIT, if it is delivered, was
delivered before or is delivered by the statement. -/
theorem SittingInv.delivered_noted
    (inv : SittingInv platform requests sitting strict before log)
    (proceeds :
      Proceeds platform requests sitting strict tid op before log)
    (notCommit : op ≠ .commit)
    (executes : exec platform op tid answer before = some (resp, after))
    {claim : SittingClaim} {ready : ResultsReady}
    (found :
      (noteSitting platform sitting op tid resp before log).last =
        some claim)
    (isReady : claim.ready = some ready) :
    Delivered platform sitting strict before claim ready := by
  rcases noteSitting_cases sitting log notCommit inv.rows executes with
    same | ⟨settled, -⟩ | ⟨_, _, _, _, -, lost, -⟩ | ⟨id, read⟩ |
      ⟨handed, isDeliver, delivered⟩
  · rw [same] at found
    exact inv.delivered claim ready found isReady
  · rw [settled] at found
    exact inv.delivered claim ready found isReady
  · rw [lost] at found
    exact inv.delivered claim ready found isReady
  · rw [read] at found
    obtain ⟨old, foundOld, isClaim⟩ := Option.map_eq_some_iff.mp found
    split at isClaim
    · next isOpen =>
        rw [← isClaim, isOpen.2] at isReady
        cases isReady
    · exact inv.delivered claim ready (isClaim ▸ foundOld) isReady
  · rw [delivered] at found
    obtain ⟨old, foundOld, isClaim⟩ := Option.map_eq_some_iff.mp found
    split at isClaim
    · next isOpen =>
        have handedOver :=
          proceeds.delivers handed old isDeliver foundOld isOpen.1 isOpen.2
        subst isClaim
        cases isReady
        exact ⟨handedOver.covers, handedOver.read, handedOver.reports⟩
    · exact inv.delivered claim ready (isClaim ▸ foundOld) isReady

/-- Someone stays obliged. -/
theorem SittingInv.obliged_noted
    (inv : SittingInv platform requests sitting strict before log)
    (proceeds :
      Proceeds platform requests sitting strict tid op before log)
    (notCommit : op ≠ .commit)
    (executes : exec platform op tid answer before = some (resp, after))
    (complete : before.Complete platform sitting)
    (unnotified : ¬before.Notified sitting) :
    ∃ other, Obliged requests sitting other after
      (noteSitting platform sitting op tid resp before log) := by
  obtain ⟨other, obliged⟩ := inv.obliged complete unnotified
  refine ⟨other, obliged.exec notCommit inv.rows executes ?_ ?_⟩
  · intro isOwed
    rcases noteSitting_cases sitting log notCommit inv.rows executes with
      same | ⟨-, notified⟩ | ⟨_, _, _, _, -, lost, -⟩ | ⟨id, read⟩ |
        ⟨ready, -, delivered⟩
    · rw [same]
      exact isOwed
    · exact absurd (notified complete) unnotified
    · rw [lost]
      exact isOwed
    · rw [read]
      exact isOwed
    · rw [delivered]
      exact isOwed
  · intro id row request found current isReopened
    rcases noteSitting_cases sitting log notCommit inv.rows executes with
      same | ⟨-, notified⟩ | ⟨casId, status, attempts, values, isCas, lost,
        mismatch⟩ | ⟨readId, read⟩ | ⟨ready, -, delivered⟩
    · rw [same]
      exact isReopened
    · exact absurd (notified complete) unnotified
    · by_cases isTid : other = tid
      · subst isTid
        -- the thread's copy matches the row, so its UPDATE is not lost
        obtain ⟨casRequest, copy, copied, isStatus, isAttempts⟩ :=
          proceeds.expects casId status attempts values isCas isReopened
        rw [request] at casRequest
        cases casRequest
        obtain ⟨sameStatus, sameAttempts⟩ := current copy copied
        have isMatch : row.status = status ∧ row.attempts = attempts :=
          ⟨sameStatus ▸ isStatus, sameAttempts ▸ isAttempts⟩
        exact absurd isMatch (mismatch row found)
      · rw [lost]
        simpa [Function.update_of_ne isTid] using isReopened
    · rw [read]
      exact isReopened
    · rw [delivered]
      exact isReopened

/-- A statement other than COMMIT keeps the guarantee. -/
theorem SittingInv.guar_of_not_commit
    (inv : SittingInv platform requests sitting strict before log)
    (proceeds :
      Proceeds platform requests sitting strict tid op before log)
    (notCommit : op ≠ .commit)
    (executes : exec platform op tid answer before = some (resp, after)) :
    SittingGuar platform requests sitting strict tid (before, log)
      (after,
        recordSitting platform sitting op tid resp before after log) := by
  have wellFormed := inv.rows.wellFormed
  have moves := wellFormed.moves executes
  have submissions :=
    (exec_submissions wellFormed.submissions executes).row_of_not_commits
      notCommit
  have results :=
    (exec_results wellFormed.results executes).row_of_not_commits notCommit
  have attempts :=
    (exec_attempts wellFormed.attempts executes).row_of_not_commits notCommit
  have rows := inv.rows.exec proceeds.keeps proceeds.started executes
  have notified := notified_of_row_eq sitting attempts
  have completeBefore :
      after.Complete platform sitting → before.Complete platform sitting :=
    complete_of_row_eq rows.wellFormed.submissions wellFormed.submissions
      submissions.symm
  have extended : log.Extends tid _ :=
    noteSitting_extends sitting notCommit inv.rows executes
  refine ⟨⟨rows, ?_, ?_, ?_, ?_, ?_, ?_⟩, moves, extended.owed,
    extended.reopened, ?_, ?_⟩
  · exact reached_of_complete
  · intro counted
    exact reached_of_reached (inv.counted (extended.claims ▸ counted))
  · intro isNotified
    obtain ⟨claims, isSome⟩ := inv.notified (notified.mp isNotified)
    exact ⟨extended.claims ▸ claims, extended.isSome ▸ isSome⟩
  · intro noRetry
    obtain ⟨atMost, none⟩ := inv.once noRetry
    refine ⟨extended.claims ▸ atMost, fun unnotified => ?_⟩
    exact extended.claims ▸ none (notified.not.mp unnotified)
  · intro complete unnotified
    exact
      inv.obliged_noted proceeds notCommit executes (completeBefore complete)
        (notified.not.mp unnotified)
  · intro claim ready found isReady
    have delivered :=
      inv.delivered_noted proceeds notCommit executes found isReady
    exact delivered.of_row_eq submissions results attempts
  · exact reached_of_reached
  · intro claim found different
    refine ⟨extended.last claim found different, fun isNotified => ?_⟩
    exact ⟨notified.mp isNotified, fun _ id _ => by rw [results]⟩

end NotCommit

/-! ## COMMIT -/

section Commit

variable {log : SittingLog}

/-- A submission that is terminal after the COMMIT and was not before has been
closed by it. -/
theorem closes_of_graded
    (rows : SittingRows platform requests before)
    {id : String} {row : Submission}
    (found : (before.commit tid).submissions.row id = some row)
    (submitted : sitting.submitted row) (terminal : row.status.terminal)
    (ungraded :
      ∀ earlier, before.submissions.row id = some earlier →
        sitting.submitted earlier → ¬earlier.status.terminal) :
    before.submissions.commits tid sitting.closes := by
  have moves := (before.moves_commit tid).submissions
  rcases rows.submissionWrites.change moves id with
    same | ⟨value, staged, committed, write⟩
  · rw [same] at found
    exact absurd terminal (ungraded row found submitted)
  · rw [committed] at found
    cases found
    cases foundEarlier : before.submissions.row id with
    | none =>
        have pending := write.inserted foundEarlier
        rw [pending] at terminal
        cases terminal
    | some earlier =>
        have kept := write.kept foundEarlier
        have submittedEarlier : sitting.submitted earlier := by
          rw [Sitting.submitted_iff] at submitted ⊢
          rwa [kept.inviteId, kept.candidateEmail] at submitted
        have isOpen := ungraded earlier foundEarlier submittedEarlier
        have different : row.status ≠ earlier.status := by
          intro same
          exact isOpen (same ▸ terminal)
        have closes : sitting.closes earlier row := by
          simp [Sitting.closes, Sitting.submitted_iff.mp submittedEarlier,
            terminal, different]
        exact
          (commits_iff rows.wellFormed.submissions).mpr
            ⟨id, earlier, row, foundEarlier, staged, closes⟩

/-- A COMMIT that closes no submission does not complete the sitting. -/
theorem complete_of_not_closes
    (rows : SittingRows platform requests before)
    (rowsAfter : SittingRows platform requests (before.commit tid))
    (closesNone : ¬before.submissions.commits tid sitting.closes)
    (complete : (before.commit tid).Complete platform sitting) :
    before.Complete platform sitting := by
  refine le_trans complete
    (length_select_mono rowsAfter.wellFormed.submissions
      rows.wellFormed.submissions ?_)
  intro id row found graded
  obtain ⟨submitted, terminal⟩ := isGraded_iff.mp graded
  by_contra ungraded
  apply closesNone
  refine closes_of_graded rows found submitted terminal ?_
  intro earlier foundEarlier submittedEarlier terminalEarlier
  exact
    ungraded
      ⟨earlier, foundEarlier,
        isGraded_iff.mpr ⟨submittedEarlier, terminalEarlier⟩⟩

/-- The stamp of the attempt of a sitting after a COMMIT. -/
theorem attempt_of_commit
    (tid : Nat) (rows : SittingRows platform requests before)
    {id : Nat} {row : CandidateAttempt}
    (found : before.attempts.row id = some row)
    (attempted : sitting.attempted row) :
    ∃ later, (before.commit tid).attempts.row id = some later ∧
      sitting.attempted later ∧
        (later.resultsNotifiedAt = row.resultsNotifiedAt ∨
          before.attempts.staged id = some (tid, later)) := by
  have moves := (before.moves_commit tid).attempts
  rcases rows.attemptWrites.change moves id with
    same | ⟨value, staged, committed, write⟩
  · exact ⟨row, same.trans found, attempted, Or.inl rfl⟩
  · have kept := write.kept found
    have attemptedLater : sitting.attempted value := by
      rw [Sitting.attempted_iff] at attempted ⊢
      rwa [kept.inviteId, kept.candidateEmail]
    exact ⟨value, committed, attemptedLater, Or.inr staged⟩

/-- A COMMIT that takes the stamp away clears it. -/
theorem clears_of_unnotified
    (rows : SittingRows platform requests before)
    (notified : before.Notified sitting)
    (unnotified : ¬(before.commit tid).Notified sitting) :
    before.attempts.commits tid sitting.clears := by
  obtain ⟨id, row, found, attempted, stamped⟩ := notified
  obtain ⟨later, foundLater, attemptedLater, same | staged⟩ :=
    attempt_of_commit tid rows found attempted
  · exact
      absurd ⟨id, later, foundLater, attemptedLater, same ▸ stamped⟩
        unnotified
  · have cleared : later.resultsNotifiedAt = none := by
      by_contra stampedLater
      exact
        unnotified
          ⟨id, later, foundLater, attemptedLater,
            Option.isSome_iff_ne_none.mpr stampedLater⟩
    have clears : sitting.clears row later := by
      simp [Sitting.clears, Sitting.attempted_iff.mp attempted, stamped,
        cleared]
    exact
      (commits_iff rows.wellFormed.attempts).mpr
        ⟨id, row, later, found, staged, clears⟩

/-- A COMMIT that puts the stamp there stamps the attempt. -/
theorem stamps_of_notified
    (rows : SittingRows platform requests before)
    (unnotified : ¬before.Notified sitting)
    (notified : (before.commit tid).Notified sitting) :
    before.attempts.commits tid sitting.stamps := by
  obtain ⟨id, later, foundLater, attemptedLater, stamped⟩ := notified
  have moves := (before.moves_commit tid).attempts
  rcases rows.attemptWrites.change moves id with
    same | ⟨value, staged, committed, write⟩
  · rw [same] at foundLater
    exact absurd ⟨id, later, foundLater, attemptedLater, stamped⟩ unnotified
  · rw [committed] at foundLater
    cases foundLater
    cases found : before.attempts.row id with
    | none =>
        have unstamped := write.inserted found
        rw [unstamped] at stamped
        cases stamped
    | some row =>
        have kept := write.kept found
        have attempted : sitting.attempted row := by
          rw [Sitting.attempted_iff] at attemptedLater ⊢
          rwa [kept.inviteId, kept.candidateEmail] at attemptedLater
        have unstamped : row.resultsNotifiedAt = none := by
          by_contra stampedBefore
          exact
            unnotified
              ⟨id, row, found, attempted,
                Option.isSome_iff_ne_none.mpr stampedBefore⟩
        have stamps : sitting.stamps row later := by
          simp [Sitting.stamps, Sitting.attempted_iff.mp attempted, stamped,
            unstamped]
        exact
          (commits_iff rows.wellFormed.attempts).mpr
            ⟨id, row, later, found, staged, stamps⟩

/-- A COMMIT that stamps the attempt finds the sitting without the stamp and
leaves it with the stamp. -/
theorem notified_of_stamps
    (rows : SittingRows platform requests before)
    (stamps : before.attempts.commits tid sitting.stamps) :
    ¬before.Notified sitting ∧ (before.commit tid).Notified sitting := by
  obtain ⟨id, row, value, found, staged, isStamp⟩ :=
    (commits_iff rows.wellFormed.attempts).mp stamps
  simp only [Sitting.stamps, Bool.and_eq_true, Option.isNone_iff_eq_none]
    at isStamp
  obtain ⟨⟨attempted, unstamped⟩, stamped⟩ := isStamp
  constructor
  · intro notified
    obtain ⟨other, otherRow, foundOther, attemptedOther, stampedOther⟩ :=
      notified
    have same :=
      rows.attempt_unique found foundOther attempted attemptedOther
    subst same
    rw [found] at foundOther
    cases foundOther
    rw [unstamped] at stampedOther
    cases stampedOther
  · have kept := (rows.attemptWrites id tid value staged).kept found
    have attemptedLater : sitting.attempted value := by
      rw [Sitting.attempted_iff] at attempted ⊢
      rwa [kept.inviteId, kept.candidateEmail]
    exact
      ⟨id, value, row_commit_of_staged staged, attemptedLater, stamped⟩

/-- A retry that is still to claim its submission stays obliged through the
COMMIT of another thread, unless that one closes a submission. -/
theorem Obliged.commit_other
    {other : Nat}
    (rows : SittingRows platform requests before)
    (rowsAfter : SittingRows platform requests (before.commit tid))
    (known : platform.invite sitting.invite.id = some sitting.invite)
    (complete : (before.commit tid).Complete platform sitting)
    (closesNone : ¬before.submissions.commits tid sitting.closes)
    (different : other ≠ tid)
    (obliged : Obliged requests sitting other before log) :
    Obliged requests sitting other (before.commit tid)
      (log.commit sitting tid before) := by
  rcases obliged with isOwed | ⟨isReopened, id, row, request, found,
    submitted, current⟩
  · refine Or.inl ?_
    simpa [SittingLog.commit, Function.update_of_ne different] using isOwed
  have reopened :
      (log.commit sitting tid before).reopened other = true := by
    simpa [SittingLog.commit, Function.update_of_ne different]
      using isReopened
  have session :
      (before.commit tid).session other = before.session other :=
    (before.moves_commit tid).session different
  have moves := (before.moves_commit tid).submissions
  rcases rows.submissionWrites.change moves id with
    same | ⟨value, staged, committed, write⟩
  · exact
      Or.inr
        ⟨reopened, id, row, request, same.trans found, submitted,
          session ▸ current⟩
  -- the row changed under the copy: its status cannot have changed
  have kept := write.kept found
  have submittedLater : sitting.submitted value := by
    rw [Sitting.submitted_iff] at submitted ⊢
    rwa [kept.inviteId, kept.candidateEmail]
  have terminal : value.status.terminal :=
    rowsAfter.terminal_of_complete known complete committed submittedLater
  have sameStatus : value.status = row.status := by
    by_contra changed
    apply closesNone
    have closes : sitting.closes row value := by
      simp [Sitting.closes, Sitting.submitted_iff.mp submitted, terminal,
        changed]
    exact
      (commits_iff rows.wellFormed.submissions).mpr
        ⟨id, row, value, found, staged, closes⟩
  have sameAttempts : value.attempts = row.attempts := by
    by_contra counted
    rw [kept.attempts counted] at terminal
    cases terminal
  refine
    Or.inr
      ⟨reopened, id, value, request, committed, submittedLater, ?_⟩
  rw [session, sameStatus, sameAttempts]
  exact current

/-- After a COMMIT too, somebody is obliged to a complete sitting without a
stamp. -/
theorem SittingInv.obliged_commit
    (inv : SittingInv platform requests sitting strict before log)
    (proceeds :
      Proceeds platform requests sitting strict tid .commit before log)
    (rowsAfter : SittingRows platform requests (before.commit tid))
    (known : platform.invite sitting.invite.id = some sitting.invite)
    (complete : (before.commit tid).Complete platform sitting)
    (unnotified : ¬(before.commit tid).Notified sitting) :
    ∃ other, Obliged requests sitting other (before.commit tid)
      (log.commit sitting tid before) := by
  by_cases closes : before.submissions.commits tid sitting.closes
  · have owed : (log.commit sitting tid before).owed tid = true := by
      simp [SittingLog.commit, closes]
    exact ⟨tid, Or.inl owed⟩
  have completeBefore :=
    complete_of_not_closes inv.rows rowsAfter closes complete
  by_cases notified : before.Notified sitting
  · -- the stamp is cleared: the thread has reopened the sitting
    have clears := clears_of_unnotified inv.rows notified unnotified
    obtain ⟨id, request, submitted⟩ := proceeds.clears rfl clears
    obtain ⟨row, found, isSubmitted⟩ :=
      submitted.moves inv.rows (before.moves_commit tid)
    have reopened : (log.commit sitting tid before).reopened tid = true := by
      simp [SittingLog.commit, clears]
    refine
      ⟨tid, Or.inr ⟨reopened, id, row, request, found, isSubmitted, ?_⟩⟩
    intro copy copied
    simp [Store.commit, Store.expire] at copied
  obtain ⟨other, obliged⟩ := inv.obliged completeBefore notified
  by_cases different : other = tid
  · subst different
    rcases obliged with isOwed | ⟨isReopened, -⟩
    · have stampsNone : ¬before.attempts.commits other sitting.stamps :=
        fun stamps =>
          unnotified (notified_of_stamps inv.rows stamps).2
      have owed : (log.commit sitting other before).owed other = true := by
        simp [SittingLog.commit, isOwed, stampsNone]
      exact ⟨other, Or.inl owed⟩
    · -- its claim is committed: the submission is open again
      obtain ⟨id, value, staged, submitted, isOpen⟩ :=
        proceeds.retries rfl isReopened
      obtain ⟨row, found, isSubmitted⟩ :=
        submitted.moves inv.rows (before.moves_commit other)
      have committed :
          (before.commit other).submissions.row id = some value :=
        row_commit_of_staged staged
      rw [committed] at found
      cases found
      have terminal :=
        rowsAfter.terminal_of_complete known complete committed isSubmitted
      rw [isOpen] at terminal
      cases terminal
  · exact
      ⟨other,
        obliged.commit_other inv.rows rowsAfter known complete closes
          different⟩

/-- A claim that is delivered before a COMMIT of no new claim stays one. -/
theorem Delivered.commit
    {claim : SittingClaim} {ready : ResultsReady}
    (delivered : Delivered platform sitting strict before claim ready)
    (rows : SittingRows platform requests before)
    (notifiedBefore :
      (before.commit tid).Notified sitting → before.Notified sitting)
    (kept :
      strict → before.Notified sitting → ∀ id ∈ claim.read,
        reportOf ((before.commit tid).results.row id) =
          reportOf (before.results.row id)) :
    Delivered platform sitting strict (before.commit tid) claim ready := by
  have covers := delivered.covers.moves rows (before.moves_commit tid)
  refine ⟨covers, delivered.read, ?_⟩
  intro isStrict notified question member
  have earlier := notifiedBefore notified
  have isReported : question.submissionId ∈ ready.reported :=
    List.mem_map_of_mem member
  rw [kept isStrict earlier _ (delivered.read _ isReported)]
  exact delivered.reports isStrict earlier question member

/-- While the last claim stands, a COMMIT in a strict run keeps what it has
read. -/
theorem report_commit
    {claim : SittingClaim} {id : String}
    (allowed : keepsReports sitting tid .commit (before, log))
    (notified : before.Notified sitting)
    (found : log.last = some claim) (read : id ∈ claim.read) :
    reportOf ((before.commit tid).results.row id) =
      reportOf (before.results.row id) := by
  by_cases staged :
      ∃ value, before.results.staged id = some (tid, value)
  · obtain ⟨value, staged⟩ := staged
    have committed :
        (before.commit tid).results.row id = some value :=
      row_commit_of_staged staged
    rw [committed]
    exact allowed notified claim id value found read staged
  · have same :
        (before.commit tid).results.row id = before.results.row id :=
      row_commit_of_not_staged (by simpa using staged)
    rw [same]

/-- COMMIT keeps the guarantee. -/
theorem SittingInv.guar_of_commit
    (inv : SittingInv platform requests sitting strict before log)
    (proceeds :
      Proceeds platform requests sitting strict tid .commit before log)
    (known : platform.invite sitting.invite.id = some sitting.invite)
    (allowed : strict → keepsReports sitting tid .commit (before, log)) :
    SittingGuar platform requests sitting strict tid (before, log)
      (before.commit tid,
        recordSitting platform sitting .commit tid () before
          (before.commit tid) log) := by
  have moves := before.moves_commit tid
  have executes :
      exec platform .commit tid .failed before =
        some ((), before.commit tid) := rfl
  have rows := inv.rows.exec proceeds.keeps proceeds.started executes
  have owed :
      ∀ other, other ≠ tid →
        (log.commit sitting tid before).owed other = log.owed other :=
    fun other different => Function.update_of_ne different _ _
  have reopened :
      ∀ other, other ≠ tid →
        (log.commit sitting tid before).reopened other =
          log.reopened other :=
    fun other different => Function.update_of_ne different _ _
  by_cases stamps : before.attempts.commits tid sitting.stamps
  · -- a claim succeeds
    obtain ⟨unnotified, notified⟩ := notified_of_stamps inv.rows stamps
    have reached := proceeds.claims rfl stamps
    have claims :
        (log.commit sitting tid before).claims = log.claims + 1 := by
      simp [SittingLog.commit, stamps]
    have last :
        (log.commit sitting tid before).last = some ⟨tid, [], none⟩ := by
      simp [SittingLog.commit, stamps]
    refine ⟨⟨rows, reached_of_complete, ?_, ?_, ?_, ?_, ?_⟩, moves, owed,
      reopened, reached_of_reached, ?_⟩
    · intro _
      exact reached_of_reached reached
    · intro _
      exact ⟨claims ▸ Nat.succ_pos _, last ▸ rfl⟩
    · intro noRetry
      have nothing := (inv.once noRetry).2 unnotified
      have one : (log.commit sitting tid before).claims = 1 := by
        rw [claims, nothing]
      exact ⟨one.le, fun absent => absurd notified absent⟩
    · intro _ absent
      exact absurd notified absent
    · intro claim ready found isReady
      have isLast : some ⟨tid, [], none⟩ = some claim :=
        last.symm.trans found
      cases isLast
      cases isReady
    · intro claim found different
      have isLast : some ⟨tid, [], none⟩ = some claim :=
        last.symm.trans found
      cases isLast
      exact absurd rfl different
  · have claims : (log.commit sitting tid before).claims = log.claims := by
      simp [SittingLog.commit, stamps]
    have last : (log.commit sitting tid before).last = log.last := by
      simp [SittingLog.commit, stamps]
    have notifiedBefore :
        (before.commit tid).Notified sitting → before.Notified sitting := by
      intro notified
      by_contra unnotified
      exact stamps (stamps_of_notified inv.rows unnotified notified)
    refine ⟨⟨rows, reached_of_complete, ?_, ?_, ?_, ?_, ?_⟩, moves, owed,
      reopened, reached_of_reached, ?_⟩
    · intro counted
      exact reached_of_reached (inv.counted (claims ▸ counted))
    · intro notified
      obtain ⟨positive, isSome⟩ := inv.notified (notifiedBefore notified)
      exact ⟨claims ▸ positive, last ▸ isSome⟩
    · intro noRetry
      obtain ⟨atMost, none⟩ := inv.once noRetry
      refine ⟨claims ▸ atMost, fun unnotified => claims ▸ none ?_⟩
      intro notified
      have clears := clears_of_unnotified inv.rows notified unnotified
      obtain ⟨id, request, -⟩ := proceeds.clears rfl clears
      have isRetry := noRetry tid
      rw [request] at isRetry
      cases isRetry
    · exact inv.obliged_commit proceeds rows known
    · intro claim ready found isReady
      have foundBefore : log.last = some claim := last ▸ found
      exact
        (inv.delivered claim ready foundBefore isReady).commit inv.rows
          notifiedBefore fun isStrict notified id read =>
            report_commit (allowed isStrict) notified foundBefore read
    · intro claim found _
      have foundBefore : log.last = some claim := last ▸ found
      refine ⟨foundBefore, fun notified => ?_⟩
      have earlier := notifiedBefore notified
      exact
        ⟨earlier, fun isStrict id read =>
          report_commit (allowed isStrict) earlier foundBefore read⟩

/-- Every statement that proceeds keeps the guarantee. -/
theorem SittingInv.guar
    (inv : SittingInv platform requests sitting strict before log)
    (proceeds :
      Proceeds platform requests sitting strict tid op before log)
    (known : platform.invite sitting.invite.id = some sitting.invite)
    (allowed : strict → keepsReports sitting tid op (before, log))
    (executes : exec platform op tid answer before = some (resp, after)) :
    SittingGuar platform requests sitting strict tid (before, log)
      (after,
        recordSitting platform sitting op tid resp before after log) := by
  by_cases committing : op = .commit
  · subst committing
    cases executes
    exact inv.guar_of_commit proceeds known allowed
  · exact inv.guar_of_not_commit proceeds committing executes

end Commit

end AssessmentPlatform
