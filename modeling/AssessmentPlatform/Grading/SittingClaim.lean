import AssessmentPlatform.Grading.SittingPhase

/-!
# The claim of a sitting's notification

A thread that has closed a submission owes its sitting the completion step.
`claim_sitting` ends it: the thread counts too few terminal submissions, it
finds the stamp taken, or it stamps the attempt and reads what it reports.
-/

namespace AssessmentPlatform

open Interleaving RowTable

variable {platform : Platform} {requests : Nat → Request} {tid : Nat}
variable {answer : AgentAnswer} {op : Op} {before after store : Store}
variable {resp : Resp op} {sitting : Sitting} {strict : Prop}
variable {log : SittingLog}

/-! ## Conditional UPDATEs -/

theorem updatePhase_stable {id : String} {status : Status} :
    (sittingContract platform requests sitting strict).Stable tid
      (AtPhase tid (updatePhase sitting tid id status)) :=
  atPhase_stable ⟨stable_false, stagedUpdate_stable, claiming_false⟩

theorem closePhase_stable {id : String} {closed : Prop} :
    (sittingContract platform requests sitting strict).Stable tid
      (AtPhase tid (closePhase sitting id closed)) :=
  owes_stable (lasting_close closed)

theorem AtPhase.settled_of_open
    {id : String} {closed : Prop} {recorded : Store × SittingLog}
    (atPhase : AtPhase tid (closePhase sitting id closed) recorded)
    (notClosed : ¬closed) :
    Settled tid recorded :=
  atPhase.mono (fun _ _ _ impossible => impossible)
    (fun _ _ _ impossible => impossible) (fun owed => notClosed owed.1)
    (fun impossible => impossible) fun _ impossible => impossible

theorem AtPhase.close
    {id : String} {closed : Prop} {recorded : Store × SittingLog}
    (settled : Settled tid recorded) :
    AtPhase tid (closePhase sitting id closed) recorded :=
  settled.mono (fun _ _ _ impossible => impossible)
    (fun _ _ _ impossible => impossible) (fun impossible => impossible.elim)
    (fun impossible => impossible) fun _ impossible => impossible

variable (known : platform.invite sitting.invite.id = some sitting.invite)

include known

/-- A conditional UPDATE that is committed owes the completion step exactly if
it has won a terminal status. -/
theorem cas_triple
    {id : String} {status : Status} {attempts : Nat}
    {values : SubmissionChange}
    (counted : values.attempts.isSome → values.status.terminal = false) :
    SittingTriple platform requests sitting strict tid
      (AtPhase tid
        { reopens := fun recorded =>
            Retrying requests sitting tid id status attempts recorded ∧
              values.status.terminal = false })
      (cas id status attempts values)
      (fun won =>
        AtPhase tid
          (closePhase sitting id (won = true ∧ values.status.terminal))) := by
  have stable :
      (sittingContract platform requests sitting strict).Stable tid
        (AtPhase tid
          { reopens := fun recorded =>
              Retrying requests sitting tid id status attempts recorded ∧
                values.status.terminal = false }) :=
    atPhase_stable
      ⟨stable_false,
        retrying_stable.and (Contract.stable_const _), claiming_false⟩
  unfold cas
  refine issue_recorded _ stable (fun _ _ _ => trivial)
    (casSubmission_establishes known counted) ?_
  intro won
  cases won with
  | true =>
      have closes :
          ∀ recorded,
            AtPhase tid (closePhase sitting id values.status.terminal)
                recorded →
              AtPhase tid
                (closePhase sitting id (true = true ∧ values.status.terminal))
                recorded :=
        fun _ atPhase => by simpa using atPhase
      refine issue_recorded _ updatePhase_stable
        (fun _ _ _ => trivial)
        (commit_update_establishes known) fun _ => ?_
      refine issue_recorded _ closePhase_stable
        (fun _ _ _ => trivial)
        (quiet_establishes_phase known trivial (lasting_close _)) fun _ => ?_
      exact Triple.ret closePhase_stable fun _ _ holds => closes _ holds
  | false =>
      refine (settled_of_quiet known ?_).weaken fun _ _ _ settled =>
        settled.close
      exact Program.All.statement trivial fun _ =>
        Program.All.statement trivial fun _ => Program.All.pure _ _

omit known

/-! ## The payload of a claim -/

/-- What an open claim has read so far. -/
structure Reading
    (platform : Platform) (sitting : Sitting) (strict : Prop)
    (graded : List String) (done : List GradedQuestion)
    (claim : SittingClaim) (store : Store) : Prop where
  covers : store.Covers platform sitting graded
  read : ∀ question ∈ done, question.submissionId ∈ claim.read
  reports : strict → store.Notified sitting → store.Reports done

theorem Reading.remember
    {graded : List String} {done : List GradedQuestion}
    {claim : SittingClaim} {id : String} {row : Submission}
    (reading : Reading platform sitting strict graded done claim store) :
    Reading platform sitting strict graded done claim
      (store.remember tid id row) :=
  ⟨⟨reading.covers.nodup, reading.covers.enough, reading.covers.submitted⟩,
    reading.read, reading.reports⟩

/-- The thread reads the results of its claim. -/
def readPhase
    (platform : Platform) (sitting : Sitting) (strict : Prop)
    (graded : List String) (done : List GradedQuestion) : Phase where
  claiming := fun claim recorded =>
    Reading platform sitting strict graded done claim recorded.1

theorem readPhase_stable
    {graded : List String} {done : List GradedQuestion} :
    (sittingContract platform requests sitting strict).Stable tid
      (AtPhase tid (readPhase platform sitting strict graded done)) := by
  refine atPhase_stable ⟨stable_false, stable_false, ?_⟩
  intro claim before after other different inv guaranteed reading found isTid
  have isOther : claim.claimant ≠ other := by
    rw [isTid]
    exact Ne.symm different
  obtain ⟨foundBefore, kept⟩ := guaranteed.last claim found isOther
  have earlier := reading foundBefore isTid
  refine
    ⟨earlier.covers.moves inv.rows guaranteed.moves, earlier.read, ?_⟩
  intro isStrict notified question member
  obtain ⟨notifiedBefore, same⟩ := kept notified
  rw [same isStrict _ (earlier.read question member)]
  exact earlier.reports isStrict notifiedBefore question member

theorem Proceeds.of_keepsRows
    (keeps : op.keepsRows) (notCommit : op ≠ .commit)
    (delivers :
      ∀ ready claim, op = .deliver ready → log.last = some claim →
        claim.claimant = tid → claim.ready = none →
          Delivered platform sitting strict store claim ready) :
    Proceeds platform requests sitting strict tid op store log where
  keeps := keeps.keepsSittings
  started := by
    intro row inviteId email isInsert
    subst isInsert
    exact keeps.elim
  claims := fun isCommit => absurd isCommit notCommit
  clears := fun isCommit => absurd isCommit notCommit
  retries := fun isCommit => absurd isCommit notCommit
  expects := by
    intro id status attempts values isCas
    subst isCas
    exact keeps.elim
  delivers := delivers

include known

/-- Loading a submission does not disturb a claim. -/
theorem load_reading_establishes
    {id : String} {graded : List String} {done : List GradedQuestion} :
    SittingEstablishes platform requests sitting strict tid
      (AtPhase tid (readPhase platform sitting strict graded done))
      (.load id)
      (fun _ => AtPhase tid
        (readPhase platform sitting strict graded done)) := by
  intro before log answer found after inv atPhase allowed executes
  have proceeds :
      Proceeds platform requests sitting strict tid (.load id) before log :=
    .of_keepsRows trivial
      (fun isCommit => nomatch isCommit)
      fun _ _ isDeliver => nomatch isDeliver
  refine ⟨inv.guar proceeds known allowed executes, ?_⟩
  rcases exec_load executes with
    ⟨_, -, -, rfl⟩ | ⟨row, -, -, -, rfl⟩ | ⟨-, -, -, rfl⟩
  · exact
      ⟨atPhase.stages, atPhase.stamps, atPhase.owes, atPhase.reopens,
        atPhase.claiming⟩
  · have claiming :
        ∀ claim, log.last = some claim → claim.claimant = tid →
          claim.ready = none →
            Reading platform sitting strict graded done claim
              (before.remember tid id row) :=
      fun claim found isTid isOpen =>
        Reading.remember (atPhase.claiming claim found isTid isOpen)
    exact
      ⟨atPhase.stages, atPhase.stamps, atPhase.owes, atPhase.reopens,
        claiming⟩
  · exact
      ⟨atPhase.stages, atPhase.stamps, atPhase.owes, atPhase.reopens,
        atPhase.claiming⟩

/-- The claim reads one more result. -/
theorem selectGradedResult_establishes
    {id : String} {graded : List String} {done : List GradedQuestion} :
    SittingEstablishes platform requests sitting strict tid
      (AtPhase tid (readPhase platform sitting strict graded done))
      (.selectGradedResult id)
      (fun result recorded =>
        ∀ question : GradedQuestion, question.submissionId = id →
          (question.verdict, question.scorePct) = reportOf result →
            AtPhase tid
              (readPhase platform sitting strict graded (done ++ [question]))
              recorded) := by
  intro before log answer result after inv atPhase allowed executes
  have proceeds :
      Proceeds platform requests sitting strict tid
        (.selectGradedResult id) before log :=
    .of_keepsRows trivial
      (fun isCommit => nomatch isCommit)
      fun _ _ isDeliver => nomatch isDeliver
  refine ⟨inv.guar proceeds known allowed executes, ?_⟩
  cases executes
  intro question isId isReport
  refine ⟨atPhase.stages, atPhase.stamps, atPhase.owes, atPhase.reopens, ?_⟩
  intro claim found isTid isOpen
  obtain ⟨old, foundOld, isClaim⟩ := Option.map_eq_some_iff.mp found
  split at isClaim
  · next wasOpen =>
      subst isClaim
      have reading : Reading platform sitting strict graded done old before :=
        atPhase.claiming old foundOld wasOpen.1 wasOpen.2
      refine ⟨reading.covers, ?_, ?_⟩
      · intro other member
        rcases List.mem_append.mp member with earlier | isLast
        · exact List.mem_cons_of_mem _ (reading.read other earlier)
        · rw [List.mem_singleton.mp isLast, isId]
          exact List.mem_cons_self
      · intro isStrict notified other member
        rcases List.mem_append.mp member with earlier | isLast
        · exact reading.reports isStrict notified other earlier
        · rw [List.mem_singleton.mp isLast, isId]
          exact isReport
  · next closed =>
      subst isClaim
      exact absurd ⟨isTid, isOpen⟩ closed

theorem gradedQuestion_triple
    {id : String} {graded : List String} {done : List GradedQuestion} :
    SittingTriple platform requests sitting strict tid
      (AtPhase tid (readPhase platform sitting strict graded done))
      (gradedQuestion platform id)
      (fun question recorded =>
        AtPhase tid
            (readPhase platform sitting strict graded (done ++ [question]))
            recorded ∧
          question.submissionId = id) := by
  unfold gradedQuestion
  refine issue_recorded _ readPhase_stable (fun _ _ _ => trivial)
    (load_reading_establishes known) ?_
  intro found
  have stable :
      ∀ result : Option AssessmentResult,
        (sittingContract platform requests sitting strict).Stable tid
          fun recorded => ∀ question : GradedQuestion,
            question.submissionId = id →
              (question.verdict, question.scorePct) = reportOf result →
                AtPhase tid
                  (readPhase platform sitting strict graded
                    (done ++ [question])) recorded :=
    fun result => Contract.Stable.forall fun question =>
      Contract.Stable.imp (Contract.Stable.imp readPhase_stable)
  have rest :
      ∀ questionId, SittingTriple platform requests sitting strict tid
        (AtPhase tid (readPhase platform sitting strict graded done))
        (do
          let result ← issue (.selectGradedResult id)
          return {
            submissionId := id
            questionId := questionId
            title :=
              ((platform.question questionId).map Question.title).getD
                questionId
            verdict := (reportOf result).1
            scorePct := (reportOf result).2 })
        (fun question recorded =>
          AtPhase tid
              (readPhase platform sitting strict graded (done ++ [question]))
              recorded ∧
            question.submissionId = id) := by
    intro questionId
    refine issue_recorded _ readPhase_stable
      (fun _ _ _ => trivial)
      (selectGradedResult_establishes known) fun result => ?_
    exact
      Triple.ret (stable result) fun recorded _ holds =>
        ⟨holds _ rfl rfl, rfl⟩
  cases found with
  | none => exact rest ""
  | some sub => exact rest sub.questionId

theorem gradedQuestions_triple
    {ids graded : List String} {done : List GradedQuestion} :
    SittingTriple platform requests sitting strict tid
      (AtPhase tid (readPhase platform sitting strict graded done))
      (gradedQuestions platform ids)
      (fun questions recorded =>
        AtPhase tid
            (readPhase platform sitting strict graded (done ++ questions))
            recorded ∧
          questions.map GradedQuestion.submissionId = ids) := by
  induction ids generalizing done with
  | nil =>
      refine Triple.ret readPhase_stable fun recorded _ atPhase => ?_
      rw [List.append_nil]
      exact ⟨atPhase, rfl⟩
  | cons id rest inductionHypothesis =>
      unfold gradedQuestions
      refine Triple.bind (gradedQuestion_triple known) fun question => ?_
      refine Triple.of_fact (fun _ _ holds => holds.2) fun isId => ?_
      refine Triple.bind
        (inductionHypothesis.strengthen fun _ _ holds => holds.1)
        fun questions => ?_
      refine Triple.ret
        (readPhase_stable.and (Contract.stable_const _))
        fun recorded _ holds => ?_
      rw [List.append_assoc] at holds
      refine ⟨holds.1, ?_⟩
      rw [List.map_cons, isId, holds.2]

/-- The submission exists. -/
def SubmissionExists (id : String) (recorded : Store × SittingLog) : Prop :=
  (recorded.1.submissions.row id).isSome

omit known in
theorem exists_stable {id : String} :
    (sittingContract platform requests sitting strict).Stable tid
      (SubmissionExists id) :=
  fun _ _ _ _ _ guaranteed found =>
    guaranteed.moves.submissions.row_isSome found

/-- After the payload has been read. -/
def AfterPayload
    (platform : Platform) (sitting : Sitting) (strict : Prop) (tid : Nat) :
    Option ResultsReady → Store × SittingLog → Prop
  | none => Settled tid
  | some ready =>
      AtPhase tid
        (readPhase platform sitting strict ready.reported ready.questions)

theorem payloadOf_triple
    {invite : Invite} {id : String} {graded : List String} :
    SittingTriple platform requests sitting strict tid
      (fun recorded =>
        AtPhase tid (readPhase platform sitting strict graded []) recorded ∧
          SubmissionExists id recorded)
      (payloadOf platform invite id graded)
      (AfterPayload platform sitting strict tid) := by
  unfold payloadOf
  refine issue_recorded
    (fun found recorded =>
      AtPhase tid (readPhase platform sitting strict graded []) recorded ∧
        found ≠ none)
    (readPhase_stable.and exists_stable) (fun _ _ _ => trivial)
    ?_ fun found => ?_
  · intro before log answer found after inv holds allowed executes
    obtain ⟨guaranteed, atPhase⟩ :=
      load_reading_establishes known before log answer found after inv
        holds.1 allowed executes
    refine ⟨guaranteed, atPhase, ?_⟩
    intro absent
    have present := holds.2
    rcases exec_load executes with
      ⟨copy, isCopy, -⟩ | ⟨row, isRow, -⟩ | ⟨-, -, noRow, -⟩
    · rw [absent] at isCopy
      cases isCopy
    · rw [absent] at isRow
      cases isRow
    · have isNone : before.submissions.row id = none := noRow
      simp [SubmissionExists, isNone] at present
  · refine Triple.of_fact (fun _ _ holds => holds.2) fun isFound => ?_
    cases found with
    | none => exact absurd rfl isFound
    | some sub =>
        refine Triple.bind
          ((gradedQuestions_triple known).strengthen
            fun _ _ holds => holds.1)
          fun questions => ?_
        refine Triple.ret
          (readPhase_stable.and (Contract.stable_const _))
          fun recorded _ holds => ?_
        obtain ⟨atPhase, isGraded⟩ := holds
        rw [← isGraded] at atPhase
        exact atPhase

/-- Handing the payload to delivery ends the claim. -/
theorem deliver_establishes {ready : ResultsReady} :
    SittingEstablishes platform requests sitting strict tid
      (AtPhase tid
        (readPhase platform sitting strict ready.reported ready.questions))
      (.deliver ready) (fun _ => Settled tid) := by
  intro before log answer resp after inv atPhase allowed executes
  have proceeds :
      Proceeds platform requests sitting strict tid (.deliver ready) before
        log := by
    refine .of_keepsRows trivial (fun isCommit => nomatch isCommit) ?_
    intro handed claim isDeliver found isTid isOpen
    cases isDeliver
    have reading := atPhase.claiming claim found isTid isOpen
    refine ⟨reading.covers, ?_, reading.reports⟩
    intro id member
    obtain ⟨question, isQuestion, rfl⟩ := List.mem_map.mp member
    exact reading.read question isQuestion
  refine ⟨inv.guar proceeds known allowed executes, ?_⟩
  cases executes
  refine ⟨atPhase.stages, atPhase.stamps, atPhase.owes, atPhase.reopens, ?_⟩
  intro claim found isTid isOpen
  obtain ⟨old, foundOld, isClaim⟩ := Option.map_eq_some_iff.mp found
  split at isClaim
  · subst isClaim
    cases isOpen
  · next closed =>
      subst isClaim
      exact absurd ⟨isTid, isOpen⟩ closed

theorem deliverIfReady_triple {ready : Option ResultsReady} :
    SittingTriple platform requests sitting strict tid
      (AfterPayload platform sitting strict tid ready)
      (deliverIfReady ready) (fun _ => Settled tid) := by
  cases ready with
  | none => exact Triple.ret settled_stable fun _ _ holds => holds
  | some ready =>
      exact
        last_recorded readPhase_stable (fun _ _ _ => trivial)
          (fun _ => settled_stable)
          (deliver_establishes known)

/-! ## The claim -/

/-- What the selection of the terminal submissions of the sitting shows. -/
def Enough
    (platform : Platform) (sitting : Sitting) (mine : Prop)
    (graded : List String) (recorded : Store × SittingLog) : Prop :=
  mine → recorded.1.Covers platform sitting graded ∧ recorded.2.reached

omit known in
theorem enough_stable {mine : Prop} {graded : List String} :
    (sittingContract platform requests sitting strict).Stable tid
      (Enough platform sitting mine graded) :=
  fun _ _ _ _ inv guaranteed enough isMine =>
    ⟨(enough isMine).1.moves inv.rows guaranteed.moves,
      guaranteed.reached (enough isMine).2⟩

/-- The attempt of an address on an invite. -/
def AttemptAt
    (inviteId : Nat) (email : String) (id : Nat)
    (recorded : Store × SittingLog) : Prop :=
  ∃ row, recorded.1.attempts.row id = some row ∧ row.inviteId = inviteId ∧
    row.candidateEmail = email

omit known in
theorem lasting_attemptAt {inviteId : Nat} {email : String} {id : Nat} :
    Lasting platform requests (AttemptAt inviteId email id) := by
  intro before after tid rows moves attemptAt
  obtain ⟨row, found, isInvite, isEmail⟩ := attemptAt
  obtain ⟨later, foundLater, sameInvite, sameEmail⟩ :=
    rows.attempt_kept moves found
  exact
    ⟨later, foundLater, sameInvite.trans isInvite,
      sameEmail.trans isEmail⟩

/-- The thread owes the sitting, if its submission is the sitting's. -/
def minePhase (mine : Prop) : Phase where
  owes := fun _ => mine

omit known in
theorem minePhase_stable {mine : Prop} :
    (sittingContract platform requests sitting strict).Stable tid
      (AtPhase tid (minePhase mine)) :=
  owes_stable (lasting_const mine)

omit known in
theorem AtPhase.settled_of_not
    {mine : Prop} {recorded : Store × SittingLog}
    (atPhase : AtPhase tid (minePhase mine) recorded) (notMine : ¬mine) :
    Settled tid recorded :=
  atPhase.mono (fun _ _ _ impossible => impossible)
    (fun _ _ _ impossible => impossible) (fun owed => notMine owed)
    (fun impossible => impossible) fun _ impossible => impossible

/-- After the submission of a claim has been loaded. -/
def AfterLoad
    (sitting : Sitting) (tid : Nat) (id : String) :
    Option Submission → Store × SittingLog → Prop
  | none, recorded => Settled tid recorded
  | some copy, recorded =>
      (AtPhase tid (minePhase (sitting.submitted copy)) recorded ∧
        SubmissionExists id recorded) ∧
        (copy.inviteId.isSome → copy.candidateEmail ≠ some "")

theorem load_claim_establishes {id : String} :
    SittingEstablishes platform requests sitting strict tid
      (AtPhase tid (closePhase sitting id True)) (.load id)
      (AfterLoad sitting tid id) := by
  intro before log answer found after inv atPhase allowed executes
  have quiet : (Op.load id).keepsRows := trivial
  obtain ⟨guaranteed, atPhaseAfter⟩ :=
    atPhase.quiet known quiet (lasting_close True) inv allowed executes
  refine ⟨guaranteed, ?_⟩
  cases found with
  | none =>
      refine atPhaseAfter.mono (fun _ _ _ impossible => impossible)
        (fun _ _ _ impossible => impossible) ?_
        (fun impossible => impossible) fun _ impossible => impossible
      intro owed
      obtain ⟨row, foundRow, -⟩ := owed.2
      rcases exec_load executes with
        ⟨_, impossible, -⟩ | ⟨_, impossible, -⟩ | ⟨-, -, absent, rfl⟩
      · cases impossible
      · cases impossible
      · rw [absent] at foundRow
        cases foundRow
  | some copy =>
      have copied := session_of_load executes
      obtain ⟨row, foundRow, sameInvite, sameEmail⟩ :=
        guaranteed.inv.rows.copies copied
      refine ⟨⟨?_, ?_⟩, ?_⟩
      · refine atPhaseAfter.mono (fun _ _ _ impossible => impossible)
          (fun _ _ _ impossible => impossible) ?_
          (fun impossible => impossible) fun _ impossible => impossible
        intro owed
        obtain ⟨other, foundOther, submitted⟩ := owed.2
        rw [foundRow] at foundOther
        cases foundOther
        have isCopy : sitting.submitted copy := by
          rw [Sitting.submitted_iff] at submitted ⊢
          rwa [sameInvite, sameEmail]
        exact isCopy
      · exact Option.isSome_iff_exists.mpr ⟨row, foundRow⟩
      · intro hasInvite isEmpty
        obtain ⟨inviteId, isInvite⟩ := Option.isSome_iff_exists.mp hasInvite
        obtain ⟨invite, email, -, isEmail, nonempty, -⟩ :=
          guaranteed.inv.rows.admitted (Or.inl foundRow)
            (sameInvite.symm.trans isInvite)
        rw [sameEmail, isEmail] at isEmpty
        exact nonempty (Option.some.inj isEmpty)

/-- The terminal submissions of a sitting are counted. -/
theorem selectGraded_establishes
    {invite : Invite} {email id : String} {mine : Prop}
    (found : platform.invite invite.id = some invite)
    (isMine :
      mine ↔ invite.id = sitting.invite.id ∧ email = sitting.email) :
    SittingEstablishes platform requests sitting strict tid
      (fun recorded =>
        AtPhase tid (minePhase mine) recorded ∧ SubmissionExists id recorded)
      (.selectGraded invite.id email)
      (fun graded recorded =>
        (AtPhase tid
            (minePhase (mine ∧ platform.slotCount invite ≤ graded.length))
            recorded ∧
          SubmissionExists id recorded) ∧
          Enough platform sitting
            (mine ∧ platform.slotCount invite ≤ graded.length) graded
            recorded) := by
  intro before log answer graded after inv holds allowed executes
  obtain ⟨atPhase, present⟩ := holds
  have quiet : (Op.selectGraded invite.id email).keepsRows := trivial
  obtain ⟨guaranteed, atPhaseAfter⟩ :=
    atPhase.quiet known quiet (lasting_const mine) inv allowed executes
  have sameInvite : mine → invite = sitting.invite := by
    intro holdsMine
    rw [(isMine.mp holdsMine).1, known] at found
    exact (Option.some.inj found).symm
  refine
    ⟨guaranteed,
      ⟨?_, guaranteed.moves.submissions.row_isSome present⟩, ?_⟩
  · refine
      ⟨atPhaseAfter.stages, atPhaseAfter.stamps, ?_, atPhaseAfter.reopens,
        atPhaseAfter.claiming⟩
    intro owed
    have holdsMine : mine := atPhaseAfter.owes owed
    refine ⟨holdsMine, ?_⟩
    by_contra few
    have isFew :
        invite.id = sitting.invite.id ∧ email = sitting.email ∧
          graded.length < platform.slotCount sitting.invite := by
      obtain ⟨isInvite, isEmail⟩ := isMine.mp holdsMine
      rw [sameInvite holdsMine] at few
      exact ⟨isInvite, isEmail, not_le.mp few⟩
    simp [recordSitting, noteSitting, isFew, SittingLog.settle] at owed
  · intro enough
    obtain ⟨holdsMine, many⟩ := enough
    have isInvite := sameInvite holdsMine
    have isEmail := (isMine.mp holdsMine).2
    subst isInvite isEmail
    cases executes
    have complete : before.Complete platform sitting := many
    refine ⟨⟨?_, many, ?_⟩, reached_of_complete complete⟩
    · exact nodup_select inv.rows.wellFormed.submissions _
    · intro gradedId member
      obtain ⟨-, row, foundRow, isGraded⟩ := mem_select_iff.mp member
      exact ⟨row, foundRow, (isGraded_iff.mp isGraded).1⟩

omit known

/-! ## The stamp -/

/-- The thread has staged the stamp of the sitting. -/
def StampStaged
    (sitting : Sitting) (tid : Nat) (recorded : Store × SittingLog) : Prop :=
  ∃ id row value, recorded.1.attempts.staged id = some (tid, value) ∧
    recorded.1.attempts.row id = some row ∧ sitting.stamps row value

theorem stampStaged_stable :
    (sittingContract platform requests sitting strict).Stable tid
      (StampStaged sitting tid) := by
  intro before after other different inv guaranteed stampStaged
  obtain ⟨id, row, value, staged, found, stamps⟩ := stampStaged
  have isOther : tid ≠ other := Ne.symm different
  have kept := (guaranteed.moves.attempts.others isOther).mpr staged
  have same := guaranteed.moves.attempts.row_of_locked isOther staged
  exact ⟨id, row, value, kept, same ▸ found, stamps⟩

/-- The thread has staged the stamp of an attempt, which pays what it owes. -/
def stampPhase
    (sitting : Sitting) (tid inviteId : Nat) (email : String) : Phase where
  stamps := fun _ row _ =>
    ∃ current, row = some current ∧ current.inviteId = inviteId ∧
      current.candidateEmail = email ∧ current.resultsNotifiedAt = none
  owes := StampStaged sitting tid

theorem stampPhase_stable {inviteId : Nat} {email : String} :
    (sittingContract platform requests sitting strict).Stable tid
      (AtPhase tid (stampPhase sitting tid inviteId email)) :=
  atPhase_stable ⟨stampStaged_stable, stable_false, claiming_false⟩

/-- After the conditional UPDATE of the stamp. -/
def AfterStamp
    (sitting : Sitting) (tid inviteId : Nat) (email : String) :
    Bool → Store × SittingLog → Prop
  | true => AtPhase tid (stampPhase sitting tid inviteId email)
  | false => Settled tid

include known

theorem selectAttempt_establishes
    {inviteId : Nat} {email id : String} {graded : List String} {mine : Prop}
    (isMine :
      mine ↔ inviteId = sitting.invite.id ∧ email = sitting.email) :
    SittingEstablishes platform requests sitting strict tid
      (fun recorded =>
        (AtPhase tid (minePhase mine) recorded ∧
          SubmissionExists id recorded) ∧
          Enough platform sitting mine graded recorded)
      (.selectAttempt inviteId email)
      (fun found recorded =>
        match found with
        | none => Settled tid recorded
        | some attempt =>
            ((AtPhase tid (minePhase mine) recorded ∧
              SubmissionExists id recorded) ∧
              Enough platform sitting mine graded recorded) ∧
              AttemptAt inviteId email attempt.id recorded) := by
  intro before log answer found after inv holds allowed executes
  obtain ⟨⟨atPhase, present⟩, enough⟩ := holds
  have quiet : (Op.selectAttempt inviteId email).keepsRows := trivial
  obtain ⟨guaranteed, atPhaseAfter⟩ :=
    atPhase.quiet known quiet (lasting_const mine) inv allowed executes
  refine ⟨guaranteed, ?_⟩
  cases executes
  cases isFound : before.firstAttempt inviteId email with
  | none =>
      rw [isFound] at atPhaseAfter
      refine
        ⟨atPhaseAfter.stages, atPhaseAfter.stamps, ?_, atPhaseAfter.reopens,
          atPhaseAfter.claiming⟩
      intro owed
      have holdsMine : mine := atPhaseAfter.owes owed
      obtain ⟨isInvite, isEmail⟩ := isMine.mp holdsMine
      simp [recordSitting, noteSitting, isInvite, isEmail,
        SittingLog.settle] at owed
  | some attempt =>
      rw [isFound] at atPhaseAfter
      have enoughAfter :
          Enough platform sitting mine graded
            (before,
              recordSitting platform sitting (.selectAttempt inviteId email)
                tid (some attempt) before before log) :=
        fun holdsMine =>
          ⟨(enough holdsMine).1, reached_of_reached (enough holdsMine).2⟩
      refine ⟨⟨⟨atPhaseAfter, present⟩, enoughAfter⟩, ?_⟩
      obtain ⟨attemptId, isFirst, found⟩ := Option.bind_eq_some_iff.mp isFound
      have member := List.mem_of_head? isFirst
      obtain ⟨-, row, foundRow, isMatch⟩ := mem_select_iff.mp member
      rw [found] at foundRow
      cases foundRow
      simp only [Bool.and_eq_true, beq_iff_eq] at isMatch
      have keyed := inv.rows.wellFormed.attemptKeys.row found
      refine ⟨attempt, ?_, isMatch⟩
      rw [keyed]
      exact found

theorem stampAttempt_establishes
    {inviteId attemptId : Nat} {email id : String} {graded : List String}
    {mine : Prop}
    (isMine :
      mine ↔ inviteId = sitting.invite.id ∧ email = sitting.email) :
    SittingEstablishes platform requests sitting strict tid
      (fun recorded =>
        ((AtPhase tid (minePhase mine) recorded ∧
          SubmissionExists id recorded) ∧
          Enough platform sitting mine graded recorded) ∧
          AttemptAt inviteId email attemptId recorded)
      (.stampAttempt attemptId)
      (fun won recorded =>
        (AfterStamp sitting tid inviteId email won recorded ∧
          SubmissionExists id recorded) ∧
          Enough platform sitting mine graded recorded) := by
  intro before log answer won after inv holds allowed executes
  obtain ⟨⟨⟨atPhase, present⟩, enough⟩, attemptAt⟩ := holds
  obtain ⟨row, found, isInvite, isEmail⟩ := attemptAt
  have proceeds :
      Proceeds platform requests sitting strict tid (.stampAttempt attemptId)
        before log := by
    have notReopened : ¬log.reopened tid := atPhase.reopens
    refine atPhase.proceeds inv.rows trivial ?_ ?_ ?_
    · exact fun _ _ _ isInsert => nomatch isInsert
    · exact fun isCommit => nomatch isCommit
    · exact fun _ _ _ _ isCas => nomatch isCas
  have guaranteed := inv.guar proceeds known allowed executes
  have issued := atPhase.issued sitting inv.rows executes nofun
  have attempted : mine → sitting.attempted row := by
    intro holdsMine
    obtain ⟨sameInvite, sameEmail⟩ := isMine.mp holdsMine
    exact
      Sitting.attempted_iff.mpr
        ⟨isInvite.trans sameInvite, isEmail.trans sameEmail⟩
  refine
    ⟨guaranteed,
      ⟨?_, guaranteed.moves.submissions.row_isSome present⟩,
      fun holdsMine =>
        ⟨(enough holdsMine).1.moves inv.rows guaranteed.moves,
          guaranteed.reached (enough holdsMine).2⟩⟩
  simp only [exec, Option.map_eq_some_iff] at executes
  obtain ⟨⟨isWon, table⟩, tried, equal⟩ := executes
  cases equal
  rcases tryUpdate_cases tried with
    ⟨rfl, -, other, foundOther, unstamped, rfl⟩ | ⟨rfl, rfl, -⟩
  · rw [found] at foundOther
    cases foundOther
    have isUnstamped : row.resultsNotifiedAt = none := by
      simpa using unstamped
    refine issued.mono ?_ ?_ ?_ ?_ ?_
    · exact fun _ _ _ write => write.1.writes
    · intro stamped current value write
      obtain ⟨write, rfl⟩ := write
      cases write with
      | stamp foundStamped =>
          rw [found] at foundStamped
          cases foundStamped
          exact ⟨row, found, isInvite, isEmail, isUnstamped⟩
    · intro holdsMine
      refine
        ⟨attemptId, row, _, Function.update_self _ _ _, found, ?_⟩
      simp [Sitting.stamps, attempted holdsMine, isUnstamped]
    · exact fun impossible => impossible
    · exact fun _ impossible => impossible
  · have foundRow : before.attempts.row attemptId = some row := found
    refine
      ⟨fun stagedId value staged =>
          (issued.stages stagedId value staged).1.writes,
        atPhase.stamps, ?_, issued.reopens, issued.claiming⟩
    intro owed
    by_cases isAttempted : sitting.attempted row
    · simp [recordSitting, noteSitting, foundRow, isAttempted,
        SittingLog.settle] at owed
    · have isOwed : log.owed tid := by
        simpa [recordSitting, noteSitting, foundRow, isAttempted] using owed
      exact isAttempted (attempted (atPhase.owes isOwed))

/-- COMMIT of a staged stamp makes the claim. -/
theorem commit_stamp_establishes
    {inviteId : Nat} {email id : String} {graded : List String}
    {mine : Prop}
    (isMine :
      mine ↔ inviteId = sitting.invite.id ∧ email = sitting.email) :
    SittingEstablishes platform requests sitting strict tid
      (fun recorded =>
        (AtPhase tid (stampPhase sitting tid inviteId email) recorded ∧
          SubmissionExists id recorded) ∧
          Enough platform sitting mine graded recorded)
      .commit
      (fun _ recorded =>
        AtPhase tid (readPhase platform sitting strict graded []) recorded ∧
          SubmissionExists id recorded) := by
  intro before log answer resp after inv holds allowed executes
  obtain ⟨⟨atPhase, present⟩, enough⟩ := holds
  have listed := inv.rows.wellFormed.attempts
  have holdsMine : before.attempts.commits tid sitting.stamps → mine := by
    intro stamps
    obtain ⟨stamped, row, value, found, staged, isStamp⟩ :=
      (commits_iff listed).mp stamps
    obtain ⟨current, isCurrent, isInvite, isEmail, -⟩ :=
      atPhase.stamps stamped value staged
    have foundRow : some row = some current := found.symm.trans isCurrent
    cases foundRow
    simp only [Sitting.stamps, Bool.and_eq_true] at isStamp
    obtain ⟨sameInvite, sameEmail⟩ := Sitting.attempted_iff.mp isStamp.1.1
    exact isMine.mpr ⟨isInvite ▸ sameInvite, isEmail ▸ sameEmail⟩
  have clearsNone : before.attempts.commits tid sitting.clears = false := by
    refine commits_of_unstamping atPhase listed _ ?_
    intro stamped row value stamps
    obtain ⟨current, isCurrent, -, -, unstamped⟩ := stamps
    cases isCurrent
    simp [Sitting.clears, unstamped]
  have proceeds :
      Proceeds platform requests sitting strict tid .commit before log := by
    refine .commit ?_ ?_ ?_
    · exact fun stamps => (enough (holdsMine stamps)).2
    · exact fun clears => absurd clears (by simp [clearsNone])
    · exact fun reopened => (atPhase.reopens reopened).elim
  have guaranteed := inv.guar proceeds known allowed executes
  refine ⟨guaranteed, ?_, guaranteed.moves.submissions.row_isSome present⟩
  cases executes
  have closesNone : before.submissions.commits tid sitting.closes = false :=
    commits_of_clean atPhase (fun _ _ _ impossible => impossible)
      inv.rows.wellFormed.submissions _
  refine atPhase.committed.mono (fun _ _ _ impossible => impossible)
    (fun _ _ _ impossible => impossible) ?_ ?_ ?_
  · intro owed
    rw [closesNone] at owed
    obtain ⟨isOwed, notStamped⟩ := owed.resolve_left (by simp)
    obtain ⟨stamped, row, value, staged, found, stamps⟩ :=
      atPhase.owes isOwed
    exact
      notStamped
        ((commits_iff listed).mpr ⟨stamped, row, value, found, staged, stamps⟩)
  · exact fun clears => absurd clears (by simp [clearsNone])
  · intro claim claiming
    rcases claiming with ⟨stamps, rfl⟩ | ⟨-, impossible⟩
    · have covers := (enough (holdsMine stamps)).1
      refine ⟨covers.moves inv.rows guaranteed.moves, ?_, ?_⟩
      · exact fun _ member => absurd member List.not_mem_nil
      · exact fun _ _ _ member => absurd member List.not_mem_nil
    · exact impossible.elim

/-- The claim of a sitting whose attempt has been found. -/
theorem claimAttempt_triple
    {invite : Invite} {email id : String} {graded : List String}
    {attemptId : Nat} {mine : Prop}
    (isMine :
      mine ↔ invite.id = sitting.invite.id ∧ email = sitting.email) :
    SittingTriple platform requests sitting strict tid
      (fun recorded =>
        ((AtPhase tid (minePhase mine) recorded ∧
          SubmissionExists id recorded) ∧
          Enough platform sitting mine graded recorded) ∧
          AttemptAt invite.id email attemptId recorded)
      (do
        let won ← issue (.stampAttempt attemptId)
        issue .commit
        if !won then return none
        payloadOf platform invite id graded)
      (AfterPayload platform sitting strict tid) := by
  refine issue_recorded _
    (((minePhase_stable.and exists_stable).and enough_stable).and
      lasting_attemptAt.stable)
    (fun _ _ _ => trivial)
    (stampAttempt_establishes known isMine) fun won => ?_
  cases won with
  | true =>
      refine issue_recorded _
        ((stampPhase_stable.and exists_stable).and enough_stable)
        (fun _ _ _ => trivial)
        (commit_stamp_establishes known isMine) fun _ => ?_
      exact payloadOf_triple known
  | false =>
      refine Triple.strengthen ?_ fun _ _ holds => holds.1.1
      refine settled_issue known trivial fun _ => ?_
      exact Triple.ret settled_stable fun _ _ settled => settled

/-- `claim_sitting`: a thread that owes the completion step ends it, with the
payload of its claim, if it has one. -/
theorem claimSitting_triple {id : String} :
    SittingTriple platform requests sitting strict tid
      (AtPhase tid (closePhase sitting id True))
      (claimSitting platform id)
      (AfterPayload platform sitting strict tid) := by
  have nothing :
      ∀ mine : Prop, ¬mine →
        SittingTriple platform requests sitting strict tid
          (AtPhase tid (minePhase mine)) (pure none)
          (AfterPayload platform sitting strict tid) :=
    fun mine notMine =>
      Triple.ret minePhase_stable fun _ _ atPhase =>
        atPhase.settled_of_not notMine
  have settledNothing :
      SittingTriple platform requests sitting strict tid (Settled tid)
        (pure none) (AfterPayload platform sitting strict tid) :=
    Triple.ret settled_stable fun _ _ settled => settled
  unfold claimSitting
  refine issue_recorded _ closePhase_stable (fun _ _ _ => trivial)
    (load_claim_establishes known) ?_
  intro found
  cases found with
  | none => exact settledNothing
  | some sub =>
      have loaded :
          ∀ recorded, AfterLoad sitting tid id (some sub) recorded →
            AtPhase tid (minePhase (sitting.submitted sub)) recorded ∧
              SubmissionExists id recorded :=
        fun _ holds => holds.1
      refine Triple.of_fact (fun _ _ holds => holds.2) fun nonempty => ?_
      dsimp only
      cases isInvite : sub.inviteId with
      | none =>
          have notMine : ¬sitting.submitted sub := by
            rw [Sitting.submitted_iff, isInvite]
            simp
          exact
            (nothing _ notMine).strengthen fun _ _ holds => (loaded _ holds).1
      | some inviteId =>
          dsimp only
          cases isEmail : sub.candidateEmail with
          | none =>
              have notMine : ¬sitting.submitted sub := by
                rw [Sitting.submitted_iff, isEmail]
                simp
              exact
                (nothing _ notMine).strengthen
                  fun _ _ holds => (loaded _ holds).1
          | some email =>
              have notEmpty : email ≠ "" := by
                have isNonempty := nonempty (by simp [isInvite])
                rw [isEmail] at isNonempty
                exact fun isEmpty => isNonempty (congrArg some isEmpty)
              have isMine :
                  sitting.submitted sub ↔
                    inviteId = sitting.invite.id ∧ email = sitting.email := by
                rw [Sitting.submitted_iff, isInvite, isEmail]
                simp
              dsimp only
              rw [if_neg notEmpty]
              refine Triple.strengthen ?_ fun _ _ holds => loaded _ holds
              cases foundInvite : platform.invite inviteId with
              | none =>
                  have notMine : ¬sitting.submitted sub := by
                    intro submitted
                    rw [(isMine.mp submitted).1, known] at foundInvite
                    cases foundInvite
                  exact (nothing _ notMine).strengthen fun _ _ holds => holds.1
              | some invite =>
                  have isId := platform.invite_id foundInvite
                  subst isId
                  refine issue_recorded _
                    (minePhase_stable.and exists_stable)
                    (fun _ _ _ => trivial)
                    (selectGraded_establishes known foundInvite isMine)
                    fun graded => ?_
                  by_cases few : graded.length < platform.slotCount invite
                  · rw [if_pos few]
                    have notEnough :
                        ¬(sitting.submitted sub ∧
                          platform.slotCount invite ≤ graded.length) :=
                      fun both => absurd few (not_lt.mpr both.2)
                    exact
                      (nothing _ notEnough).strengthen
                        fun _ _ holds => holds.1.1
                  · rw [if_neg few]
                    have isMineToo :
                        (sitting.submitted sub ∧
                            platform.slotCount invite ≤ graded.length) ↔
                          invite.id = sitting.invite.id ∧
                            email = sitting.email := by
                      rw [isMine]
                      exact and_iff_left (not_lt.mp few)
                    refine issue_recorded _
                      ((minePhase_stable.and exists_stable).and enough_stable)
                      (fun _ _ _ => trivial)
                      (selectAttempt_establishes known isMineToo)
                      fun attempt => ?_
                    cases attempt with
                    | none => exact settledNothing
                    | some attempt =>
                        exact claimAttempt_triple known isMineToo

end AssessmentPlatform
