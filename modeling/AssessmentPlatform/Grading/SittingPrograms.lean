import AssessmentPlatform.Grading.SittingClaim

/-!
# What triggers, the reaper and a retry do for a sitting

Each program, started by a thread that owes the sitting nothing, keeps the
guarantee of the sitting's contract and owes nothing again when it ends.
-/

namespace AssessmentPlatform

open Interleaving RowTable

variable {platform : Platform} {requests : Nat → Request} {tid : Nat}
variable {answer : AgentAnswer} {op : Op} {before after store : Store}
variable {resp : Resp op} {sitting : Sitting} {strict : Prop}
variable {log : SittingLog} {id : String}

/-! ## Triggers -/

/-- The thread has reopened the sitting for the submission that it retries. -/
def reopenPhase
    (requests : Nat → Request) (sitting : Sitting) (tid : Nat) (id : String) :
    Phase where
  reopens := fun recorded =>
    requests tid = .retrySubmission id ∧ recorded.1.Submitted sitting id

theorem reopenPhase_stable :
    (sittingContract platform requests sitting strict).Stable tid
      (AtPhase tid (reopenPhase requests sitting tid id)) := by
  have reopens :
      (sittingContract platform requests sitting strict).Stable tid
        (reopenPhase requests sitting tid id).reopens :=
    (Contract.stable_const _).and (lasting_submitted id).stable
  exact atPhase_stable ⟨stable_false, reopens, claiming_false⟩

theorem AtPhase.reopen
    {recorded : Store × SittingLog} (settled : Settled tid recorded) :
    AtPhase tid (reopenPhase requests sitting tid id) recorded :=
  settled.mono (fun _ _ _ impossible => impossible)
    (fun _ _ _ impossible => impossible) (fun impossible => impossible)
    (fun impossible => impossible.elim) fun _ impossible => impossible

/-- The thread may claim the submission that its copy shows. -/
def retryPhase
    (requests : Nat → Request) (sitting : Sitting) (tid : Nat) (id : String)
    (status : Status) (attempts : Nat) (terminal : Bool) : Phase where
  reopens := fun recorded =>
    Retrying requests sitting tid id status attempts recorded ∧
      terminal = false

theorem AtPhase.retry
    {status : Status} {attempts : Nat} {terminal : Bool}
    {recorded : Store × SittingLog} (settled : Settled tid recorded) :
    AtPhase tid
      (retryPhase requests sitting tid id status attempts terminal)
      recorded :=
  settled.mono (fun _ _ _ impossible => impossible)
    (fun _ _ _ impossible => impossible) (fun impossible => impossible)
    (fun impossible => impossible.elim) fun _ impossible => impossible

namespace Sitting

variable (known : platform.invite sitting.invite.id = some sitting.invite)

include known

/-- `_end_sitting_if_complete` -/
theorem endSittingIfComplete_triple :
    SittingTriple platform requests sitting strict tid
      (AtPhase tid (closePhase sitting id True))
      (endSittingIfComplete platform id) (fun _ => Settled tid) :=
  Triple.bind (claimSitting_triple known) fun _ => deliverIfReady_triple known

/-- A conditional UPDATE that ends the sitting where it wins a terminal
status. -/
theorem casEnding_triple
    {status : Status} {attempts : Nat} {values : SubmissionChange}
    (counted : values.attempts.isSome → values.status.terminal = false) :
    SittingTriple platform requests sitting strict tid (Settled tid)
      (do
        let won ← cas id status attempts values
        if won then endSittingIfComplete platform id)
      (fun _ => Settled tid) := by
  refine Triple.bind
    ((cas_triple known counted).strengthen fun _ _ settled =>
      settled.retry) fun won => ?_
  cases won with
  | true =>
      refine (endSittingIfComplete_triple known).strengthen ?_
      intro recorded _ atPhase
      exact
        atPhase.mono (fun _ _ _ impossible => impossible)
          (fun _ _ _ impossible => impossible)
          (fun owed => ⟨True.intro, owed.2⟩)
          (fun impossible => impossible) fun _ impossible => impossible
  | false =>
      refine Triple.ret closePhase_stable fun _ _ atPhase => ?_
      exact atPhase.settled_of_open fun closed => nomatch closed.1

/-- The submission of a trigger is loaded. -/
theorem load_retry_establishes :
    SittingEstablishes platform requests sitting strict tid
      (AtPhase tid (reopenPhase requests sitting tid id)) (.load id)
      (fun found recorded =>
        match found with
        | none => Settled tid recorded
        | some sub =>
            AtPhase tid
              (retryPhase requests sitting tid id sub.status sub.attempts
                false) recorded) := by
  intro before log answer found after inv atPhase allowed executes
  have proceeds :
      Proceeds platform requests sitting strict tid (.load id) before log :=
    .of_keepsRows trivial
      (fun isCommit => nomatch isCommit)
      fun _ _ isDeliver => nomatch isDeliver
  have guaranteed := inv.guar proceeds known allowed executes
  refine ⟨guaranteed, ?_⟩
  have issued := atPhase.issued sitting inv.rows executes nofun
  cases found with
  | none =>
      refine issued.mono ?_ ?_ ?_ ?_ ?_
      · exact fun _ _ _ write => write.1.writes
      · exact fun _ _ _ write => write.1.writes
      · exact fun impossible => impossible
      · intro reopens
        obtain ⟨row, foundRow, -⟩ := reopens.2
        rcases exec_load executes with
          ⟨_, impossible, -⟩ | ⟨_, impossible, -⟩ | ⟨-, -, absent, -⟩
        · cases impossible
        · cases impossible
        · have isAbsent : before.submissions.row id = none := absent
          have isFound : before.submissions.row id = some row := foundRow
          rw [isAbsent] at isFound
          cases isFound
      · exact fun _ impossible => impossible
  | some sub =>
      have copied := session_of_load executes
      refine issued.mono ?_ ?_ ?_ ?_ ?_
      · exact fun _ _ _ write => write.1.writes
      · exact fun _ _ _ write => write.1.writes
      · exact fun impossible => impossible
      · intro reopens
        have submitted := reopens.2.moves inv.rows guaranteed.moves
        exact ⟨⟨reopens.1, submitted, sub, copied, rfl, rfl⟩, rfl⟩
      · exact fun _ impossible => impossible

/-- `_trigger_agent` -/
theorem triggerAgent_triple :
    SittingTriple platform requests sitting strict tid
      (AtPhase tid (reopenPhase requests sitting tid id))
      (triggerAgent platform id) (fun _ => Settled tid) := by
  have done :
      SittingTriple platform requests sitting strict tid (Settled tid)
        (pure ()) (fun _ => Settled tid) :=
    Triple.ret settled_stable fun _ _ settled => settled
  unfold triggerAgent
  refine issue_recorded _ reopenPhase_stable (fun _ _ _ => trivial)
    (load_retry_establishes known) ?_
  intro found
  cases found with
  | none => exact done
  | some sub =>
      let values := claimChange id (sub.attempts + 1)
      have claim :
          SittingTriple platform requests sitting strict tid
            (AtPhase tid
              (retryPhase requests sitting tid id sub.status sub.attempts
                values.status.terminal))
            (cas id sub.status sub.attempts values)
            (fun won =>
              AtPhase tid
                (closePhase sitting id
                  (won = true ∧ values.status.terminal))) :=
        cas_triple known fun _ => rfl
      refine Triple.bind claim fun claimed => ?_
      refine Triple.strengthen ?_ fun _ _ atPhase =>
        atPhase.settled_of_open fun closed => nomatch closed.2
      cases claimed with
      | false => exact done
      | true =>
          refine settled_issue known trivial fun job => ?_
          cases job with
          | none => exact done
          | some job =>
              refine settled_issue known trivial fun answer => ?_
              cases answer with
              | refused detail =>
                  exact casEnding_triple known fun isSome => nomatch isSome
              | failed => exact done
              | accepted jobId =>
                  let running : SubmissionChange :=
                    { status := .running, agentJobId := some jobId }
                  have accepted :
                      SittingTriple platform requests sitting strict tid
                        (Settled tid)
                        (cas id .pending (sub.attempts + 1) running)
                        (fun won =>
                          AtPhase tid
                            (closePhase sitting id
                              (won = true ∧ running.status.terminal))) :=
                    (cas_triple known fun _ => rfl).strengthen
                      fun _ _ settled => settled.retry
                  refine Triple.bind accepted fun _ => ?_
                  have isOpen : running.status.terminal = false := rfl
                  refine Triple.ret closePhase_stable fun _ _ atPhase => ?_
                  refine atPhase.settled_of_open fun closed => ?_
                  exact absurd closed.2 (by simp [isOpen])

/-! ## The reaper -/

theorem reapOne_triple {now : Time} :
    SittingTriple platform requests sitting strict tid (Settled tid)
      (reapOne platform now id) (fun _ => Settled tid) := by
  have done :
      SittingTriple platform requests sitting strict tid (Settled tid)
        (pure ()) (fun _ => Settled tid) :=
    Triple.ret settled_stable fun _ _ settled => settled
  unfold reapOne
  refine settled_issue known trivial fun found => ?_
  cases found with
  | none => exact done
  | some sub =>
      dsimp only
      split
      · exact done
      · split
        · exact
            (triggerAgent_triple known).strengthen fun _ _ settled =>
              settled.reopen
        · exact casEnding_triple known fun isSome => nomatch isSome

theorem reapEach_triple {now : Time} (ids : List String) :
    SittingTriple platform requests sitting strict tid (Settled tid)
      (reapEach platform now ids) (fun _ => Settled tid) := by
  induction ids with
  | nil => exact Triple.ret settled_stable fun _ _ settled => settled
  | cons id rest inductionHypothesis =>
      exact Triple.bind (reapOne_triple known) fun _ => inductionHypothesis

/-- `_reap_tick` -/
theorem reapTick_triple :
    SittingTriple platform requests sitting strict tid (Settled tid)
      (reapTick platform) (fun _ => Settled tid) := by
  unfold reapTick
  refine settled_issue known trivial fun now => ?_
  refine settled_issue known trivial fun stranded => ?_
  exact reapEach_triple known stranded

end Sitting

/-! ## The manual retry -/

/-- The submission was made on the invite under the address. -/
def MadeFor
    (id : String) (inviteId : Option Nat) (email : Option String)
    (recorded : Store × SittingLog) : Prop :=
  ∃ row, recorded.1.submissions.row id = some row ∧
    row.inviteId = inviteId ∧ row.candidateEmail = email

theorem lasting_madeFor {inviteId : Option Nat} {email : Option String} :
    Lasting platform requests (MadeFor id inviteId email) := by
  intro before after tid rows moves madeFor
  obtain ⟨row, found, isInvite, isEmail⟩ := madeFor
  obtain ⟨later, foundLater, sameInvite, sameEmail, -⟩ :=
    rows.submission_kept moves found
  exact
    ⟨later, foundLater, sameInvite.trans isInvite,
      sameEmail.trans isEmail⟩

/-- The thread has cleared the stamp of an attempt. -/
def clearPhase (inviteId : Nat) (email : String) : Phase where
  stamps := fun _ row value =>
    value.resultsNotifiedAt = none ∧
      ∀ current, row = some current →
        current.inviteId = inviteId ∧ current.candidateEmail = email

theorem clearPhase_stable {inviteId : Nat} {email : String} :
    (sittingContract platform requests sitting strict).Stable tid
      (AtPhase tid (clearPhase inviteId email)) :=
  atPhase_stable ⟨stable_false, stable_false, claiming_false⟩

namespace Sitting

variable (known : platform.invite sitting.invite.id = some sitting.invite)

include known

theorem load_made_establishes :
    SittingEstablishes platform requests sitting strict tid (Settled tid)
      (.load id)
      (fun found recorded =>
        Settled tid recorded ∧
          ∀ sub, found = some sub →
            MadeFor id sub.inviteId sub.candidateEmail recorded) := by
  intro before log answer found after inv settled allowed executes
  have quiet : (Op.load id).keepsRows := trivial
  obtain ⟨guaranteed, settledAfter⟩ :=
    settled.quiet known quiet (lasting_const False) inv allowed executes
  refine ⟨guaranteed, settledAfter, ?_⟩
  intro sub isSub
  subst isSub
  obtain ⟨row, found, sameInvite, sameEmail⟩ :=
    guaranteed.inv.rows.copies (session_of_load executes)
  exact ⟨row, found, sameInvite.symm, sameEmail.symm⟩

theorem clearStamp_establishes
    {inviteId : Nat} {email : String}
    (request : requests tid = .retrySubmission id) :
    SittingEstablishes platform requests sitting strict tid
      (fun recorded =>
        Settled tid recorded ∧
          MadeFor id (some inviteId) (some email) recorded)
      (.clearStamp inviteId email)
      (fun _ recorded =>
        AtPhase tid (clearPhase inviteId email) recorded ∧
          MadeFor id (some inviteId) (some email) recorded) := by
  intro before log answer resp after inv holds allowed executes
  obtain ⟨settled, madeFor⟩ := holds
  have isRetry : (requests tid).isRetry := by rw [request]; rfl
  have proceeds :
      Proceeds platform requests sitting strict tid
        (.clearStamp inviteId email) before log := by
    refine settled.proceeds inv.rows isRetry ?_ ?_ ?_
    · exact fun _ _ _ isInsert => nomatch isInsert
    · exact fun isCommit => nomatch isCommit
    · exact fun _ _ _ _ isCas => nomatch isCas
  have guaranteed := inv.guar proceeds known allowed executes
  have issued := settled.issued sitting inv.rows executes nofun
  refine
    ⟨guaranteed, ?_,
      lasting_madeFor _ _ tid inv.rows guaranteed.moves madeFor⟩
  refine issued.mono ?_ ?_ ?_ ?_ ?_
  · exact fun _ _ _ write => write.1.writes
  · intro cleared row value write
    obtain ⟨write, rfl⟩ := write
    cases write with
    | clear found isInvite isEmail =>
        refine ⟨rfl, fun current isCurrent => ?_⟩
        rw [found] at isCurrent
        cases isCurrent
        exact ⟨isInvite, isEmail⟩
  · exact fun impossible => impossible
  · exact fun impossible => impossible
  · exact fun _ impossible => impossible

theorem commit_clear_establishes
    {inviteId : Nat} {email : String}
    (request : requests tid = .retrySubmission id) :
    SittingEstablishes platform requests sitting strict tid
      (fun recorded =>
        AtPhase tid (clearPhase inviteId email) recorded ∧
          MadeFor id (some inviteId) (some email) recorded)
      .commit
      (fun _ => AtPhase tid (reopenPhase requests sitting tid id)) := by
  intro before log answer resp after inv holds allowed executes
  obtain ⟨atPhase, madeFor⟩ := holds
  have listed := inv.rows.wellFormed.attempts
  have stampsNone : before.attempts.commits tid sitting.stamps = false := by
    refine commits_of_unstamping atPhase listed _ ?_
    intro cleared row value stamps
    simp [Sitting.stamps, stamps.1]
  have submitted :
      before.attempts.commits tid sitting.clears →
        before.Submitted sitting id := by
    intro clears
    obtain ⟨cleared, row, value, found, staged, isClear⟩ :=
      (commits_iff listed).mp clears
    obtain ⟨-, stamped⟩ := atPhase.stamps cleared value staged
    obtain ⟨isInvite, isEmail⟩ := stamped row found
    obtain ⟨sub, foundSub, madeOn, madeUnder⟩ := madeFor
    simp only [Sitting.clears, Bool.and_eq_true] at isClear
    obtain ⟨sameInvite, sameEmail⟩ := Sitting.attempted_iff.mp isClear.1.1
    refine ⟨sub, foundSub, Sitting.submitted_iff.mpr ⟨?_, ?_⟩⟩
    · rw [madeOn, ← isInvite, sameInvite]
    · rw [madeUnder, ← isEmail, sameEmail]
  have proceeds :
      Proceeds platform requests sitting strict tid .commit before log := by
    refine .commit ?_ ?_ ?_
    · exact fun stamps => absurd stamps (by simp [stampsNone])
    · exact fun clears => ⟨id, request, submitted clears⟩
    · exact fun reopened => (atPhase.reopens reopened).elim
  have guaranteed := inv.guar proceeds known allowed executes
  refine ⟨guaranteed, ?_⟩
  cases executes
  have closesNone : before.submissions.commits tid sitting.closes = false :=
    commits_of_clean atPhase (fun _ _ _ impossible => impossible)
      inv.rows.wellFormed.submissions _
  refine atPhase.committed.mono (fun _ _ _ impossible => impossible)
    (fun _ _ _ impossible => impossible) ?_ ?_ ?_
  · intro owed
    rcases owed with closes | ⟨isOwed, -⟩
    · exact absurd closes (by simp [closesNone])
    · exact atPhase.owes isOwed
  · intro clears
    have lasting := (submitted clears).moves inv.rows guaranteed.moves
    exact ⟨request, lasting⟩
  · intro claim claiming
    rcases claiming with ⟨stamps, -⟩ | ⟨-, impossible⟩
    · exact absurd stamps (by simp [stampsNone])
    · exact impossible

/-- `reopen_sitting` -/
theorem reopenSitting_triple (request : requests tid = .retrySubmission id) :
    SittingTriple platform requests sitting strict tid (Settled tid)
      (reopenSitting id)
      (fun _ => AtPhase tid (reopenPhase requests sitting tid id)) := by
  have done :
      SittingTriple platform requests sitting strict tid (Settled tid)
        (pure ())
        (fun _ => AtPhase tid (reopenPhase requests sitting tid id)) :=
    Triple.ret settled_stable fun _ _ settled => settled.reopen
  unfold reopenSitting
  refine issue_recorded _ settled_stable (fun _ _ _ => trivial)
    (load_made_establishes known) ?_
  intro found
  cases found with
  | none => exact done.strengthen fun _ _ holds => holds.1
  | some sub =>
      dsimp only
      cases isInvite : sub.inviteId with
      | none => exact done.strengthen fun _ _ holds => holds.1
      | some inviteId =>
          dsimp only
          cases isEmail : sub.candidateEmail with
          | none => exact done.strengthen fun _ _ holds => holds.1
          | some email =>
              dsimp only
              split
              · exact done.strengthen fun _ _ holds => holds.1
              · have madeFor :
                    ∀ recorded : Store × SittingLog,
                      (Settled tid recorded ∧
                        ∀ other, some sub = some other →
                          MadeFor id other.inviteId other.candidateEmail
                            recorded) →
                        Settled tid recorded ∧
                          MadeFor id (some inviteId) (some email) recorded := by
                  intro recorded holds
                  have made := holds.2 sub rfl
                  rw [isInvite, isEmail] at made
                  exact ⟨holds.1, made⟩
                refine Triple.strengthen ?_ fun recorded _ holds =>
                  madeFor recorded holds
                refine issue_recorded _
                  (settled_stable.and lasting_madeFor.stable)
                  (fun _ _ _ => trivial)
                  (clearStamp_establishes known request) fun _ => ?_
                exact
                  last_recorded
                    (clearPhase_stable.and lasting_madeFor.stable)
                    (fun _ _ _ => trivial)
                    (fun _ => reopenPhase_stable)
                    (commit_clear_establishes known request)

/-- `retry_submission` -/
theorem retrySubmission_triple
    (request : requests tid = .retrySubmission id) :
    SittingTriple platform requests sitting strict tid (Settled tid)
      (retrySubmission platform id) (fun _ => Settled tid) := by
  have done :
      ∀ reply, SittingTriple platform requests sitting strict tid
        (Settled tid) (pure reply : Prog RetryReply)
        (fun _ => Settled tid) :=
    fun reply => Triple.ret settled_stable fun _ _ settled => settled
  unfold retrySubmission
  refine settled_issue known trivial fun found => ?_
  cases found with
  | none => exact done _
  | some sub =>
      dsimp only
      split
      · exact done _
      · split
        · exact done _
        · refine Triple.bind (reopenSitting_triple known request) fun _ => ?_
          refine Triple.bind (triggerAgent_triple known) fun _ => ?_
          exact done _

end Sitting

end AssessmentPlatform
