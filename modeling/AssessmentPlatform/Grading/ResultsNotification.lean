import AssessmentPlatform.Grading.Sample
import AssessmentPlatform.Grading.SittingRequests

/-!
# The results notification of a sitting

Every program keeps the guarantee of the sitting's contract, so a complete
sitting is notified once nobody is obliged to it any more, never before it was
complete, and, without a manual retry, at most once.  What the last notification
carries is what is stored, in the runs in which no commit changes a verdict or a
score that a standing claim has read.
-/

namespace AssessmentPlatform

open Interleaving RowTable

variable {platform : Platform} {requests : Nat → Request} {tid : Nat}
variable {sitting : Sitting} {strict : Prop} {clock : Time}

/-- The platform serving requests, with the history of one sitting. -/
abbrev servingSitting
    (platform : Platform) (requests : Nat → Request) (sitting : Sitting) :
    System Nat Op Resp AgentAnswer Reply (Store × SittingLog) :=
  (serving platform requests).withHistory (recordSitting platform sitting)

/-- No request has been served yet. -/
abbrev sittingStart
    (platform : Platform) (requests : Nat → Request) (sitting : Sitting)
    (clock : Time) : Config Nat Op Resp Reply (Store × SittingLog) :=
  (servingSitting platform requests sitting).start
    (Store.initial clock, SittingLog.empty)

theorem SittingInv.initial :
    SittingInv platform requests sitting strict (Store.initial clock)
      SittingLog.empty where
  rows := .initial clock
  reached := by
    intro complete
    have positive := platform.slotCount_pos sitting.invite
    have nothing : platform.slotCount sitting.invite ≤ 0 := complete
    omega
  counted := fun counted => absurd counted (Nat.lt_irrefl 0)
  notified := by
    intro notified
    obtain ⟨_, _, found, -⟩ := notified
    cases found
  once := fun _ => ⟨Nat.zero_le 1, fun _ => rfl⟩
  obliged := by
    intro complete
    have positive := platform.slotCount_pos sitting.invite
    have nothing : platform.slotCount sitting.invite ≤ 0 := complete
    omega
  delivered := fun _ _ found => nomatch found

theorem settled_initial (tid : Nat) :
    Settled tid (Store.initial clock, SittingLog.empty) where
  stages := fun _ _ staged => nomatch staged
  stamps := fun _ _ staged => nomatch staged
  owes := fun owed => absurd owed Bool.false_ne_true
  reopens := fun reopened => absurd reopened Bool.false_ne_true
  claiming := fun _ found => nomatch found

/-- In every run without erasures the invariant of the sitting holds, and a
finished thread has nothing left to do for it. -/
theorem sitting_holds
    {config : Config Nat Op Resp Reply (Store × SittingLog)}
    (known : platform.invite sitting.invite.id = some sitting.invite)
    (noErasure : ∀ tid, (requests tid).isErasure = false)
    (reached :
      (servingSitting platform requests sitting).Reaches
        (admits sitting strict)
        (sittingStart platform requests sitting clock) config) :
    (sittingContract platform requests sitting strict).Holds
      (servingSitting platform requests sitting) (admits sitting strict)
      (fun tid _ => Settled tid) config := by
  have holdsStart :
      (sittingContract platform requests sitting strict).Holds
        (servingSitting platform requests sitting) (admits sitting strict)
        (fun tid _ => Settled tid)
        (sittingStart platform requests sitting clock) :=
    Contract.holds_start SittingInv.initial settled_initial fun tid =>
      Sitting.program_triple known rfl (noErasure tid)
  exact holdsStart.reaches reached

/-- For every interleaving without manual retries: the notification is never
claimed before the sitting has been complete, at most once, and exactly once
where the sitting is complete and nobody owes it the completion step, which no
finished request does.  A callback takes that step here also where
`billing.record` raises after the grade is committed; the source leaves it out
there, and what is said of finished requests is not said of such a callback. -/
theorem notification_claimed_once
    {config : Config Nat Op Resp Reply (Store × SittingLog)}
    (known : platform.invite sitting.invite.id = some sitting.invite)
    (noErasure : ∀ tid, (requests tid).isErasure = false)
    (noRetry : ∀ tid, (requests tid).isRetry = false)
    (reached :
      (servingSitting platform requests sitting).Reaches System.anyRun
        (sittingStart platform requests sitting clock) config) :
    (0 < config.store.2.claims → config.store.2.reached) ∧
      config.store.2.claims ≤ 1 ∧
      (config.store.1.Complete platform sitting →
        (∀ tid, config.store.2.owed tid = false) →
          config.store.2.claims = 1) ∧
      ∀ tid, config.Finished tid → config.store.2.owed tid = false := by
  have admitted :
      ∀ tid op store, System.anyRun tid op store →
        admits sitting False tid op store :=
    fun _ _ _ _ impossible => impossible.elim
  have holds := sitting_holds known noErasure (reached.mono admitted)
  have inv :
      SittingInv platform requests sitting False config.store.1
        config.store.2 :=
    holds.1
  refine ⟨inv.counted, (inv.once noRetry).1, ?_, ?_⟩
  · intro complete nobodyOwes
    have notified : config.store.1.Notified sitting := by
      by_contra unnotified
      obtain ⟨tid, obliged⟩ := inv.obliged complete unnotified
      rcases obliged with owed | ⟨-, id, row, request, -⟩
      · rw [nobodyOwes tid] at owed
        cases owed
      · have notRetry := noRetry tid
        rw [request] at notRetry
        cases notRetry
    have atLeast := (inv.notified notified).1
    have atMost := (inv.once noRetry).1
    omega
  · intro tid finished
    obtain ⟨value, returned⟩ := finished
    have settled : Settled tid config.store := holds.post_of_returned returned
    cases isOwed : config.store.2.owed tid with
    | false => rfl
    | true => exact (settled.owes isOwed).elim

/-! ## Two verdicts at once -/

/-- A candidate's submission of one question of the sample assessment. -/
def answerOf (questionId submissionId : String) (attemptId : Nat) : Request :=
  .candidateSubmit
    { inviteId := 2
      email := "c@x"
      email_nonempty := Sample.candidate_addressed
      questionId := questionId
      candidateName := "Cy"
      consent := true
      language := "py"
      code := "x"
      submissionId := submissionId
      attemptId := attemptId }

/-- Both questions are submitted, and both verdicts are called back. -/
def bothVerdicts : Nat → Request
  | 0 => answerOf "a" "s" 1
  | 1 => answerOf "b" "t" 2
  | 2 => .assessmentsCallback (Sample.verdict "PASS")
  | 3 => .assessmentsCallback
      [("job_id", .str "t"), ("verdict", .str "FAIL")]
  | _ => .idle

/-- The sitting of the sample assessment. -/
def assessmentSitting : Sitting :=
  ⟨(Sample.invite 2).get (by decide +kernel), "c@x"⟩

/-- Both workers commit their verdicts before either of them counts. -/
theorem notification_claimed_once_by_racing_workers :
    ∃ config : Config Nat Op Resp Reply (Store × SittingLog),
      config.store.1.Complete (Sample.platform 3) assessmentSitting ∧
        config.store.2.claims = 1 := by
  have ran :
      ((servingSitting (Sample.platform 3) bothVerdicts
          assessmentSitting).runSchedule (fun _ _ _ => true)
        (sittingStart (Sample.platform 3) bothVerdicts assessmentSitting 0)
        (Sample.steps 0 27 ++ List.replicate 15 (1, .accepted "t") ++
          Sample.steps 2 6 ++ Sample.steps 3 6 ++ Sample.steps 2 3 ++
          Sample.steps 3 3 ++ Sample.steps 2 2 ++ Sample.steps 3 2 ++
          Sample.steps 2 6)).any
        fun config =>
          decide
              (config.store.1.Complete (Sample.platform 3)
                assessmentSitting) &&
            (List.range 4).all config.returned := by
    decide +kernel
  obtain ⟨config, reached, seen⟩ :=
    System.exists_of_runSchedule (fun _ _ _ _ => trivial) ran
  simp only [Bool.and_eq_true, decide_eq_true_eq] at seen
  have quiescent : config.Quiescent := by
    refine reached.quiescent seen.2 fun tid large => ?_
    match tid with
    | 0 | 1 | 2 | 3 => omega
    | _ + 4 => exact ⟨.done, rfl⟩
  have notErasure : ∀ tid, (bothVerdicts tid).isErasure = false := by
    intro tid
    match tid with
    | 0 | 1 | 2 | 3 | _ + 4 => rfl
  have notRetry : ∀ tid, (bothVerdicts tid).isRetry = false := by
    intro tid
    match tid with
    | 0 | 1 | 2 | 3 | _ + 4 => rfl
  obtain ⟨-, -, once, settled⟩ :=
    notification_claimed_once rfl notErasure notRetry reached
  exact
    ⟨config, seen.1,
      once seen.1 fun tid => settled tid (quiescent tid)⟩

/-! ## Faithfulness -/

end AssessmentPlatform
