import AssessmentPlatform.Records.GradingCommits

/-!
# What the candidate routes commit

Each route is followed through the gate it begins with, the draws it may
freeze, the sitting it may begin, and the transaction that it is for.
-/

namespace AssessmentPlatform

open Interleaving Interleaving.Program Rows Refusals

variable {deployment : Deployment} {served : Served}
variable {db after : Database} {token email : String} {invite : Invite}
variable {platform : Platform}

/-! ## The gate -/

theorem loadInviteOrError_eq_ok
    (loaded : loadInviteOrError served.around db token email = .ok invite) :
    fetch Invite.token token db.invites = some invite ∧
      invite.status = .active ∧
        (isExpired served.around.now invite.expiresAt = false ∨
          (invite.durationMinutes.isSome ∧ hasAttempt db invite email)) := by
  unfold loadInviteOrError at loaded
  cases found : fetch Invite.token token db.invites with
  | none => simp [found] at loaded
  | some row =>
      simp only [found, ite_throw_eq_ok, pure_eq_ok, not_not, not_and] at loaded
      obtain ⟨active, live, rfl⟩ := loaded
      refine ⟨rfl, active, ?_⟩
      cases expired : isExpired served.around.now row.expiresAt with
      | false => exact Or.inl rfl
      | true => exact Or.inr (by simpa using live expired)

theorem admitCandidate_gate {request : CandidateRequest}
    (asked : served.request = .candidate token request)
    (isEmail : deployment.auth.normalizeEmail request.address = email)
    (admitted : admitCandidate deployment served.around served.before token
      email = .ok invite) :
    fetch Invite.token token served.before.invites = some invite ∧
      Gate deployment served invite email := by
  unfold admitCandidate at admitted
  simp only [bind_eq_ok, pure_eq_ok] at admitted
  obtain ⟨_, _, loaded, isLoaded, _, isInvited, rfl⟩ := admitted
  obtain ⟨found, active, live⟩ := loadInviteOrError_eq_ok isLoaded
  have sameToken : loaded.token = token := key_of_fetch found
  refine ⟨found, ⟨request, sameToken ▸ asked, isEmail⟩, mem_of_fetch found,
    active, live, ?_⟩
  unfold checkInvited at isInvited
  by_cases listed : invited deployment loaded email
  · exact listed
  · simp [listed] at isInvited

/-! ## Draws -/

section Draws

variable {slot : AssessmentQuestion} {slots : List AssessmentQuestion}
variable {setId : String}

theorem SlotOutcome.commits {handled : Handled Question}
    (outcome : SlotOutcome db invite email slot setId handled)
    (gate : Gate deployment served invite email)
    (isInvite : invite ∈ db.invites) (isSlot : slot ∈ db.slots)
    (isAssessment : invite.assessmentId = some slot.assessmentId)
    (isSet : slot.variantSetId = some setId) :
    Commits deployment served none db handled.1 := by
  cases outcome with
  | frozen => exact .refl
  | drawn member isVariant constraints =>
      exact Commits.one
        (.drawn gate isInvite isSlot isAssessment isSet member isVariant)
        constraints
  | refused => exact .refl

theorem slotQuestions_commits
    (gate : Gate deployment served invite email)
    (isInvite : invite ∈ db.invites)
    (isSlots : ∀ slot ∈ slots, slot ∈ db.slots ∧
      invite.assessmentId = some slot.assessmentId) :
    Commits deployment served none db
      (slotQuestions invite email slots db).1 := by
  induction slots generalizing db with
  | nil => exact .refl
  | cons slot rest inductionHypothesis =>
      obtain ⟨isSlot, isAssessment⟩ := isSlots slot List.mem_cons_self
      have isRest : ∀ other ∈ rest, other ∈ db.slots ∧
          invite.assessmentId = some other.assessmentId :=
        fun other member => isSlots other (List.mem_cons_of_mem _ member)
      unfold slotQuestions
      split
      · next setId isSet =>
        have outcome := resolveSlotVariant_outcome db invite slot setId email
        have here : Commits deployment served none db
            (resolveSlotVariant db invite slot setId email).1 :=
          outcome.commits gate isInvite isSlot isAssessment isSet
        apply Handled.andThen_keeps here
        intro question _
        have there : Commits deployment served none db
            (slotQuestions invite email rest
              (resolveSlotVariant db invite slot setId email).1).1 := by
          apply here.trans
          apply inductionHypothesis
          · rw [outcome.drawsOnly.rest]
            exact isInvite
          · rw [outcome.drawsOnly.rest]
            exact isRest
        exact Handled.andThen_keeps there fun _ _ => there
      · have there := inductionHypothesis isInvite isRest
        exact Handled.andThen_keeps there fun _ _ => there

theorem mem_slotsOf {assessmentId : String} :
    slot ∈ db.slotsOf assessmentId ↔
      slot ∈ db.slots ∧ slot.assessmentId = assessmentId := by
  simp [Database.slotsOf, List.mem_insertionSort]

theorem inviteQuestions_commits
    (gate : Gate deployment served invite email)
    (isInvite : invite ∈ db.invites) :
    Commits deployment served none db
      (inviteQuestions invite email db).1 := by
  unfold inviteQuestions
  split
  · next assessmentId isAssessment =>
    split
    · exact .refl
    · have there : Commits deployment served none db
          (slotQuestions invite email (db.slotsOf assessmentId) db).1 := by
        apply slotQuestions_commits gate isInvite
        intro slot member
        obtain ⟨isSlot, rfl⟩ := mem_slotsOf.mp member
        exact ⟨isSlot, isAssessment⟩
      apply Handled.andThen_keeps there
      intro questions _
      split <;> exact there
  · split <;> exact .refl

theorem resolveQuestion_fst (questionId : Option String) :
    (resolveQuestion invite questionId email db).1 =
      (inviteQuestions invite email db).1 := by
  unfold resolveQuestion Handled.andThen
  split
  · dsimp only
    split
    · split <;> rfl
    · split <;> rfl
  · rfl

/-- The question of a request is one that the invite presents. -/
theorem resolveQuestion_presented {questionId : Option String}
    {question : Question}
    (resolved :
      (resolveQuestion invite questionId email db).2 = .ok question) :
    question ∈ (resolveQuestion invite questionId email db).1.questions ∧
      question.id ∈
        ((resolveQuestion invite questionId email db).1.platform
          deployment).inviteQuestions invite email := by
  rw [resolveQuestion_fst]
  unfold resolveQuestion at resolved
  obtain ⟨questions, answered, same⟩ := Handled.andThen_eq_ok resolved
  rw [same] at resolved
  apply mem_inviteQuestions answered
  cases questionId with
  | none =>
      dsimp only at resolved
      split at resolved
      · obtain rfl := Except.ok.inj resolved
        exact List.mem_singleton_self _
      · cases resolved
  | some id =>
      dsimp only at resolved
      split at resolved
      · next found =>
        obtain rfl := Except.ok.inj resolved
        exact List.mem_of_find?_eq_some found
      · cases resolved

end Draws

/-! ## Beginning a sitting -/

theorem claimAllowance_all (orgId : Nat) :
    (claimAllowance platform orgId).All Op.metering := by
  unfold claimAllowance
  split
  · refine All.bind (consume_all _ _ _) fun consumed => ?_
    split <;> exact All.pure _ _
  · exact All.pure _ _

theorem Op.metering.grading {op : Op} (metering : op.metering) :
    op.grading := by
  cases op <;> trivial

theorem attemptOf_eq_some {inviteId : Nat} {attempt : CandidateAttempt}
    (found : db.attemptOf inviteId email = some attempt) :
    attempt ∈ db.attempts ∧ attempt.inviteId = inviteId ∧
      attempt.candidateEmail = email := by
  have matched := List.find?_some found
  simp only [Bool.and_eq_true, beq_iff_eq] at matched
  exact ⟨List.mem_of_find?_eq_some found, matched⟩

theorem attemptOf_eq {attempt : CandidateAttempt} (unique : db.UniqueKeys)
    (member : attempt ∈ db.attempts) :
    db.attemptOf attempt.inviteId attempt.candidateEmail = some attempt := by
  apply unique.attemptCandidate.find_eq member (by simp)
  intro other matched
  simpa using matched

/-- The attempt that a request goes on with is stored, up to its metadata. -/
def Attended (db : Database) (invite : Invite) (email : String)
    (attempt : CandidateAttempt) : Prop :=
  attempt.candidateEmail = email ∧
    ∃ row ∈ db.attempts, row.inviteId = invite.id ∧
      row.candidateEmail = email ∧ row.startedAt = attempt.startedAt

/-- What beginning a sitting leaves. -/
structure Begun (deployment : Deployment) (served : Served) (invite : Invite)
    (email : String) (db : Database)
    (result : Except Refusal CandidateAttempt × Database) : Prop where
  commits : Commits deployment served none db result.2
  attended : ∀ attempt, result.1 = .ok attempt →
    Attended result.2 invite email attempt

theorem begun_of_refusal {state : Database} {refusal : Refusal}
    (commits : Commits deployment served none db state) :
    Begun deployment served invite email db (.error refusal, state) :=
  ⟨commits, fun _ answered => nomatch answered⟩

/-- A sitting that exists is gone on with; it may still get its name. -/
theorem named_begun {existing : CandidateAttempt} {name : String}
    (found : db.attemptOf invite.id email = some existing)
    (nameless : existing.candidateName = none) :
    Begun deployment served invite email db
      (.ok { existing with candidateName := some name },
        (Database.perform deployment served.around
          (.saveAttemptName existing.id name) db).2) := by
  obtain ⟨member, isInvite, isEmail⟩ := attemptOf_eq_some found
  constructor
  · exact commits_settle (.named name member nameless)
  · intro attempt answered
    obtain rfl := Except.ok.inj answered
    simp only [Database.perform, Database.setAttempts, Database.settle]
    split
    · exact ⟨isEmail, _,
        mem_updateWhere.mpr (Or.inl ⟨existing, member, by simp, rfl⟩),
        isInvite, isEmail, rfl⟩
    · exact ⟨isEmail, existing, member, isInvite, isEmail, rfl⟩

theorem existing_begun {existing : CandidateAttempt}
    (found : db.attemptOf invite.id email = some existing) :
    Begun deployment served invite email db (.ok existing, db) := by
  obtain ⟨member, isInvite, isEmail⟩ := attemptOf_eq_some found
  refine ⟨.refl, ?_⟩
  intro attempt answered
  obtain rfl := Except.ok.inj answered
  exact ⟨isEmail, existing, member, isInvite, isEmail, rfl⟩

theorem startAttempt_begun {name : Option String} {consent : Bool}
    (gate : Gate deployment served invite email)
    (isInvite : invite ∈ db.invites)
    (sameAttempts : db.attempts = served.before.attempts) :
    Begun deployment served invite email db
      (runProgram deployment served.around
        (startAttempt platform invite email name consent db.nextId) db) := by
  unfold startAttempt runProgram
  rw [run_bind]
  simp only [run_statement, Database.perform]
  split
  · next existing found =>
    split
    · next nameless =>
      simp only [run_bind, run_statement]
      exact named_begun found nameless
    · exact existing_begun found
  · next absent =>
    split
    · exact begun_of_refusal .refl
    split
    case h_2 => exact begun_of_refusal .refl
    next orgId _ =>
    rw [run_bind]
    have only : UsageOnly db
        (runProgram deployment served.around (claimAllowance platform orgId)
          db).2 :=
      run_usageOnly (claimAllowance_all orgId) db
    have metered : Commits deployment served none db
        (runProgram deployment served.around (claimAllowance platform orgId)
          db).2 :=
      run_grading ((claimAllowance_all orgId).mono
        fun _ => Op.metering.grading) db
    unfold runProgram at only metered
    revert only metered
    generalize (claimAllowance platform orgId).run
      (Database.perform deployment served.around) db = claimed
    intro only metered
    have isInvite : invite ∈ claimed.2.invites := by
      rw [only]
      exact isInvite
    have attempts : claimed.2.attempts = db.attempts := by
      rw [only]
    have nextId : claimed.2.nextId = db.nextId := by
      rw [only]
    have absent : claimed.2.attemptOf invite.id email = none := by
      unfold Database.attemptOf at absent ⊢
      rw [attempts]
      exact absent
    split
    · exact begun_of_refusal metered
    rw [run_bind, run_bind]
    simp only [run_statement, Database.perform, ← nextId]
    rw [show max claimed.2.nextId (claimed.2.nextId + 1) =
      claimed.2.nextId + 1 by omega]
    rcases Database.inserts_cases claimed.2 _ with
      ⟨inserted, constraints⟩ | refused
    · rw [inserted, if_pos rfl]
      have started : Commits deployment served none claimed.2 _ :=
        Commits.one (.started _ gate isInvite rfl absent
          (attempts.trans sameAttempts) rfl rfl rfl rfl) constraints
      refine ⟨metered.trans started, ?_⟩
      intro attempt answered
      obtain rfl := Except.ok.inj answered
      exact ⟨rfl, _, List.mem_append_right _ List.mem_cons_self, rfl, rfl, rfl⟩
    · rw [refused, if_neg Bool.false_ne_true]
      simp only [run_bind, run_statement, Database.perform, absent]
      exact begun_of_refusal metered

theorem runRequest_eq_ok {Value : Type} {value : Value}
    {program : Prog (Except Refusal Value)}
    (answered :
      (runRequest deployment served.around program db).2 = .ok value) :
    (runProgram deployment served.around program db).1 = .ok value := by
  unfold runRequest at answered
  cases reply : (runProgram deployment served.around program db).1 with
  | error refusal => simp [reply, Except.mapError] at answered
  | ok found => simpa [reply, Except.mapError] using answered

theorem startInvite_commits {body : CandidateStartIn}
    (asked : served.request = .candidate token (.start body)) :
    Commits deployment served none served.before
      (startInvite deployment served.around served.before token body).1 := by
  unfold startInvite
  dsimp only
  generalize isEmail :
    deployment.auth.normalizeEmail body.candidateEmail = email
  apply checked_keeps .refl
  intro invite admitted
  obtain ⟨_, gate⟩ := admitCandidate_gate asked isEmail admitted
  apply checked_keeps .refl
  intro _ _
  have begun : Begun deployment served invite email served.before
      (runProgram deployment served.around
        (startAttempt (served.before.platform deployment) invite email
          body.candidateName body.consent served.before.nextId)
        served.before) :=
    startAttempt_begun gate gate.member rfl
  apply Handled.andThen_keeps begun.commits
  intro attempt answered
  obtain ⟨isEmail, _⟩ := begun.attended attempt (runRequest_eq_ok answered)
  unfold candidateQuestionView
  rw [isEmail]
  have questioned := begun.commits.trans (inviteQuestions_commits gate (by
    rw [run_gradingOnly]
    exact gate.member))
  exact Handled.andThen_keeps questioned fun _ _ => questioned

theorem candidateRun_commits {address : String} {questionId : Option String}
    (asked : served.request = .candidate token (.run address questionId)) :
    Commits deployment served none served.before
      (candidateRun deployment served.around served.before token address
        questionId).1 := by
  unfold candidateRun
  dsimp only
  generalize isEmail : deployment.auth.normalizeEmail address = email
  apply checked_keeps .refl
  intro invite admitted
  obtain ⟨_, gate⟩ := admitCandidate_gate asked isEmail admitted
  have resolved : Commits deployment served none served.before
      (resolveQuestion invite questionId email served.before).1 := by
    rw [resolveQuestion_fst]
    exact inviteQuestions_commits gate gate.member
  apply Handled.andThen_keeps resolved
  intro question _
  exact checked_keeps resolved fun _ _ => resolved

/-! ## Submissions -/

theorem candidateSubmit_commits {request : CandidateSubmit}
    (gate : Gate deployment served invite request.email)
    (isInvite : (db.platform deployment).invite request.inviteId = some invite)
    (sameAttempts : db.attempts = served.before.attempts)
    (fresh : request.attemptId = db.nextId) :
    Commits deployment served none db
      (runProgram deployment served.around
        (candidateSubmit (db.platform deployment) request) db).2 := by
  unfold candidateSubmit
  simp only [isInvite]
  split
  · exact .refl
  next presented =>
  unfold runProgram
  rw [run_bind]
  split
  · exact .refl
  have reads :
      ((issue (.selectSubmitted invite.id request.email request.questionId) :
        Prog _).run (Database.perform deployment served.around) db).2 = db :=
    rfl
  rw [reads, run_bind]
  have begun : Begun deployment served invite request.email db
      (runProgram deployment served.around
        (getOrStartAttempt (db.platform deployment) invite request.email
          request.candidateName request.consent request.attemptId) db) := by
    rw [getOrStartAttempt_eq_startAttempt, fresh]
    exact startAttempt_begun gate (mem_of_fetch isInvite) sameAttempts
  have only : GradingOnly db
      (runProgram deployment served.around
        (getOrStartAttempt (db.platform deployment) invite request.email
          request.candidateName request.consent request.attemptId) db).2 :=
    run_gradingOnly _ db
  unfold runProgram at begun only
  revert begun only
  generalize (getOrStartAttempt (db.platform deployment) invite request.email
    request.candidateName request.consent request.attemptId).run
      (Database.perform deployment served.around) db = started
  intro begun only
  split
  · exact begun.commits
  next attempt isAttempt =>
  obtain ⟨-, row, isRow, sameInvite, sameEmail, sameStart⟩ :=
    begun.attended attempt isAttempt
  split
  · exact begun.commits
  rw [run_bind, run_bind]
  simp only [run_statement, Database.perform, Database.inserts]
  split
  · next constraints =>
    apply begun.commits.trans
    have submitted : Commits deployment served none started.2 _ :=
      Commits.one (.submitted row _ gate (by
        rw [only]
        exact mem_of_fetch isInvite) rfl rfl isRow sameInvite sameEmail (by
        rw [only.platform_eq]
        exact Decidable.not_not.mp presented) (by
        rw [only.platform_eq]
        unfold submitIsLate
        rw [sameStart])) constraints
    apply submitted.trans
    have rest : (do
          issue .commit
          let _ ← issue (.refresh request.submissionId)
          triggerAgent (db.platform deployment) request.submissionId
          return .ok request.submissionId :
        Prog (Except Refusal String)).All Op.grading := by
      refine All.statement trivial fun _ => All.statement trivial fun _ => ?_
      refine All.bind ?_ fun _ => All.pure _ _
      exact (triggerAgent_judging _).mono fun _ => Op.judging.grading
    exact run_grading rest _
  · exact begun.commits

theorem submit_commits {body : CandidateSubmitIn}
    (asked : served.request = .candidate token (.submit body))
    (constraints : served.before.Constraints) :
    Commits deployment served none served.before
      (submit deployment served.around served.before token body).1 := by
  unfold submit
  dsimp only
  split
  · exact .refl
  next nonempty =>
  apply checked_keeps .refl
  intro invite admitted
  obtain ⟨_, gate⟩ := admitCandidate_gate asked rfl admitted
  have resolved : Commits deployment served none served.before
      (resolveQuestion invite body.questionId
        (deployment.auth.normalizeEmail body.candidateEmail)
        served.before).1 := by
    rw [resolveQuestion_fst]
    exact inviteQuestions_commits gate gate.member
  apply Handled.andThen_keeps resolved
  intro question _
  apply resolved.trans
  have draws := inviteQuestions_drawsOnly invite
    (deployment.auth.normalizeEmail body.candidateEmail) served.before
  rw [← resolveQuestion_fst body.questionId] at draws
  apply candidateSubmit_commits gate _ _ rfl
  · change fetch Invite.id invite.id _ = some invite
    rw [draws.rest]
    exact constraints.uniqueKeys.invite.fetch_eq gate.member rfl
  · rw [draws.rest]

/-! ## Events, feedback and drafts -/

theorem candidateIntegrityEvents_commits {body : IntegrityEventsIn}
    (asked : served.request = .candidate token (.events body))
    (recorded : candidateIntegrityEvents deployment served.around
      served.before token body = .ok after) :
    Commits deployment served none served.before after := by
  unfold candidateIntegrityEvents at recorded
  obtain ⟨invite, admitted, executed⟩ := bind_eq_ok.mp recorded
  obtain ⟨found, gate⟩ := admitCandidate_gate asked rfl admitted
  exact Commits.of_execute executed
    (.eventsRecorded token body _ asked rfl found gate gate.member)

theorem candidateFeedback_commits {body : CandidateFeedbackIn}
    (asked : served.request = .candidate token (.feedback body))
    (given : candidateFeedback deployment served.around served.before token
      body = .ok after) :
    Commits deployment served none served.before after := by
  unfold candidateFeedback at given
  obtain ⟨invite, admitted, written⟩ := bind_eq_ok.mp given
  obtain ⟨_, gate⟩ := admitCandidate_gate asked rfl admitted
  split at written
  · cases written
  next attempt isAttempt =>
  obtain ⟨member, isInvite, isEmail⟩ := attemptOf_eq_some isAttempt
  simp only [throw_bind, ite_throw_eq_ok] at written
  obtain ⟨_, written⟩ := written
  split at written
  · cases written
  next orgId isOrg =>
  split at written
  · next constraints =>
    obtain rfl := pure_eq_ok.mp written
    rw [CandidateRequest.address, ← isEmail] at gate
    exact Commits.one (.feedbackGiven _ gate gate.member member member
      isInvite rfl rfl isOrg) constraints
  · cases written

theorem saveDraft_commits {questionId : String} {body : CandidateDraftIn}
    (gate : Gate deployment served invite email)
    (isInvite : invite ∈ db.invites)
    (presented : questionId ∈
      (db.platform deployment).inviteQuestions invite email)
    (saved : saveDraft served.around invite email questionId body db =
      .ok after) :
    Commits deployment served none db after := by
  unfold saveDraft at saved
  dsimp only at saved
  split at saved
  · apply Commits.of_execute saved
    exact .draftAdded _ gate isInvite rfl rfl presented
  · next draft found =>
    have matched := List.find?_some found
    simp only [Bool.and_eq_true, beq_iff_eq] at matched
    obtain ⟨⟨sameInvite, isEmail⟩, _⟩ := matched
    rw [← isEmail] at gate
    apply Commits.of_execute saved
    exact .draftEdited _ _ gate isInvite (List.mem_of_find?_eq_some found)
      sameInvite

theorem candidateSaveDraft_commits {body : CandidateDraftIn}
    (asked : served.request = .candidate token (.saveDraft body)) :
    Commits deployment served none served.before
      (candidateSaveDraft deployment served.around served.before token
        body).1 := by
  unfold candidateSaveDraft
  dsimp only
  generalize isEmail :
    deployment.auth.normalizeEmail body.candidateEmail = email
  apply checked_keeps .refl
  intro invite admitted
  obtain ⟨_, gate⟩ := admitCandidate_gate asked isEmail admitted
  have resolved : Commits deployment served none served.before
      (resolveQuestion invite body.questionId email served.before).1 := by
    rw [resolveQuestion_fst]
    exact inviteQuestions_commits gate gate.member
  apply Handled.andThen_keeps resolved
  intro question answered
  apply lastly_keeps resolved
  intro after saved
  apply resolved.trans
  have draws := inviteQuestions_drawsOnly invite email served.before
  rw [← resolveQuestion_fst body.questionId] at draws
  apply saveDraft_commits gate _ (resolveQuestion_presented answered).2 saved
  rw [draws.rest]
  exact gate.member

end AssessmentPlatform
