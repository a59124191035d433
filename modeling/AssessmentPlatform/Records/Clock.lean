import AssessmentPlatform.Records.Sample
import AssessmentPlatform.Records.Tenancy

/-!
# The clock of a sitting

No request moves the columns of a sitting that its deadline is computed from,
or those that its invite froze.
-/

namespace AssessmentPlatform

open Rows

variable {deployment : Deployment} {served : Served} {scope : Option Nat}
variable {db after left base : Database}

/-! ## Columns that no request moves -/

/-- The columns of a sitting that stay. -/
def CandidateAttempt.clock (row : CandidateAttempt) :
    Nat × Time × Option Time × Option String :=
  (row.inviteId, row.startedAt, row.consentAt, row.consentVersion)

/-- The columns of an invite that stay. -/
def Invite.terms (row : Invite) :
    String × Option String × Option String × Bool × Option Int :=
  (row.token, row.questionId, row.assessmentId, row.proctored,
    row.durationMinutes)

/-- A row that goes on with an earlier one: its clock stays, and until it is
erased so do its address and the name it has. -/
structure Continues (was row : CandidateAttempt) : Prop where
  id : was.id = row.id
  clock : was.clock = row.clock
  standing : row.erasedAt = none →
    was.erasedAt = none ∧ was.candidateEmail = row.candidateEmail ∧
      ∀ name ∈ was.candidateName, row.candidateName = some name

theorem Continues.refl (row : CandidateAttempt) : Continues row row where
  id := rfl
  clock := rfl
  standing isStanding := ⟨isStanding, rfl, fun _ isName => isName⟩

theorem Continues.trans {first second third : CandidateAttempt}
    (early : Continues first second) (late : Continues second third) :
    Continues first third where
  id := early.id.trans late.id
  clock := early.clock.trans late.clock
  standing isStanding := by
    obtain ⟨stood, sameEmail, sameName⟩ := late.standing isStanding
    obtain ⟨hasStood, wasEmail, wasName⟩ := early.standing stood
    exact ⟨hasStood, wasEmail.trans sameEmail,
      fun name isName => sameName name (wasName name isName)⟩

/-- A sitting that a request began, behind the gate, where none was. -/
structure Begins (deployment : Deployment) (served : Served) (db : Database)
    (invite : Invite) (row : CandidateAttempt) : Prop where
  gate : Gate deployment served invite row.candidateEmail
  id : row.id = db.nextId
  absent : served.before.attemptOf invite.id row.candidateEmail = none
  inviteId : row.inviteId = invite.id
  startedAt : row.startedAt = served.around.now
  consentAt : row.consentAt = some served.around.now

/-- Where the sittings of a state come from. -/
def Sittings (deployment : Deployment) (served : Served)
    (db after : Database) : Prop :=
  ∀ row ∈ after.attempts,
    (∃ was ∈ db.attempts, Continues was row) ∨
      ∃ invite, Begins deployment served db invite row

theorem sittings_of_subset (subset : after.attempts ⊆ db.attempts) :
    Sittings deployment served db after :=
  fun row member => Or.inl ⟨row, subset member, .refl row⟩

theorem sittings_of_update {matched : CandidateAttempt → Bool}
    {change : CandidateAttempt → CandidateAttempt}
    (isUpdate : after.attempts = updateWhere matched change db.attempts)
    (continues : ∀ row ∈ db.attempts, matched row →
      Continues row (change row)) : Sittings deployment served db after := by
  intro row member
  rw [isUpdate] at member
  obtain ⟨was, isWas, rfl⟩ := mem_of_mem_updateWhere member
  refine Or.inl ⟨was, isWas, ?_⟩
  by_cases isMatched : matched was
  · simpa [isMatched] using continues was isWas isMatched
  · simpa [isMatched] using Continues.refl was

theorem KeepsAttempt.continues {change : CandidateAttempt → CandidateAttempt}
    (keeps : KeepsAttempt change) (row : CandidateAttempt) :
    Continues row (change row) where
  id := (keeps.id row).symm
  clock := by
    simp only [CandidateAttempt.clock, keeps.inviteId, keeps.startedAt,
      keeps.consentAt, keeps.consentVersion]
  standing isStanding := by
    rw [keeps.erasedAt] at isStanding
    exact ⟨isStanding, (keeps.candidateEmail row).symm,
      fun name isName => (keeps.candidateName row).trans isName⟩

theorem sittings_purged (db : Database) (orgId : Nat) :
    Sittings deployment served db (db.purged orgId) :=
  sittings_of_subset fun _ member => (mem_deleteWhere.mp member).1

theorem Enters.sittings {account : Interviewer} {gaveUp : Option Nat}
    (enters : Enters db account gaveUp base) :
    Sittings deployment served db base := by
  cases enters with
  | newcomer => exact sittings_of_subset fun _ member => member
  | seatless => exact sittings_of_subset fun _ member => member
  | leaving _ _ gaveUp =>
      obtain ⟨rfl, _⟩ := leaveEmptyOrg_eq_ok gaveUp
      exact sittings_purged db _

/-- Every sitting goes on with an earlier one or was begun behind the gate. -/
theorem Change.sittings (change : Change deployment served scope db after)
    (keyed : Keyed CandidateAttempt.id db.attempts) :
    Sittings deployment served db after := by
  cases change with
  | founded _ enters =>
      have entered : Sittings deployment served db _ := enters.sittings
      exact entered
  | joined enters =>
      have entered : Sittings deployment served db _ := enters.sittings
      exact entered
  | accountDeleted deleted =>
      obtain ⟨left, leaving, rfl⟩ := Database.purgeAccount_left deleted
      cases leaving with
      | last => exact sittings_of_subset fun _ member =>
          (mem_deleteWhere.mp member).1
      | _ => exact sittings_of_subset fun _ member => member
  | started attempt gate isInvite isNext absent same isOf isNow consents =>
      intro row member
      rcases List.mem_append.mp member with old | isNew
      · exact Or.inl ⟨row, old, .refl row⟩
      · obtain rfl := List.mem_singleton.mp isNew
        refine Or.inr ⟨_, gate, isNext, ?_, isOf, isNow, consents⟩
        unfold Database.attemptOf at absent ⊢
        rw [← same]
        exact absent
  | @named _ attempt name isAttempt nameless =>
      apply sittings_of_update rfl
      intro row isRow matched
      obtain rfl := keyed.eq isRow isAttempt (beq_iff_eq.mp matched)
      refine { Continues.refl row with standing := fun isStanding => ?_ }
      refine ⟨isStanding, rfl, fun name isName => ?_⟩
      rw [nameless] at isName
      cases isName
  | stamped _ _ keeps =>
      exact sittings_of_update rfl fun row _ _ => keeps.continues row
  | erased =>
      apply sittings_of_update rfl
      intro row _ _
      exact { Continues.refl row with standing := nofun }
  | _ => exact sittings_of_subset fun _ member => member

/-! ## The terms of an invite -/

/-- What every transaction keeps of the invites. -/
def KeepsTerms (db after : Database) : Prop :=
  Grown Invite.id Invite.terms db.nextId db.invites after.invites

theorem KeepsTerms.refl (db : Database) : KeepsTerms db db :=
  Derived.grown (.refl _)

theorem keepsTerms_purged (db : Database) (orgId : Nat) :
    KeepsTerms db (db.purged orgId) :=
  Derived.grown (derived_deleteWhere _)

theorem Enters.keepsTerms {account : Interviewer} {gaveUp : Option Nat}
    (enters : Enters db account gaveUp base) : KeepsTerms db base := by
  cases enters with
  | newcomer => exact KeepsTerms.refl db
  | seatless => exact KeepsTerms.refl db
  | leaving _ _ gaveUp =>
      obtain ⟨rfl, _⟩ := leaveEmptyOrg_eq_ok gaveUp
      exact keepsTerms_purged db _

theorem Database.Left.keepsTerms {interviewerId : Nat}
    (leaving : Database.Left db interviewerId left) : KeepsTerms db left := by
  cases leaving with
  | last => exact keepsTerms_purged db _
  | _ => exact KeepsTerms.refl db

theorem Change.keepsTerms
    (change : Change deployment served scope db after) :
    KeepsTerms db after := by
  cases change with
  | founded _ enters => exact enters.keepsTerms
  | joined enters => exact enters.keepsTerms
  | accountDeleted deleted =>
      obtain ⟨left, leaving, rfl⟩ := Database.purgeAccount_left deleted
      exact leaving.keepsTerms.trans
        (Derived.grown (derived_updateWhere fun _ => rfl))
        (Nat.le_refl db.nextId)
  | questionDeleted => exact Derived.grown (derived_deleteWhere _)
  | invitesAdded invites isNext =>
      apply Grown.append
      intro row member
      have isKey : row.id ∈ invites.map Invite.id :=
        List.mem_map_of_mem member
      rw [isNext, List.mem_range'_1] at isKey
      exact isKey.1
  | inviteRevoked isInvite => exact Derived.grown (derived_save isInvite rfl)
  | erased => exact Derived.grown (derived_updateWhere fun _ => rfl)
  | recipientsDropped _ _ keeps =>
      apply Derived.grown (derived_updateWhere _)
      intro row
      obtain ⟨_, _, same⟩ := keeps.rest row
      rw [same]
      rfl
  | _ => exact KeepsTerms.refl db

/-! ## What the routes make of the clock -/

section Routes

open Interleaving Interleaving.Program

variable {platform : Platform} {invite : Invite} {token email : String}

theorem checked_eq_ok {Value Next : Type} {read : Except HTTPException Value}
    {next : Value → Handled Next} {result : Next}
    (answered : (checked db read next).2 = .ok result) :
    ∃ value, read = .ok value ∧ checked db read next = next value := by
  unfold checked at answered ⊢
  cases read with
  | error refused => cases answered
  | ok value => exact ⟨value, rfl, rfl⟩

/-- A sitting that exists is gone on with as it began. -/
theorem startAttempt_existing {name : Option String} {consent : Bool}
    {attemptId : Nat} {existing attempt : CandidateAttempt}
    (found : db.attemptOf invite.id email = some existing)
    (answered : (runProgram deployment served.around
      (startAttempt platform invite email name consent attemptId) db).1 =
        .ok attempt) :
    attempt.startedAt = existing.startedAt := by
  unfold startAttempt runProgram at answered
  rw [run_bind] at answered
  simp only [run_statement, Database.perform, found] at answered
  split at answered
  · simp only [run_bind, run_statement, run_pure] at answered
    obtain rfl := Except.ok.inj answered
    rfl
  · obtain rfl := Except.ok.inj answered
    rfl

/-- The deadline that `/start` answers is the one of the sitting that it goes
on with. -/
theorem startInvite_reports {body : CandidateStartIn}
    {deadline : Option Time}
    (asked : served.request = .candidate token (.start body))
    (answered : (startInvite deployment served.around served.before token
      body).2 = .ok deadline) :
    ∃ invite attempt, fetch Invite.token token served.before.invites =
        some invite ∧
      Gate deployment served invite
        (deployment.auth.normalizeEmail body.candidateEmail) ∧
      (runProgram deployment served.around
        (startAttempt (served.before.platform deployment) invite
          (deployment.auth.normalizeEmail body.candidateEmail)
          body.candidateName body.consent served.before.nextId)
        served.before).1 = .ok attempt ∧
      deadline = deadlineFor attempt.startedAt invite.durationMinutes ∧
      (startInvite deployment served.around served.before token
        body).1.attempts =
        (runProgram deployment served.around
          (startAttempt (served.before.platform deployment) invite
            (deployment.auth.normalizeEmail body.candidateEmail)
            body.candidateName body.consent served.before.nextId)
          served.before).2.attempts := by
  unfold startInvite at answered ⊢
  obtain ⟨invite, admitted, same⟩ := checked_eq_ok answered
  rw [same] at answered ⊢
  obtain ⟨_, _, same⟩ := checked_eq_ok answered
  rw [same] at answered ⊢
  obtain ⟨attempt, started, same⟩ := Handled.andThen_eq_ok answered
  rw [same] at answered ⊢
  unfold candidateQuestionView at answered ⊢
  obtain ⟨_, _, same⟩ := Handled.andThen_eq_ok answered
  rw [same] at answered ⊢
  obtain ⟨found, gate⟩ := admitCandidate_gate asked rfl admitted
  refine ⟨invite, attempt, found, gate, runRequest_eq_ok started,
    (computeDeadline_eq_ok.mp answered).2, ?_⟩
  rw [(inviteQuestions_drawsOnly _ _ _).rest]
  rfl

/-- Every submission was there before, with the same mark. -/
def KeepsLate (db after : Database) : Prop :=
  Derived (fun row => (row.id, row.late)) db.submissions after.submissions

theorem keepsLate_settle (keeps : KeepsLate db after) :
    KeepsLate db (db.settle after) := by
  unfold Database.settle
  split
  · exact keeps
  · exact Derived.refl _

theorem keepsLate_inserts (keeps : KeepsLate db after) :
    KeepsLate db (db.inserts after).2 := by
  unfold Database.inserts
  split
  · exact keeps
  · exact Derived.refl _

theorem perform_keepsLate {op : Op} (grading : op.grading) (db : Database) :
    KeepsLate db (Database.perform deployment served.around op db).2 := by
  cases op with
  | casSubmission id expectStatus expectAttempts values =>
      apply keepsLate_settle
      apply derived_updateWhere
      intro row
      rw [(keepsSubmission_apply values _).id,
        (keepsSubmission_apply values _).late]
  | saveSubmission loaded new =>
      simp only [Database.perform]
      split
      · exact Derived.refl _
      · apply keepsLate_settle
        apply derived_updateWhere
        intro row
        rw [(keepsSubmission_flush loaded new _).id,
          (keepsSubmission_flush loaded new _).late]
  | insertSubmission => exact grading.elim
  | eraseSubmissions => exact grading.elim
  | _ =>
      first
        | exact Derived.refl _
        | exact keepsLate_settle (Derived.refl _)
        | exact keepsLate_inserts (Derived.refl _)

theorem run_keepsLate {α : Type} {program : Prog α}
    (all : program.All Op.grading) (db : Database) :
    KeepsLate db (runProgram deployment served.around program db).2 := by
  have keeps : Program.Triple (Database.perform deployment served.around)
      (KeepsLate db) program fun _ => KeepsLate db := by
    apply all.triple
    intro op grading state kept
    exact Derived.trans kept (perform_keepsLate grading state)
  exact keeps db (Derived.refl _)

/-- The mark of a submission is the lateness of the sitting it belongs to. -/
theorem candidateSubmit_late {request : CandidateSubmit} {id : String}
    {existing : CandidateAttempt}
    (isInvite : platform.invite request.inviteId = some invite)
    (found : db.attemptOf invite.id request.email = some existing)
    (answered : (runProgram deployment served.around
      (candidateSubmit platform request) db).1 = .ok id) :
    id = request.submissionId ∧
      ∀ sub ∈ (runProgram deployment served.around
        (candidateSubmit platform request) db).2.submissions, sub.id = id →
          sub.late = submitIsLate platform invite existing served.around.now := by
  unfold candidateSubmit at answered ⊢
  simp only [isInvite] at answered ⊢
  split at answered
  · cases answered
  next presented =>
  rw [if_neg presented]
  unfold runProgram at answered ⊢
  rw [run_bind] at answered ⊢
  split at answered
  · cases answered
  next notSubmitted =>
  rw [if_neg notSubmitted]
  have reads :
      ((issue (.selectSubmitted invite.id request.email request.questionId) :
        Prog _).run (Database.perform deployment served.around) db).2 = db :=
    rfl
  rw [reads, run_bind] at answered ⊢
  have goesOn : ∀ attempt,
      (runProgram deployment served.around
        (getOrStartAttempt platform invite request.email
          request.candidateName request.consent request.attemptId) db).1 =
        .ok attempt → attempt.startedAt = existing.startedAt := by
    intro attempt started
    rw [getOrStartAttempt_eq_startAttempt] at started
    exact startAttempt_existing found started
  unfold runProgram at goesOn
  revert goesOn answered
  generalize (getOrStartAttempt platform invite request.email
    request.candidateName request.consent request.attemptId).run
      (Database.perform deployment served.around) db = started
  intro answered goesOn
  split at answered
  · cases answered
  next attempt isAttempt =>
  split at answered
  · cases answered
  next fits =>
  rw [if_neg fits]
  revert answered
  rw [run_bind, run_bind]
  simp only [run_statement, Database.perform, Database.inserts]
  split
  · next constraints =>
    intro answered
    have rest : (do
          issue .commit
          let _ ← issue (.refresh request.submissionId)
          triggerAgent platform request.submissionId
          return .ok request.submissionId :
        Prog (Except Refusal String)).All Op.grading := by
      refine All.statement trivial fun _ => All.statement trivial fun _ => ?_
      refine All.bind ?_ fun _ => All.pure _ _
      exact (triggerAgent_judging _).mono fun _ => Op.judging.grading
    have isSubmission : id = request.submissionId := by
      simpa [run_bind, eq_comm] using answered
    refine ⟨isSubmission, ?_⟩
    intro sub member isId
    obtain ⟨was, isWas, same⟩ := run_keepsLate rest _ sub member
    obtain ⟨sameId, sameLate⟩ := Prod.mk.inj same
    have isNew := constraints.uniqueKeys.submission.eq isWas
      (List.mem_append_right _ List.mem_cons_self)
      (sameId.trans (isId.trans isSubmission))
    rw [← sameLate, isNew]
    unfold submitIsLate
    rw [goesOn attempt isAttempt]
  · simp [run_bind]

/-- The mark of a submission is the lateness of its sitting, as it was when the
request came. -/
theorem submit_late {body : CandidateSubmitIn} {id : String}
    {existing : CandidateAttempt}
    (asked : served.request = .candidate token (.submit body))
    (constraints : served.before.Constraints)
    (isInvite : fetch Invite.token token served.before.invites = some invite)
    (found : served.before.attemptOf invite.id
      (deployment.auth.normalizeEmail body.candidateEmail) = some existing)
    (answered : (submit deployment served.around served.before token body).2 =
      .ok id) :
    ∀ sub ∈ (submit deployment served.around served.before token
      body).1.submissions, sub.id = id →
        sub.late = submitIsLate (served.before.platform deployment) invite
          existing served.around.now := by
  unfold submit at answered ⊢
  dsimp only at answered ⊢
  split at answered
  · cases answered
  next nonempty =>
  rw [dif_neg nonempty]
  obtain ⟨admitted, admits, same⟩ := checked_eq_ok answered
  rw [same] at answered ⊢
  obtain ⟨isAdmitted, gate⟩ := admitCandidate_gate asked rfl admits
  obtain rfl := Option.some.inj (isInvite.symm.trans isAdmitted)
  obtain ⟨question, _, same⟩ := Handled.andThen_eq_ok answered
  rw [same] at answered ⊢
  have draws := inviteQuestions_drawsOnly invite
    (deployment.auth.normalizeEmail body.candidateEmail) served.before
  rw [← resolveQuestion_fst body.questionId] at draws
  apply (candidateSubmit_late _ _ (runRequest_eq_ok answered)).2
  · change fetch Invite.id invite.id _ = some invite
    rw [draws.rest]
    exact constraints.uniqueKeys.invite.fetch_eq gate.member rfl
  · rw [draws.rest]
    exact found

end Routes

/-! ## Over a run -/

/-- The platform's lateness check is the deadline with the grace on top. -/
theorem submitIsLate_iff {platform : Platform} {invite : Invite}
    {attempt : CandidateAttempt} {now : Time} :
    submitIsLate platform invite attempt now = true ↔
      ∃ deadline ∈ deadlineFor attempt.startedAt invite.durationMinutes,
        deadline + platform.submitGraceSeconds * second < now := by
  unfold submitIsLate deadlineFor
  cases invite.durationMinutes <;> simp

/-- What a run keeps of a sitting and of its invite. -/
structure Frozen (attempt : CandidateAttempt) (invite : Invite)
    (db : Database) : Prop where
  attemptOld : attempt.id < db.nextId
  inviteOld : invite.id < db.nextId
  sitting : ∀ row ∈ db.attempts, row.id = attempt.id → Continues attempt row
  terms : ∀ row ∈ db.invites, row.id = invite.id → row.terms = invite.terms

theorem Change.frozen {attempt : CandidateAttempt} {invite : Invite}
    (change : Change deployment served scope db after) (sound : Sound db)
    (frozen : Frozen attempt invite db) : Frozen attempt invite after where
  attemptOld := Nat.lt_of_lt_of_le frozen.attemptOld change.nextId_le
  inviteOld := Nat.lt_of_lt_of_le frozen.inviteOld change.nextId_le
  sitting row isRow same := by
    rcases change.sittings sound.constraints.uniqueKeys.attempt row isRow with
      ⟨was, isWas, continues⟩ | ⟨_, begins⟩
    · exact (frozen.sitting was isWas (continues.id.trans same)).trans continues
    · have isOld := frozen.attemptOld
      have isNext := begins.id
      omega
  terms := change.keepsTerms.keeps frozen.inviteOld frozen.terms

/-- What the columns and the routes say about the clock of a sitting, as they
did when it was a row `attempt` of an invite `invite`. -/
structure SameClock (deployment : Deployment) (attempt : CandidateAttempt)
    (invite : Invite) (db : Database) (row : CandidateAttempt)
    (current : Invite) : Prop where
  startedAt : row.startedAt = attempt.startedAt
  consentAt : row.consentAt = attempt.consentAt
  consentVersion : row.consentVersion = attempt.consentVersion
  candidateName : row.erasedAt = none →
    ∀ name ∈ attempt.candidateName, row.candidateName = some name
  durationMinutes : current.durationMinutes = invite.durationMinutes
  proctored : current.proctored = invite.proctored
  start : ∀ around body deadline,
    deployment.auth.normalizeEmail body.candidateEmail = row.candidateEmail →
      (startInvite deployment around db current.token body).2 = .ok deadline →
        deadline = deadlineFor attempt.startedAt invite.durationMinutes
  late : ∀ around body id,
    deployment.auth.normalizeEmail body.candidateEmail = row.candidateEmail →
      (submit deployment around db current.token body).2 = .ok id →
        ∀ sub ∈ (submit deployment around db current.token
          body).1.submissions, sub.id = id →
            (sub.late = true ↔
              ∃ deadline ∈
                deadlineFor attempt.startedAt invite.durationMinutes,
                deadline + deployment.submitGraceSeconds * second <
                  around.now)

theorem Frozen.sameClock {attempt row : CandidateAttempt}
    {invite current : Invite} (frozen : Frozen attempt invite db)
    (constraints : db.Constraints) (isRow : row ∈ db.attempts)
    (sameRow : row.id = attempt.id) (isCurrent : current ∈ db.invites)
    (sameInvite : current.id = invite.id)
    (isOf : row.inviteId = current.id) :
    SameClock deployment attempt invite db row current := by
  have clock := (frozen.sitting row isRow sameRow).clock
  have terms := frozen.terms current isCurrent sameInvite
  simp only [CandidateAttempt.clock, Prod.mk.injEq] at clock
  simp only [Invite.terms, Prod.mk.injEq] at terms
  obtain ⟨_, sameStart, sameConsent, sameVersion⟩ := clock
  obtain ⟨_, _, _, sameProctored, sameDuration⟩ := terms
  have isInvite : fetch Invite.token current.token db.invites = some current :=
    constraints.uniqueKeys.inviteToken.fetch_eq isCurrent rfl
  have found := isOf ▸ attemptOf_eq constraints.uniqueKeys isRow
  constructor
  · exact sameStart.symm
  · exact sameConsent.symm
  · exact sameVersion.symm
  · intro standing
    exact ((frozen.sitting row isRow sameRow).standing standing).2.2
  · exact sameDuration
  · exact sameProctored
  · intro around body deadline isEmail answered
    let served : Served := ⟨around, .candidate current.token (.start body), db⟩
    have answered : (startInvite deployment served.around served.before
        current.token body).2 = .ok deadline := answered
    obtain ⟨reported, goneOn, isReported, _, started, rfl, _⟩ :=
      startInvite_reports rfl answered
    obtain rfl := Option.some.inj (isReported.symm.trans isInvite)
    rw [isEmail] at started
    rw [startAttempt_existing found started, sameStart, sameDuration]
  · intro around body id isEmail answered sub member isId
    let served : Served := ⟨around, .candidate current.token (.submit body), db⟩
    have answered : (submit deployment served.around served.before
        current.token body).2 = .ok id := answered
    have marked := submit_late rfl constraints isInvite (isEmail ▸ found) answered
      sub member isId
    rw [marked, submitIsLate_iff, sameStart, sameDuration]
    rfl

theorem Run.frozen {trace : List Served} {attempt : CandidateAttempt}
    {invite : Invite} (run : Run deployment trace db) (member : served ∈ trace)
    (isAttempt : attempt ∈ served.before.attempts)
    (isInvite : invite ∈ served.before.invites) : Frozen attempt invite db := by
  have sound := run.sound_before member
  have unique := sound.constraints.uniqueKeys
  apply run.sinceSound (Frozen attempt invite) member _
    fun change sound _ => change.frozen sound
  constructor
  · exact sound.ids.attempt attempt isAttempt
  · exact sound.ids.invite invite isInvite
  · intro row isRow same
    rw [unique.attempt.eq isRow isAttempt same]
    exact .refl attempt
  · intro row isRow same
    rw [unique.invite.eq isRow isInvite same]

/-- Whatever happens after a sitting has begun, its clock and the terms of its
invite stay, and what `/start` answers and the mark of a submission are computed
from them; the answer that begins it is no other. -/
theorem clock_frozen {trace : List Served} (run : Run deployment trace db) :
    (∀ served ∈ trace, ∀ attempt ∈ served.before.attempts,
      ∀ invite ∈ served.before.invites, attempt.inviteId = invite.id →
        ∀ row ∈ db.attempts, row.id = attempt.id →
          ∃ current ∈ db.invites, current.id = invite.id ∧
            SameClock deployment attempt invite db row current) ∧
    ∀ served ∈ trace, ∀ token body deadline,
      served.request = .candidate token (.start body) →
      (serve deployment served.around served.before served.request).2 =
        .ok deadline →
      ∃ invite ∈ served.before.invites, invite.token = token ∧
        ∃ attempt ∈ (served.after deployment).attempts,
          attempt.inviteId = invite.id ∧
          attempt.candidateEmail =
            deployment.auth.normalizeEmail body.candidateEmail ∧
          deadline =
            deadlineFor attempt.startedAt invite.durationMinutes := by
  constructor
  · intro served member attempt isAttempt invite isInvite isOf row isRow same
    have frozen := run.frozen member isAttempt isInvite
    have sameInvite : row.inviteId = invite.id := by
      have clock := (frozen.sitting row isRow same).clock
      simp only [CandidateAttempt.clock, Prod.mk.injEq] at clock
      exact clock.1.symm.trans isOf
    obtain ⟨current, isCurrent, isHere⟩ :=
      run.constraints.foreignKeys.attemptInvite row isRow _ rfl
    exact ⟨current, isCurrent, isHere.trans sameInvite,
      frozen.sameClock run.constraints isRow same isCurrent
        (isHere.trans sameInvite) isHere.symm⟩
  · intro served member token body deadline asked answered
    rw [asked] at answered
    obtain ⟨invite, attempt, found, gate, started, reported, attempts⟩ :=
      startInvite_reports asked answered
    have begun : Begun deployment served invite
        (deployment.auth.normalizeEmail body.candidateEmail) served.before
        (runProgram deployment served.around
          (startAttempt (served.before.platform deployment) invite
            (deployment.auth.normalizeEmail body.candidateEmail)
            body.candidateName body.consent served.before.nextId)
          served.before) :=
      startAttempt_begun gate gate.member rfl
    obtain ⟨_, row, isRow, isOf, isEmail, sameStart⟩ :=
      begun.attended attempt started
    rw [← attempts] at isRow
    refine ⟨invite, mem_of_fetch found, key_of_fetch found, row, ?_, isOf,
      isEmail, ?_⟩
    · unfold Served.after
      rw [asked]
      exact isRow
    · rw [reported, sameStart]

namespace Scenario

/-- The assessment gets a longer duration. -/
def lengthens : Asked :=
  asks 4 'h' (.updateAssessment "ab"
    { assessmentIn with durationMinutes := some 90 })

/-- The candidate starts again, after the edit. -/
def again : CandidateStartIn := ⟨"c@x", true, some "Cy"⟩

end Scenario

open Scenario in
/-- After an edit of the assessment the candidate still has the half hour that
the invite froze. -/
theorem clock_frozen_lengthens :
    (startInvite Scenario.deployment (surroundings 5 'i')
      (play (submitted ++ [lengthens])).2 "e" again).2 =
        .ok (some (2 + 30 * 60 * second)) := by
  obtain ⟨current, isCurrent, isId, same⟩ :=
    (clock_frozen (run_play (submitted ++ [lengthens]))).1 _
      (mem_play submitted lengthens [])
      ⟨17, 16, "c@x", some "Cy", 2, some 2, some "v1", none, none, 2⟩
      (by decide)
      ⟨16, "e", none, some "ab", none, some 1, ["c@x"],
        [⟨"c@x", true, none⟩], none, false, some 30, .active, 1⟩
      (by decide) rfl
      ⟨17, 16, "c@x", some "Cy", 2, some 2, some "v1", none, none, 2⟩
      (by decide) rfl
  have isToken : current.token = "e" := by
    have only : ∀ invite ∈ (play (submitted ++ [lengthens])).2.invites,
        invite.token = "e" := by decide
    exact only current isCurrent
  cases outcome :
      (startInvite Scenario.deployment (surroundings 5 'i')
        (play (submitted ++ [lengthens])).2 "e" again).2 with
  | ok deadline =>
      rw [same.start (surroundings 5 'i') again deadline rfl
        (isToken ▸ outcome)]
      rfl
  | error refusal =>
      have answered :
          (startInvite Scenario.deployment (surroundings 5 'i')
            (play (submitted ++ [lengthens])).2 "e" again).2.isOk = true := by
        decide +kernel
      rw [outcome] at answered
      cases answered

end AssessmentPlatform
