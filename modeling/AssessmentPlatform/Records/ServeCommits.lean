import AssessmentPlatform.Records.CandidateCommits

/-!
# What the API commits

Erasures, retention sweeps and then every request: whatever a request does to
the database is a chain of the known transactions.  On behalf of a member it
stays in the member's organisation, with the exceptions of the routes that move
the account itself.
-/

namespace AssessmentPlatform

open Interleaving Rows Refusals

variable {deployment : Deployment} {served : Served}
variable {db after : Database} {caller : Nat} {org : Membership}

/-! ## Erasure and retention -/

theorem eraseCandidateData_commits {email : String}
    (asked : served.request = .member caller (.eraseCandidateData email))
    (erased : eraseCandidateData deployment served.around caller email db =
      .ok after) :
    MemberCommits deployment served caller db after := by
  unfold eraseCandidateData at erased
  simp only [bind_eq_ok, Database.currentMembership_eq_ok] at erased
  obtain ⟨org, ⟨_, seat⟩, _, _, executed⟩ := erased
  apply MemberCommits.seated seat
  apply Commits.of_execute executed
  apply Change.erased _ _ _ _ (asked ▸ trivial)
  intro orgId isScope
  obtain rfl := Option.some.inj isScope
  exact ⟨rfl, rfl⟩

theorem eraseSittings_commits {sittings : List (Nat × String)} {drawn : Nat}
    (asked : served.request = .retentionTick)
    (erased : (eraseSittings served.around served.around.now drawn sittings
      db).2 = .ok after) :
    Commits deployment served none db after := by
  induction sittings generalizing drawn db with
  | nil =>
      obtain rfl := Except.ok.inj erased
      exact .refl
  | cons sitting rest inductionHypothesis =>
      obtain ⟨inviteId, email⟩ := sitting
      unfold eraseSittings at erased
      split at erased
      · cases erased
      · next middle first =>
        have here : Commits deployment served none db middle :=
          Commits.of_execute first
            (.erased drawn email _ _ (asked ▸ trivial) nofun)
        exact here.trans (inductionHypothesis erased)

theorem keepsInvite_keepLive (db : Database) :
    KeepsInvite (keepLiveRecipients deployment db) where
  rest _ := ⟨_, _, rfl⟩
  recipients _ := List.filter_sublist
  deliveries _ := List.filter_sublist

theorem purgeExpiredOf_commits {organization : Organization}
    {retentionDays : Int} {drawn : Nat}
    (asked : served.request = .retentionTick)
    (purged : (purgeExpiredOf deployment served.around served.around.now
      organization retentionDays drawn db).2 = .ok after) :
    Commits deployment served none db after := by
  obtain ⟨erased, sittings, executed⟩ := bind_eq_ok.mp purged
  apply (eraseSittings_commits asked sittings).trans
  exact Commits.of_execute executed
    (.recipientsDropped _ _ (keepsInvite_keepLive erased))

theorem purgeExpiredLoop_commits {organizations : List Organization}
    {drawn : Nat} (asked : served.request = .retentionTick) :
    Commits deployment served none db
      (purgeExpiredLoop deployment served.around served.around.now drawn
        organizations db).1 := by
  induction organizations generalizing drawn db with
  | nil => exact .refl
  | cons organization rest inductionHypothesis =>
      unfold purgeExpiredLoop
      split
      · exact inductionHypothesis
      split
      · exact inductionHypothesis
      dsimp only
      split
      · next after purged =>
        exact (purgeExpiredOf_commits asked purged).trans inductionHypothesis
      · exact inductionHypothesis

/-! ## Accounts -/

/-- Where a handler succeeds, the accounts are the same ones. -/
def KeepsAccounts (interviewers : List Interviewer)
    (handled : Accounts.Handled) : Prop :=
  ∀ after entries, handled = .ok (after, entries) →
    after.map Interviewer.id = interviewers.map Interviewer.id

section Accounts

variable {around : Accounts.Surroundings} {settings : Accounts.AuthSettings}
variable {interviewers : List Interviewer}

theorem keepsAccounts_throw (refused : HTTPException) :
    KeepsAccounts interviewers (throw refused) :=
  fun _ _ handled => absurd handled throw_ne_ok

theorem keepsAccounts_pure (entries : List Accounts.Entry) :
    KeepsAccounts interviewers (pure (interviewers, entries)) := by
  intro after entries handled
  obtain ⟨rfl, _⟩ := Prod.mk.inj (pure_eq_ok.mp handled)
  rfl

theorem keepsAccounts_save (saved : Interviewer)
    (entries : List Accounts.Entry) :
    KeepsAccounts interviewers
      (pure (save Interviewer.id saved interviewers, entries)) := by
  intro after entries handled
  obtain ⟨rfl, _⟩ := Prod.mk.inj (pure_eq_ok.mp handled)
  exact map_key_save

theorem keepsAccounts_bind {Value : Type} {first : Except HTTPException Value}
    {next : Value → Accounts.Handled}
    (rest : ∀ value, KeepsAccounts interviewers (next value)) :
    KeepsAccounts interviewers (first >>= next) := by
  intro after entries handled
  obtain ⟨value, _, finished⟩ := bind_eq_ok.mp handled
  exact rest value after entries finished

theorem keepsAccounts_ite {condition : Prop} [Decidable condition]
    {first second : Accounts.Handled}
    (yes : KeepsAccounts interviewers first)
    (no : KeepsAccounts interviewers second) :
    KeepsAccounts interviewers (if condition then first else second) := by
  split
  · exact yes
  · exact no

theorem handle_keepsAccounts (request : Accounts.Request) :
    KeepsAccounts interviewers
      (request.handle settings around interviewers) := by
  cases request with
  | login email password =>
      apply keepsAccounts_bind
      intro _
      split
      · exact keepsAccounts_throw _
      · exact keepsAccounts_ite (keepsAccounts_pure _) (keepsAccounts_throw _)
  | refreshSession cookie =>
      change KeepsAccounts _ (Accounts.refreshSession _ _ _ _)
      unfold Accounts.refreshSession
      split
      · exact keepsAccounts_throw _
      · exact keepsAccounts_pure _
  | logout => exact keepsAccounts_pure _
  | forgotPassword email =>
      apply keepsAccounts_bind
      intro _
      split <;> exact keepsAccounts_pure _
  | resetPassword token password =>
      apply keepsAccounts_bind
      intro _
      split
      · exact keepsAccounts_throw _
      · exact keepsAccounts_bind fun _ => keepsAccounts_save _ _
  | changePassword bearer currentPassword password =>
      apply keepsAccounts_bind
      intro _
      apply keepsAccounts_bind
      intro _
      apply keepsAccounts_ite
      · exact keepsAccounts_bind fun _ =>
          keepsAccounts_bind fun _ => keepsAccounts_save _ _
      · exact keepsAccounts_bind fun _ => keepsAccounts_save _ _
  | verifyEmail token =>
      change KeepsAccounts _ (Accounts.verifyEmail _ _ _ _)
      unfold Accounts.verifyEmail
      split
      · exact keepsAccounts_throw _
      · exact keepsAccounts_ite (keepsAccounts_save _ _) (keepsAccounts_pure _)
  | resendVerification bearer =>
      apply keepsAccounts_bind
      intro _
      apply keepsAccounts_bind
      intro _
      exact keepsAccounts_ite (keepsAccounts_pure _) (keepsAccounts_pure _)
  | updateMe bearer name email password =>
      exact keepsAccounts_bind fun _ => keepsAccounts_bind fun _ =>
        keepsAccounts_bind fun _ => keepsAccounts_save _ _
  | confirmEmailChange token =>
      change KeepsAccounts _ (Accounts.confirmEmailChange _ _ _ _)
      unfold Accounts.confirmEmailChange
      split
      · exact keepsAccounts_throw _
      · split
        · exact keepsAccounts_ite (keepsAccounts_throw _)
            (keepsAccounts_save _ _)
        · exact keepsAccounts_save _ _
  | me bearer => exact keepsAccounts_bind fun _ => keepsAccounts_pure _

end Accounts

theorem serveAccount_commits {request : Accounts.Request}
    (asked : served.request = .account request)
    (answered : serveAccount deployment served.around db request =
      .ok after) :
    Commits deployment served none db after := by
  unfold serveAccount at answered
  obtain ⟨⟨interviewers, reply⟩, handled, executed⟩ := bind_eq_ok.mp answered
  apply Commits.of_execute executed
  exact .accounts _ (handle_keepsAccounts request interviewers reply handled)
    (by simp [asked, ApiRequest.writesAccounts])

theorem handleEvent_logo (settings : Payments.Settings) (row : Organization)
    (event : Payments.ReadEvent) :
    ((Payments.handleEvent settings row event).1.id,
      (Payments.handleEvent settings row event).1.logoSha) =
      (row.id, row.logoSha) := by
  unfold Payments.handleEvent
  split
  · rfl
  · split <;> rfl
  · split <;> rfl
  · split <;> rfl
  · rfl

theorem mem_of_orgForStripe {settings : Payments.Settings}
    {organizations : List Organization} {object : Payload}
    {row : Organization}
    (found : Payments.orgForStripe settings organizations object =
      some (some row)) :
    row ∈ organizations := by
  unfold Payments.orgForStripe at found
  split at found
  · next other known =>
      cases found
      obtain ⟨_, _, isRow⟩ := Option.bind_eq_some_iff.mp known
      exact List.mem_of_find?_eq_some isRow
  · obtain ⟨orgId, _, isRow⟩ := Option.map_eq_some_iff.mp found
    obtain ⟨_, _, isRow⟩ := Option.bind_eq_some_iff.mp isRow
    exact List.mem_of_find?_eq_some isRow

/-- The webhook leaves the organisations as they are, or saves one of them. -/
theorem stripeWebhook_cases (settings : Payments.Settings)
    (organizations : List Organization) (delivery : Option Payments.Event) :
    (Payments.stripeWebhook settings organizations delivery).1 =
        organizations ∨
      ∃ row ∈ organizations, ∃ event,
        (Payments.stripeWebhook settings organizations delivery).1 =
          Payments.saveOrganization organizations
            (Payments.handleEvent settings row event).1 := by
  unfold Payments.stripeWebhook
  split
  · exact Or.inl rfl
  split
  · exact Or.inl rfl
  split
  · exact Or.inl rfl
  next event _ =>
  unfold Payments.applyEvent
  split
  · exact Or.inl rfl
  · exact Or.inl rfl
  · next row found =>
    exact Or.inr ⟨row, mem_of_orgForStripe found, event, rfl⟩

theorem stripeWebhook_id (settings : Payments.Settings)
    (organizations : List Organization) (delivery : Option Payments.Event) :
    (Payments.stripeWebhook settings organizations delivery).1.map
      Organization.id = organizations.map Organization.id := by
  rcases stripeWebhook_cases settings organizations delivery with
    same | ⟨row, _, event, saved⟩
  · rw [same]
  · rw [saved]
    simp only [Payments.saveOrganization, List.map_map]
    apply List.map_congr_left
    intro row _
    dsimp only [Function.comp]
    split
    · next same => exact same.symm
    · rfl

/-- The webhook leaves the logos. -/
theorem stripeWebhook_logos (settings : Payments.Settings)
    (organizations : List Organization) (delivery : Option Payments.Event) :
    Derived (fun row => (row.id, row.logoSha)) organizations
      (Payments.stripeWebhook settings organizations delivery).1 := by
  rcases stripeWebhook_cases settings organizations delivery with
    same | ⟨row, isRow, event, saved⟩
  · rw [same]
    exact .refl _
  · rw [saved]
    intro stored member
    obtain ⟨was, isWas, isSaved⟩ := List.mem_map.mp member
    split at isSaved
    · subst isSaved
      exact ⟨row, isRow, (handleEvent_logo settings row event).symm⟩
    · subst isSaved
      exact ⟨was, isWas, rfl⟩

theorem serveWebhook_commits {delivery : Option Payments.Event}
    (answered : serveWebhook deployment db delivery = .ok after) :
    Commits deployment served none db after :=
  Commits.of_execute answered
    (.billed _ (stripeWebhook_id _ _ _) (stripeWebhook_logos _ _ _))

/-- The requests that move the account of the caller itself. -/
def MemberRequest.moves : MemberRequest → Bool
  | .deleteMe _ | .createOrg _ | .acceptOrgInvite _ => true
  | _ => false

/-- The submissions that came by an invite are on its organisation's
questions. -/
def SubmissionsMatch (db : Database) : Prop :=
  ∀ row ∈ db.submissions, ∀ inviteId ∈ row.inviteId, ∀ invite ∈ db.invites,
    invite.id = inviteId → db.inviteOrg invite = db.questionOrg row.questionId

/-- A member's request stays in the member's organisation. -/
theorem serveMember_commits {request : MemberRequest}
    (asked : served.request = .member caller request)
    (stays : request.moves = false) (constraints : db.Constraints)
    (matched : ∀ id, request = .retrySubmission id → SubmissionsMatch db) :
    MemberCommits deployment served caller db
      (serveMember deployment served.around db caller request).1 := by
  cases request with
  | deleteMe => cases stays
  | createOrg => cases stays
  | acceptOrgInvite => cases stays
  | updateOrg => exact lastly_keeps .refused fun _ => updateOrg_commits
  | setOrgLogo => exact lastly_keeps .refused fun _ => setOrgLogo_commits
  | clearOrgLogo => exact lastly_keeps .refused fun _ => clearOrgLogo_commits
  | updateMemberRole =>
      exact lastly_keeps .refused fun _ => updateMemberRole_commits
  | removeMember => exact lastly_keeps .refused fun _ => removeMember_commits
  | createOrgInvite =>
      exact lastly_keeps .refused fun _ => createOrgInvite_commits
  | revokeOrgInvite =>
      exact lastly_keeps .refused fun _ => revokeOrgInvite_commits
  | eraseCandidateData =>
      exact lastly_keeps .refused fun _ => eraseCandidateData_commits asked
  | startCheckout => exact lastly_keeps .refused fun _ => startCheckout_commits
  | draft => exact draft_commits
  | createQuestion =>
      exact lastly_keeps .refused fun _ => createQuestion_commits
  | createVariantSet =>
      exact lastly_keeps .refused fun _ => createVariantSet_commits
  | updateQuestion =>
      exact lastly_keeps .refused fun _ => updateQuestion_commits
  | archiveQuestion =>
      exact lastly_keeps .refused fun _ => archiveQuestion_commits
  | deleteQuestion =>
      exact lastly_keeps .refused fun _ => deleteQuestion_commits asked
  | createAssessment =>
      exact lastly_keeps .refused fun _ => createAssessment_commits asked
  | updateAssessment =>
      exact lastly_keeps .refused fun _ => updateAssessment_commits asked
  | archiveAssessment =>
      exact lastly_keeps .refused fun _ => archiveAssessment_commits
  | deleteAssessment =>
      exact lastly_keeps .refused fun _ => deleteAssessment_commits
  | createInvite => exact lastly_keeps .refused fun _ => createInvite_commits
  | createAssessmentInvite =>
      exact lastly_keeps .refused fun _ => createAssessmentInvite_commits asked
  | createVariantSetInvites =>
      exact lastly_keeps .refused fun _ => createVariantSetInvites_commits
  | revokeAnyInvite =>
      exact lastly_keeps .refused fun _ => revokeAnyInvite_commits
  | revokeInvite => exact lastly_keeps .refused fun _ => revokeInvite_commits
  | createSubmission => exact directSubmit_commits
  | retrySubmission id => exact retry_commits constraints (matched id rfl)
  | read => exact .refused

theorem serveMember_transactions {request : MemberRequest}
    (asked : served.request = .member caller request)
    (constraints : db.Constraints) :
    Transactions deployment served db
      (serveMember deployment served.around db caller request).1 := by
  by_cases moves : request.moves
  · cases request with
    | deleteMe =>
        exact lastly_keeps .refl fun _ done =>
          (deleteMe_commits asked done).transactions
    | createOrg =>
        exact lastly_keeps .refl fun _ done =>
          (createOrg_commits done).transactions
    | acceptOrgInvite =>
        exact lastly_keeps .refl fun _ done =>
          (Commits.transactions (.single (acceptOrgInvite_committed asked done)))
    | _ => cases moves
  · by_cases retried : ∃ id, request = .retrySubmission id
    · obtain ⟨id, rfl⟩ := retried
      exact retry_transactions
    · apply MemberCommits.transactions
      apply serveMember_commits asked (by simpa using moves) constraints
      intro id isRetry
      exact absurd ⟨id, isRetry⟩ retried

theorem serveCandidate_commits {token : String} {request : CandidateRequest}
    (asked : served.request = .candidate token request)
    (constraints : served.before.Constraints) :
    Commits deployment served none served.before
      (serveCandidate deployment served.around served.before token
        request).1 := by
  cases request with
  | start => exact startInvite_commits asked
  | run => exact candidateRun_commits asked
  | submit => exact submit_commits asked constraints
  | events =>
      exact lastly_keeps .refl fun _ => candidateIntegrityEvents_commits asked
  | feedback => exact lastly_keeps .refl fun _ => candidateFeedback_commits asked
  | saveDraft => exact candidateSaveDraft_commits asked
  | read => exact .refl

/-- Whatever a request does is a chain of the known transactions. -/
theorem serve_transactions (constraints : served.before.Constraints) :
    Transactions deployment served served.before
      (served.after deployment) := by
  unfold Served.after
  cases asked : served.request with
  | account =>
      exact lastly_keeps .refl fun _ done =>
        (serveAccount_commits asked done).transactions
  | register =>
      exact lastly_keeps .refl fun _ done =>
        (Commits.transactions (.single (register_committed asked done)))
  | member => exact serveMember_transactions asked constraints
  | candidate =>
      exact (serveCandidate_commits asked constraints).transactions
  | stripeWebhook =>
      exact lastly_keeps .refl fun _ done =>
        (serveWebhook_commits done).transactions
  | assessmentsCallback payload =>
      apply Commits.transactions
      exact run_grading ((assessmentsCallback_all payload).mono
        fun _ => Op.recording.grading) _
  | reapTick =>
      apply Commits.transactions
      exact run_grading (reapTick_judging.mono fun _ => Op.judging.grading) _
  | retentionTick => exact (purgeExpiredLoop_commits asked).transactions

/-! ## Runs -/

theorem constraints_empty : Database.empty.Constraints := by
  decide

theorem Run.constraints {trace : List Served}
    (run : Run deployment trace db) : db.Constraints := by
  induction run with
  | start => exact constraints_empty
  | @step trace db around request _ inductionHypothesis =>
      have transactions : Transactions deployment ⟨around, request, db⟩ db
          (serve deployment around db request).1 :=
        serve_transactions inductionHypothesis
      exact (transactions.keeps (fun _ => True) inductionHypothesis
        (fun _ _ _ _ => trivial) trivial).1

/-- What one request can do. -/
theorem Run.transactions {trace : List Served} (run : Run deployment trace db)
    (member : served ∈ trace) :
    served.before.Constraints ∧
      Transactions deployment served served.before
        (served.after deployment) := by
  induction run with
  | start => cases member
  | @step trace db around request run inductionHypothesis =>
      rcases List.mem_append.mp member with earlier | last
      · exact inductionHypothesis earlier
      · obtain rfl := List.mem_singleton.mp last
        exact ⟨run.constraints, serve_transactions run.constraints⟩

/-- What every transaction keeps holds in every state of a run. -/
theorem Run.keeps (holds : Database → Prop) {trace : List Served}
    (run : Run deployment trace db) (start : holds .empty)
    (kept : ∀ {served scope state next},
      Change deployment served scope state next →
        state.Constraints → next.Constraints → holds state → holds next) :
    holds db := by
  induction run with
  | start => exact start
  | @step trace db around request run inductionHypothesis =>
      have transactions : Transactions deployment ⟨around, request, db⟩ db
          (serve deployment around db request).1 :=
        serve_transactions run.constraints
      exact (transactions.keeps holds run.constraints kept inductionHypothesis).2

/-- What a request left, and every transaction keeps, holds in the later states
of the run. -/
theorem Run.afterwards (holds : Database → Prop) {trace : List Served}
    (run : Run deployment trace db) (member : served ∈ trace)
    (start : holds (served.after deployment))
    (kept : ∀ {served scope state next},
      Change deployment served scope state next →
        state.Constraints → next.Constraints → holds state → holds next) :
    holds db := by
  induction run with
  | start => cases member
  | @step trace db around request run inductionHypothesis =>
      rcases List.mem_append.mp member with earlier | last
      · have transactions : Transactions deployment ⟨around, request, db⟩ db
            (serve deployment around db request).1 :=
          serve_transactions run.constraints
        exact (transactions.keeps holds run.constraints kept
          (inductionHypothesis earlier)).2
      · obtain rfl := List.mem_singleton.mp last
        exact start

/-- What held when a request was served, and every transaction keeps, holds in
the later states of the run. -/
theorem Run.since (holds : Database → Prop) {trace : List Served}
    (run : Run deployment trace db) (member : served ∈ trace)
    (start : holds served.before)
    (kept : ∀ {served scope state next},
      Change deployment served scope state next →
        state.Constraints → next.Constraints → holds state → holds next) :
    holds db := by
  obtain ⟨constraints, transactions⟩ := run.transactions member
  exact run.afterwards holds member
    (transactions.keeps holds constraints kept start).2 kept

end AssessmentPlatform
