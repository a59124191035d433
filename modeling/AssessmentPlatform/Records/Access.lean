import AssessmentPlatform.Records.Clock

/-!
# The gate of the candidate routes, over a run

Whatever a candidate leaves behind was accepted by a request that passed the
gate on the rows that it found; the exemption of an expired invite needs the
sitting to be there before.
-/

namespace AssessmentPlatform

open Rows

variable {deployment : Deployment} {served : Served} {scope : Option Nat}
variable {db after left base : Database}

theorem Gate.not_erases {invite : Invite} {email : String}
    (gate : Gate deployment served invite email) : ¬served.request.erases := by
  obtain ⟨request, asked, _⟩ := gate.asked
  rw [asked]
  exact id

/-! ## Sittings -/

/-- A sitting that a request began: the invite was active and not expired, its
address was one of the recipients, and the consent is recorded. -/
structure Opened (deployment : Deployment) (served : Served)
    (row : CandidateAttempt) : Prop where
  fresh : ∀ was ∈ served.before.attempts, was.id ≠ row.id
  gate : ∃ invite email, Gate deployment served invite email ∧
    isExpired served.around.now invite.expiresAt = false ∧
    row.inviteId = invite.id ∧
    (row.erasedAt = none → row.candidateEmail = email)
  startedAt : row.startedAt = served.around.now
  consentAt : row.consentAt = some served.around.now

theorem Opened.continues {was row : CandidateAttempt}
    (opened : Opened deployment served was) (continues : Continues was row) :
    Opened deployment served row := by
  have clock := continues.clock
  simp only [CandidateAttempt.clock, Prod.mk.injEq] at clock
  obtain ⟨sameInvite, sameStart, sameConsent, _⟩ := clock
  obtain ⟨invite, email, gate, unexpired, isOf, isEmail⟩ := opened.gate
  constructor
  · rw [← continues.id]
    exact opened.fresh
  · refine ⟨invite, email, gate, unexpired, sameInvite ▸ isOf, ?_⟩
    intro isStanding
    obtain ⟨stood, sameEmail, _⟩ := continues.standing isStanding
    exact sameEmail ▸ isEmail stood
  · exact sameStart ▸ opened.startedAt
  · exact sameConsent ▸ opened.consentAt

theorem Begins.opened {invite : Invite} {row : CandidateAttempt}
    (begins : Begins deployment served db invite row)
    (fresh : ∀ was ∈ served.before.attempts, was.id ≠ row.id) :
    Opened deployment served row := by
  refine ⟨fresh, ⟨invite, row.candidateEmail, begins.gate, ?_, begins.inviteId,
    fun _ => rfl⟩, begins.startedAt, begins.consentAt⟩
  rcases begins.gate.live with unexpired | ⟨_, hasBegun⟩
  · exact unexpired
  · simp [hasAttempt, begins.absent] at hasBegun

/-- Where the sittings are from, within a request. -/
def Attributed (deployment : Deployment) (served : Served) (state : Database) :
    Prop :=
  served.before.nextId ≤ state.nextId ∧ ∀ row ∈ state.attempts,
    (∃ was ∈ served.before.attempts, Continues was row) ∨
      Opened deployment served row

theorem Change.attributed (change : Change deployment served scope db after)
    (constraints : db.Constraints) (start : Sound served.before)
    (attributed : Attributed deployment served db) :
    Attributed deployment served after := by
  refine ⟨attributed.1.trans change.nextId_le, ?_⟩
  intro row isRow
  rcases change.sittings constraints.uniqueKeys.attempt row isRow with
    ⟨was, isWas, continues⟩ | ⟨_, begins⟩
  · rcases attributed.2 was isWas with ⟨old, isOld, early⟩ | opened
    · exact Or.inl ⟨old, isOld, early.trans continues⟩
    · exact Or.inr (opened.continues continues)
  · refine Or.inr (begins.opened fun was isWas same => ?_)
    have isBelow := start.ids.attempt was isWas
    have isNext := begins.id
    have later := attributed.1
    omega

theorem Run.opened {trace : List Served} (run : Run deployment trace db) :
    ∀ row ∈ db.attempts, ∃ served ∈ trace,
      Opened deployment served row ∧
        ∃ born ∈ (served.after deployment).attempts, born.id = row.id := by
  induction run with
  | start => exact fun _ member => nomatch member
  | @step trace db around request run inductionHypothesis =>
      intro row isRow
      have transactions : Transactions deployment ⟨around, request, db⟩ db
          (serve deployment around db request).1 :=
        serve_transactions run.constraints
      have attributed := (transactions.keeps
        (Attributed deployment ⟨around, request, db⟩) run.constraints
        (fun change constraints _ => change.attributed constraints run.sound)
        ⟨Nat.le_refl _, fun row member => Or.inl ⟨row, member, .refl row⟩⟩).2
      rcases attributed.2 row isRow with ⟨was, isWas, continues⟩ | opened
      · obtain ⟨served, member, opened, born, isBorn, same⟩ :=
          inductionHypothesis was isWas
        exact ⟨served, List.mem_append_left _ member,
          opened.continues continues, born, isBorn, same.trans continues.id⟩
      · exact ⟨_, List.mem_append_right _ List.mem_cons_self, opened, row, isRow,
          rfl⟩

/-! ## Submissions, drafts, events and feedback -/

/-- A write for an address on an invite that passed the gate. -/
def Admits (deployment : Deployment) (served : Served) (inviteId : Nat)
    (email : String) : Prop :=
  ∃ invite, Gate deployment served invite email ∧ invite.id = inviteId

/-- What a request has written for candidates passed the gate. -/
structure Gated (deployment : Deployment) (served : Served)
    (state : Database) : Prop where
  submissions : ∀ row ∈ state.submissions, ∀ inviteId ∈ row.inviteId,
    (∃ was ∈ served.before.submissions, was.id = row.id) ∨
      ∃ email, row.candidateEmail = some email ∧
        Admits deployment served inviteId email
  drafts : ∀ row ∈ state.drafts, row ∈ served.before.drafts ∨
    Admits deployment served row.inviteId row.candidateEmail
  events : ∀ row ∈ state.events,
    (∃ was ∈ served.before.events, was.id = row.id) ∨
      Admits deployment served row.inviteId row.candidateEmail
  feedback : ∀ row ∈ state.feedback, row ∈ served.before.feedback ∨
    ∃ attempt ∈ served.before.attempts, attempt.id = row.attemptId ∧
      Admits deployment served attempt.inviteId attempt.candidateEmail

theorem gated_before : Gated deployment served served.before where
  submissions row member _ _ := Or.inl ⟨row, member, rfl⟩
  drafts _ member := Or.inl member
  events row member := Or.inl ⟨row, member, rfl⟩
  feedback _ member := Or.inl member

/-- A state with fewer rows of candidates. -/
structure Fewer (db after : Database) : Prop where
  submissions : after.submissions ⊆ db.submissions
  drafts : after.drafts ⊆ db.drafts
  events : after.events ⊆ db.events
  feedback : after.feedback ⊆ db.feedback

theorem Gated.fewer (gated : Gated deployment served db)
    (fewer : Fewer db after) : Gated deployment served after where
  submissions row member := gated.submissions row (fewer.submissions member)
  drafts row member := gated.drafts row (fewer.drafts member)
  events row member := gated.events row (fewer.events member)
  feedback row member := gated.feedback row (fewer.feedback member)

theorem fewer_purged (db : Database) (orgId : Nat) :
    Fewer db (db.purged orgId) where
  submissions := List.filter_sublist.subset
  drafts := List.filter_sublist.subset
  events := List.filter_sublist.subset
  feedback := List.filter_sublist.subset

theorem Fewer.refl (db : Database) : Fewer db db where
  submissions := List.Subset.refl _
  drafts := List.Subset.refl _
  events := List.Subset.refl _
  feedback := List.Subset.refl _

theorem Enters.fewer {account : Interviewer} {gaveUp : Option Nat}
    (enters : Enters db account gaveUp base) : Fewer db base := by
  cases enters with
  | newcomer => exact { Fewer.refl db with }
  | seatless => exact .refl db
  | leaving _ _ gaveUp =>
      obtain ⟨rfl, _⟩ := leaveEmptyOrg_eq_ok gaveUp
      exact fewer_purged db _

theorem Database.Left.fewer {interviewerId : Nat}
    (leaving : Database.Left db interviewerId left) : Fewer db left := by
  cases leaving with
  | seatless => exact .refl db
  | shared => exact { Fewer.refl db with }
  | last => exact fewer_purged db _

/-- An erasure is no candidate's request, so it meets no new row. -/
theorem Gated.erased {pseudonym email : String} {inviteIds : List Nat}
    {submissionIds : List String} (gated : Gated deployment served db)
    (erases : served.request.erases) :
    Gated deployment served
      (erase served.around.now pseudonym email inviteIds submissionIds db) where
  submissions row member inviteId isFor := by
    left
    obtain ⟨was, isWas, rfl⟩ := mem_of_mem_updateWhere member
    by_cases matched : submissionIds.contains was.id
    · simp only [matched, if_true] at isFor ⊢
      rcases gated.submissions was isWas inviteId isFor with
        old | ⟨_, _, _, gate, _⟩
      · exact old
      · exact absurd erases gate.not_erases
    · simp only [matched, if_false, Bool.false_eq_true] at isFor ⊢
      rcases gated.submissions was isWas inviteId isFor with
        old | ⟨_, _, _, gate, _⟩
      · exact old
      · exact absurd erases gate.not_erases
  drafts row member := gated.drafts row (mem_deleteWhere.mp member).1
  events row member := by
    left
    obtain ⟨was, isWas, rfl⟩ := mem_of_mem_updateWhere member
    rcases gated.events was isWas with ⟨old, isOld, same⟩ | ⟨_, gate, _⟩
    · refine ⟨old, isOld, same.trans ?_⟩
      split <;> rfl
    · exact absurd erases gate.not_erases
  feedback row member := gated.feedback row (mem_deleteWhere.mp member).1

theorem Change.gated (change : Change deployment served scope db after)
    (gated : Gated deployment served db) : Gated deployment served after := by
  cases change with
  | founded _ enters => exact { gated.fewer enters.fewer with }
  | joined enters => exact { gated.fewer enters.fewer with }
  | accountDeleted deleted =>
      obtain ⟨left, leaving, rfl⟩ := Database.purgeAccount_left deleted
      exact { gated.fewer leaving.fewer with }
  | questionDeleted => exact { gated with
      drafts := fun row member =>
        gated.drafts row (mem_deleteWhere.mp member).1 }
  | @submitted _ invite email attempt sub gate _ isFor isEmail =>
      refine { gated with submissions := ?_ }
      intro row member inviteId isInvite
      rcases List.mem_append.mp member with old | isNew
      · exact gated.submissions row old inviteId isInvite
      · obtain rfl := List.mem_singleton.mp isNew
        exact Or.inr ⟨email, isEmail, invite, gate,
          Option.some.inj (isFor.symm.trans isInvite)⟩
  | submittedDirectly sub _ _ _ noInvite =>
      refine { gated with submissions := ?_ }
      intro row member inviteId isInvite
      rcases List.mem_append.mp member with old | isNew
      · exact gated.submissions row old inviteId isInvite
      · obtain rfl := List.mem_singleton.mp isNew
        rw [noInvite] at isInvite
        cases isInvite
  | @eventsRecorded _ invite email _ _ _ _ _ _ gate =>
      refine { gated with events := ?_ }
      intro row member
      rcases List.mem_append.mp member with old | isNew
      · exact gated.events row old
      · obtain ⟨⟨event, index⟩, _, rfl⟩ := List.mem_map.mp isNew
        exact Or.inr ⟨invite, gate, rfl⟩
  | @feedbackGiven _ invite attempt feedback gate _ _ isAttempt isOf _ isFor =>
      refine { gated with feedback := ?_ }
      intro row member
      rcases List.mem_append.mp member with old | isNew
      · exact gated.feedback row old
      · obtain rfl := List.mem_singleton.mp isNew
        exact Or.inr ⟨attempt, isAttempt, isFor.symm, invite, gate, isOf.symm⟩
  | @draftAdded _ invite draft gate _ _ isOf =>
      refine { gated with drafts := ?_ }
      intro row member
      rcases List.mem_append.mp member with old | isNew
      · exact gated.drafts row old
      · obtain rfl := List.mem_singleton.mp isNew
        exact Or.inr ⟨invite, gate, isOf.symm⟩
  | @draftEdited _ invite draft _ _ gate _ _ isOf =>
      refine { gated with drafts := ?_ }
      intro row member
      rcases mem_save member with rfl | ⟨old, _⟩
      · exact Or.inr ⟨invite, gate, isOf.symm⟩
      · exact gated.drafts row old
  | regraded matched change keeps =>
      refine { gated with submissions := ?_ }
      intro row member inviteId isFor
      obtain ⟨was, isWas, rfl⟩ := mem_of_mem_updateWhere member
      by_cases isMatched : matched was
      · simp only [isMatched, if_true, keeps.inviteId, keeps.id,
          keeps.candidateEmail] at isFor ⊢
        exact gated.submissions was isWas inviteId isFor
      · simp only [isMatched, if_false, Bool.false_eq_true] at isFor ⊢
        exact gated.submissions was isWas inviteId isFor
  | erased _ _ _ _ erases => exact gated.erased erases
  | _ => exact { gated with }

/-- Every sitting was begun behind the gate, on an invite that had not expired,
with the consent recorded; and whatever a request writes for a candidate passed
the gate on the rows that the request found. -/
theorem access_gated {trace : List Served} (run : Run deployment trace db) :
    (∀ row ∈ db.attempts, ∃ served ∈ trace,
      Opened deployment served row ∧
        ∃ born ∈ (served.after deployment).attempts, born.id = row.id) ∧
    ∀ served ∈ trace, Gated deployment served (served.after deployment) := by
  refine ⟨run.opened, ?_⟩
  intro served member
  obtain ⟨constraints, transactions⟩ := run.transactions member
  exact (transactions.keeps (Gated deployment served) constraints
    (fun change _ _ => change.gated) gated_before).2

open Scenario in
/-- The sitting of the scenario was opened by a request of its own. -/
theorem access_gated_submitted :
    ∃ served ∈ (play submitted).1,
      Opened Scenario.deployment served
        ⟨17, 16, "c@x", some "Cy", 2, some 2, some "v1", none, none, 2⟩ ∧
      ∃ born ∈ (served.after Scenario.deployment).attempts, born.id = 17 :=
  (access_gated (run_play submitted)).1 _ (by decide)

end AssessmentPlatform
