import AssessmentPlatform.Records.Sample
import AssessmentPlatform.Records.Tenancy

/-!
# Deleting a question

The guards of `delete_question` name the submissions, the slots, the draws and
the candidates' activity that refer to it.  What else refers to it, or to one
of its invites, goes with it: every draft, and every submission behind one of
its invites, is for the question itself.
-/

namespace AssessmentPlatform

open Refusals Rows

variable {deployment : Deployment} {served : Served} {scope : Option Nat}
variable {db after : Database} {id : String} {caller : Nat}

/-! ## Invites for one question -/

/-- What is kept behind an invite for one question is for that question. -/
structure OneQuestion (db : Database) : Prop where
  draft : ∀ draft ∈ db.drafts, ∀ invite ∈ db.invites,
    invite.id = draft.inviteId → ∀ id ∈ invite.questionId,
      draft.questionId = id
  submission : ∀ row ∈ db.submissions, ∀ invite ∈ db.invites,
    row.inviteId = some invite.id → ∀ id ∈ invite.questionId,
      row.questionId = id

theorem oneQuestion_empty : OneQuestion .empty := by
  constructor <;> intro row member <;> cases member

theorem OneQuestion.derived (one : OneQuestion db)
    (derives : Derives db after) : OneQuestion after where
  draft := by
    intro row isRow invite isInvite here id named
    obtain ⟨oldRow, isOldRow, keptRow⟩ := derives.draft row isRow
    obtain ⟨old, isOld, same⟩ := derives.invite invite isInvite
    simp only [Invite.identity, Prod.mk.injEq] at same keptRow
    rw [← keptRow.2]
    exact one.draft oldRow isOldRow old isOld
      (by rw [same.1, here, keptRow.1]) id (by rw [same.2.1]; exact named)
  submission := by
    intro row isRow invite isInvite here id named
    obtain ⟨oldRow, isOldRow, keptRow⟩ := derives.submission row isRow
    obtain ⟨old, isOld, same⟩ := derives.invite invite isInvite
    simp only [Invite.identity, Prod.mk.injEq] at same keptRow
    rw [← keptRow.2]
    exact one.submission oldRow isOldRow old isOld
      (by rw [same.1, ← here, keptRow.1]) id (by rw [same.2.1]; exact named)

/-- An invite for one question presents that question. -/
theorem presented_eq {invite : Invite} {email presented : String}
    (sound : Sound db) (isInvite : invite ∈ db.invites)
    (named : id ∈ invite.questionId)
    (isPresented : presented ∈
      (db.platform deployment).inviteQuestions invite email) :
    presented = id := by
  have single := sound.tenancy.inviteOne invite isInvite
  rw [named, Option.isSome_some] at single
  have noAssessment : invite.assessmentId = none :=
    Option.isNone_iff_eq_none.mp single.symm
  simp only [Platform.inviteQuestions, noAssessment, Option.mem_toList,
    Option.mem_def.mp named] at isPresented
  exact (Option.some.inj isPresented).symm

theorem Change.oneQuestion (change : Change deployment served scope db after)
    (sound : Sound db) (next : Sound after) (one : OneQuestion db) :
    OneQuestion after := by
  have unique := next.constraints.uniqueKeys
  have keys := sound.constraints.foreignKeys
  cases change with
  | founded _ enters => exact one.derived { enters.derives with }
  | joined enters => exact one.derived { enters.derives with }
  | accountDeleted deleted =>
      obtain ⟨left, leaving, rfl⟩ := Database.purgeAccount_left deleted
      exact one.derived { leaving.derives.trans (derives_disown left _) with }
  | questionDeleted =>
      exact one.derived
        { Derives.refl db with
          question := derived_deleteWhere _
          invite := derived_deleteWhere _
          draft := derived_deleteWhere _ }
  | inviteRevoked isInvite =>
      exact one.derived
        { Derives.refl db with invite := derived_save isInvite rfl }
  | draftEdited _ _ _ _ isDraft =>
      exact one.derived
        { Derives.refl db with draft := derived_save isDraft rfl }
  | regraded _ _ keeps =>
      exact one.derived
        { Derives.refl db with
          submission := derived_updateWhere fun row => by
            rw [keeps.inviteId, keeps.questionId] }
  | erased => exact one.derived (derives_erase _ _ _ _ _ db)
  | recipientsDropped _ _ keeps =>
      exact one.derived
        { Derives.refl db with
          invite := derived_updateWhere fun row => by
            obtain ⟨_, _, same⟩ := keeps.rest row
            rw [same]
            rfl }
  | invitesAdded invites isNext targets =>
      have extended : OldOrNew Invite.id db.invites (db.invites ++ invites) :=
        .append unique.invite
      constructor
      · intro row isRow invite isInvite here
        exact one.draft row isRow invite
          (extended.old keys.draftInvite isRow isInvite
            (congrArg some here.symm)) here
      · intro row isRow invite isInvite here
        exact one.submission row isRow invite
          (extended.old keys.submissionInvite isRow isInvite here) here
  | submitted attempt sub _ isInvite isFor _ _ _ _ presented =>
      refine { one with submission := ?_ }
      intro row member other isOther here id named
      rcases List.mem_append.mp member with isOld | isNew
      · exact one.submission row isOld other isOther here id named
      · obtain rfl := List.mem_singleton.mp isNew
        obtain rfl := unique.invite.eq isOther isInvite
          (Option.some.inj (here.symm.trans isFor))
        exact presented_eq sound isInvite named presented
  | submittedDirectly sub _ _ _ noInvite =>
      refine { one with submission := ?_ }
      intro row member other isOther here
      rcases List.mem_append.mp member with isOld | isNew
      · exact one.submission row isOld other isOther here
      · obtain rfl := List.mem_singleton.mp isNew
        rw [noInvite] at here
        cases here
  | draftAdded draft _ isInvite _ isFor presented =>
      refine { one with draft := ?_ }
      intro row member other isOther here id named
      rcases List.mem_append.mp member with isOld | isNew
      · exact one.draft row isOld other isOther here id named
      · obtain rfl := List.mem_singleton.mp isNew
        obtain rfl := unique.invite.eq isOther isInvite (here.trans isFor)
        exact presented_eq sound isInvite named presented
  | _ => exact { one with }

theorem Run.oneQuestion {trace : List Served}
    (run : Run deployment trace db) : OneQuestion db :=
  run.keepsSound OneQuestion oneQuestion_empty
    fun change sound next => change.oneQuestion sound next

/-! ## What the guards leave -/

/-- The tables without a question, its invites, its drafts and its test
cases. -/
def Database.without (db : Database) (questionId : String) : Database :=
  { db with
    drafts := deleteWhere (fun row => row.questionId == questionId) db.drafts
    testCases :=
      deleteWhere (fun row => row.questionId == questionId) db.testCases
    invites :=
      deleteWhere (fun row => row.questionId == some questionId) db.invites
    questions := deleteWhere (fun row => row.id == questionId) db.questions }

/-- What the guards of `delete_question` have found. -/
structure Unused (db : Database) (id : String) : Prop where
  submission : ∀ row ∈ db.submissions, row.questionId ≠ id
  slot : ∀ row ∈ db.slots, row.questionId ≠ some id
  slotVariant : ∀ row ∈ db.slotVariants, row.questionId ≠ id
  attempt : ∀ row ∈ db.attempts, ∀ invite ∈ db.invites,
    invite.questionId = some id → invite.id ≠ row.inviteId
  event : ∀ row ∈ db.events, row.questionId ≠ some id ∧
    ∀ invite ∈ db.invites, invite.questionId = some id →
      invite.id ≠ row.inviteId

/-- No draw of a candidate belongs to an invite for one question. -/
theorem Sound.invite_of_draw (sound : Sound db) {row : CandidateSlotVariant}
    {invite : Invite} (isRow : row ∈ db.slotVariants)
    (isInvite : invite ∈ db.invites) (here : invite.id = row.inviteId) :
    invite.questionId = none := by
  obtain ⟨slot, isSlot, there⟩ :=
    sound.constraints.foreignKeys.slotVariantSlot row isRow _ rfl
  have isAssessment :=
    sound.tenancy.drawSlot row isRow invite isInvite here slot isSlot there
  have single := sound.tenancy.inviteOne invite isInvite
  rw [isAssessment, Option.isNone_some] at single
  exact Option.isSome_eq_false_iff.mp single |> Option.isNone_iff_eq_none.mp

/-- The deletion of an unused question breaks no constraint. -/
theorem Unused.constraints (unused : Unused db id) (sound : Sound db)
    (one : OneQuestion db) : (db.without id).Constraints := by
  have unique := sound.constraints.uniqueKeys
  have keys := sound.constraints.foreignKeys
  constructor
  · exact
      { unique with
        question := unique.question.deleteWhere
        testCase := unique.testCase.deleteWhere
        invite := unique.invite.deleteWhere
        inviteToken := unique.inviteToken.deleteWhere
        draft := unique.draft.deleteWhere
        draftCandidate := unique.draftCandidate.deleteWhere }
  · exact
      { keys with
        questionOwner := keys.questionOwner.of_sublist List.filter_sublist
        questionOrg := keys.questionOrg.of_sublist List.filter_sublist
        questionSet := keys.questionSet.of_sublist List.filter_sublist
        testCaseQuestion := keys.testCaseQuestion.deleteBoth (by
          intro row _ question _ names isGone
          simp only [Option.some.injEq] at names
          simpa [names] using isGone)
        slotQuestion := keys.slotQuestion.deleteTargets (by
          intro row isRow question _ names isGone
          rw [beq_iff_eq] at isGone
          exact unused.slot row isRow (isGone ▸ names))
        inviteQuestion := keys.inviteQuestion.deleteBoth (by
          intro row _ question _ names isGone
          simpa [names] using isGone)
        inviteAssessment :=
          keys.inviteAssessment.of_sublist List.filter_sublist
        inviteSet := keys.inviteSet.of_sublist List.filter_sublist
        inviteCreatedBy := keys.inviteCreatedBy.of_sublist List.filter_sublist
        attemptInvite := keys.attemptInvite.deleteTargets (by
          intro row isRow invite isInvite names isGone
          rw [beq_iff_eq] at isGone
          exact
            unused.attempt row isRow invite isInvite isGone
              (Option.some.inj names).symm)
        slotVariantInvite := keys.slotVariantInvite.deleteTargets (by
          intro row isRow invite isInvite names isGone
          rw [beq_iff_eq, sound.invite_of_draw isRow isInvite
            (Option.some.inj names).symm] at isGone
          cases isGone)
        slotVariantQuestion := keys.slotVariantQuestion.deleteTargets (by
          intro row isRow question _ names isGone
          rw [beq_iff_eq] at isGone
          exact
            unused.slotVariant row isRow
              ((Option.some.inj names).trans isGone))
        eventInvite := keys.eventInvite.deleteTargets (by
          intro row isRow invite isInvite names isGone
          rw [beq_iff_eq] at isGone
          exact
            (unused.event row isRow).2 invite isInvite isGone
              (Option.some.inj names).symm)
        eventQuestion := keys.eventQuestion.deleteTargets (by
          intro row isRow question _ names isGone
          rw [beq_iff_eq] at isGone
          exact (unused.event row isRow).1 (isGone ▸ names))
        draftInvite := keys.draftInvite.deleteBoth (by
          intro row isRow invite isInvite names isGone
          rw [beq_iff_eq] at isGone
          have isQuestion :=
            one.draft row isRow invite isInvite
              (Option.some.inj names).symm id isGone
          simpa using isQuestion)
        draftQuestion := keys.draftQuestion.deleteBoth (by
          intro row _ question _ names isGone
          simp only [Option.some.injEq] at names
          simpa [names] using isGone)
        submissionQuestion := keys.submissionQuestion.deleteTargets (by
          intro row isRow question _ names isGone
          rw [beq_iff_eq] at isGone
          exact
            unused.submission row isRow
              ((Option.some.inj names).trans isGone))
        submissionInvite := keys.submissionInvite.deleteTargets (by
          intro row isRow invite isInvite names isGone
          rw [beq_iff_eq] at isGone
          exact
            unused.submission row isRow
              (one.submission row isRow invite isInvite names id isGone)) }

/-! ## The route -/

theorem currentMembership_refused {refusal : HTTPException}
    (refused : db.currentMembership caller = .error refusal) :
    refusal.statusCode ∈ [401, 403] := by
  unfold Database.currentMembership Database.currentInterviewer at refused
  cases found : fetch Interviewer.id caller db.interviewers with
  | none =>
      rw [found] at refused
      cases refused
      decide
  | some current =>
      rw [found] at refused
      dsimp only [bind, Except.bind, pure, Except.pure] at refused
      split at refused
      · cases refused
        decide
      · cases refused

theorem ownedQuestion_refused {org : Membership} {refusal : HTTPException}
    (refused : db.ownedQuestion id org = .error refusal) :
    refusal.statusCode ∈ [403, 404] := by
  unfold Database.ownedQuestion at refused
  split at refused
  · cases refused
    exact List.mem_cons_of_mem _ List.mem_cons_self
  · split at refused
    · cases refused
      exact List.mem_cons_self
    · cases refused

/-- The guards count rows. -/
theorem unused_of_counts
    (unsubmitted : (db.submissions.filter fun row =>
      row.questionId == id).length = 0)
    (unslotted : (db.slots.filter fun row =>
      row.questionId == some id).length = 0)
    (undrawn : (db.slotVariants.filter fun row =>
      row.questionId == id).length = 0)
    (inactive :
      let inviteIds :=
        (db.invites.filter fun row => row.questionId == some id).map Invite.id
      (db.attempts.filter fun row => inviteIds.contains row.inviteId).length +
        (db.events.filter fun row =>
          inviteIds.contains row.inviteId ||
            row.questionId == some id).length = 0) :
    Unused db id := by
  have isOne : ∀ invite ∈ db.invites, invite.questionId = some id →
      ((db.invites.filter fun row => row.questionId == some id).map
        Invite.id).contains invite.id = true := by
    intro invite isInvite named
    rw [List.contains_iff_mem]
    apply List.mem_map_of_mem
    simpa [named] using isInvite
  obtain ⟨noAttempt, noEvent⟩ := Nat.add_eq_zero_iff.mp inactive
  refine ⟨?_, ?_, ?_, ?_, ?_⟩
  · intro row member
    simpa using forall_of_filter_length_eq_zero unsubmitted row member
  · intro row member
    simpa using forall_of_filter_length_eq_zero unslotted row member
  · intro row member
    simpa using forall_of_filter_length_eq_zero undrawn row member
  · intro row member invite isInvite named here
    apply forall_of_filter_length_eq_zero noAttempt row member
    rw [← here]
    exact isOne invite isInvite named
  · intro row member
    have absent := forall_of_filter_length_eq_zero noEvent row member
    rw [Bool.or_eq_true, not_or] at absent
    refine ⟨by simpa using absent.2, ?_⟩
    intro invite isInvite named here
    apply absent.1
    rw [← here]
    exact isOne invite isInvite named

/-- `delete_question` is refused by a guard, or it deletes what its guards have
not found in use. -/
theorem deleteQuestion_cases (db : Database) (caller : Nat) (id : String) :
    (∃ refusal, deleteQuestion db caller id = .error refusal ∧
      refusal.statusCode ∈ [401, 403, 404, 409]) ∨
    (Unused db id ∧ (∃ question ∈ db.questions, question.id = id) ∧
      deleteQuestion db caller id = (db.without id).execute) := by
  unfold deleteQuestion
  cases seat : db.currentMembership caller with
  | error refusal =>
      left
      refine ⟨refusal, by rw [error_bind], ?_⟩
      have isRefusal := currentMembership_refused seat
      simp only [List.mem_cons, List.not_mem_nil, or_false] at isRefusal ⊢
      omega
  | ok org =>
  cases owned : db.ownedQuestion id org with
  | error refusal =>
      left
      refine ⟨refusal, by rw [ok_bind, owned, error_bind], ?_⟩
      have isRefusal := ownedQuestion_refused owned
      simp only [List.mem_cons, List.not_mem_nil, or_false] at isRefusal ⊢
      omega
  | ok question =>
  obtain ⟨fetched, -⟩ := Database.ownedQuestion_eq_ok.mp owned
  simp only [ok_bind, owned, throw_bind]
  split
  · exact Or.inl ⟨_, rfl, by simp⟩
  next unsubmitted =>
  split
  · exact Or.inl ⟨_, rfl, by simp⟩
  next unslotted =>
  split
  · exact Or.inl ⟨_, rfl, by simp⟩
  next undrawn =>
  split
  · exact Or.inl ⟨_, rfl, by simp⟩
  next inactive =>
  right
  refine ⟨?_, ⟨question, mem_of_fetch fetched, key_of_fetch fetched⟩, rfl⟩
  apply unused_of_counts
  · exact not_not.mp unsubmitted
  · rw [← List.length_map AssessmentQuestion.assessmentId,
      List.length_eq_zero_iff]
    exact not_not.mp unslotted
  · exact not_not.mp undrawn
  · exact not_not.mp inactive

/-- What the deletion of a question leaves. -/
structure Removed (db after : Database) (id : String) : Prop where
  existed : ∃ question ∈ db.questions, question.id = id
  gone : ∀ question ∈ after.questions, question.id ≠ id
  others : ∀ question ∈ db.questions, question.id ≠ id →
    question ∈ after.questions
  foreignKeys : after.ForeignKeys
  submissions : after.submissions = db.submissions
  results : after.results = db.results
  attempts : after.attempts = db.attempts
  events : after.events = db.events
  feedback : after.feedback = db.feedback
  slotVariants : after.slotVariants = db.slotVariants

/-- Deleting a question is all or nothing: it is refused for a reason that the
route names, or the question goes, no reference dangles, and everything that is
recorded about candidates stays as it is. -/
theorem question_removal {trace : List Served}
    (run : Run deployment trace db) (around : Surroundings) (caller : Nat)
    (id : String) :
    (∃ refusal, serve deployment around db
        (.member caller (.deleteQuestion id)) = (db, .error refusal) ∧
      refusal.statusCode ∈ [401, 403, 404, 409]) ∨
    ∃ after, serve deployment around db
        (.member caller (.deleteQuestion id)) = (after, .ok none) ∧
      Removed db after id := by
  have route : serve deployment around db
      (.member caller (.deleteQuestion id)) =
      serve.done (lastly db (deleteQuestion db caller id)) := rfl
  rw [route]
  rcases deleteQuestion_cases db caller id with
    ⟨refusal, refused, isRefusal⟩ | ⟨unused, existed, isDeletion⟩
  · left
    rw [refused]
    exact ⟨refusal, rfl, isRefusal⟩
  · right
    have constraints := unused.constraints run.sound run.oneQuestion
    have deleted : deleteQuestion db caller id = .ok (db.without id) := by
      rw [isDeletion, Database.execute_eq_ok]
      exact ⟨constraints, rfl⟩
    rw [deleted]
    refine ⟨db.without id, rfl, ?_⟩
    exact
      { existed := existed
        gone := fun question member => by
          simpa using (mem_deleteWhere.mp member).2
        others := fun question member other =>
          mem_deleteWhere.mpr ⟨member, by simpa using other⟩
        foreignKeys := constraints.foreignKeys
        submissions := rfl
        results := rfl
        attempts := rfl
        events := rfl
        feedback := rfl
        slotVariants := rfl }

namespace Scenario

theorem fixed_qb : given (some "qb") ≠ given none := by decide

theorem fixed_qc : given (some "qc") ≠ given none := by decide

theorem other_slots : [fixedSlot "qb" fixed_qb, fixedSlot "qc" fixed_qc] ≠ [] :=
  List.cons_ne_nil _ _

/-- The assessment `bc` of the questions `qb` and `qc`. -/
def otherAssessment : AssessmentIn where
  id := some "bc"
  title := "bc"
  durationMinutes := some 30
  proctored := true
  slots := [fixedSlot "qb" fixed_qb, fixedSlot "qc" fixed_qc]
  slots_nonempty := other_slots

/-- A question whose invite has been used for a draft only, next to an
assessment that the same candidate has worked on. -/
def fresh : List Asked :=
  [registers, createsQuestion 'b' "qa", createsQuestion 'c' "qb",
    createsQuestion 'd' "qc", asks 0 'e' (.createAssessment otherAssessment),
    asks 1 'f' (.createInvite "qa" ⟨["c@x"], candidate_invited, none⟩),
    asks 1 'g'
      (.createAssessmentInvite "bc" ⟨["c@x"], candidate_invited, none⟩),
    behind "f" 2 'h' (.saveDraft ⟨"c@x", some "qa", "code", "py"⟩),
    behind "g" 2 'i' (.start ⟨"c@x", true, some "Cy"⟩),
    behind "g" 3 'j' (.saveDraft ⟨"c@x", some "qb", "code", "py"⟩),
    behind "g" 3 'k'
      (.events
        ⟨"c@x", some "qb", [⟨"paste_external", 0, none, some 5, true⟩]⟩),
    behind "g" 4 'l' (.submit ⟨"Cy", "c@x", "py", "code", some "qc", true⟩)]

/-- Its deletion. -/
def deletes : Asked :=
  asks 5 'm' (.deleteQuestion "qa")

end Scenario

open Scenario in
theorem question_removal_fresh :
    ∃ after, serve Scenario.deployment deletes.1 (play fresh).2 deletes.2 =
        (after, .ok none) ∧
      Removed (play fresh).2 after "qa" := by
  rcases question_removal (run_play fresh) deletes.1 1 "qa" with
    ⟨refusal, refused, -⟩ | removed
  · have deleted :
        (serve Scenario.deployment deletes.1 (play fresh).2
          (.member 1 (.deleteQuestion "qa"))).2.isOk = true := by
      decide +kernel
    rw [refused] at deleted
    cases deleted
  · exact removed

end AssessmentPlatform
