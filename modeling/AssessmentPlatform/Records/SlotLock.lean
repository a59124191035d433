import AssessmentPlatform.Records.Sample
import AssessmentPlatform.Records.Tenancy

/-!
# The slots of an invited assessment are locked

An assessment cannot be deleted and its slots cannot be replaced once an invite
names it, and no request but the purge of its organisation deletes such an
invite.
-/

namespace AssessmentPlatform

open Rows

variable {deployment : Deployment} {served : Served} {scope : Option Nat}
variable {db after left base : Database} {orgId : Nat} {assessmentId : String}
variable {slots : List AssessmentQuestion}

/-- An assessment of an organisation is invited to, and these are its slots. -/
structure SlotsLocked (orgId : Nat) (assessmentId : String)
    (slots : List AssessmentQuestion) (db : Database) : Prop where
  assessment : (assessmentId, orgId) ∈
    db.assessments.map fun row => (row.id, row.orgId)
  invite : some assessmentId ∈ db.invites.map Invite.assessmentId
  slots : db.slots.filter (fun slot => slot.assessmentId == assessmentId) =
    slots

theorem SlotsLocked.purged {purgedId : Nat} (sound : Sound db)
    (locked : SlotsLocked orgId assessmentId slots db)
    (apart : orgId ≠ purgedId) :
    SlotsLocked orgId assessmentId slots (db.purged purgedId) := by
  have notOwned : db.ownsAssessment purgedId assessmentId = false := by
    obtain ⟨row, isRow, same⟩ := List.mem_map.mp locked.assessment
    obtain ⟨sameId, inOrg⟩ := Prod.mk.inj same
    simp only [Database.ownsAssessment, List.any_eq_false, Bool.and_eq_true,
      beq_iff_eq, not_and]
    intro other isOther named isPurged
    have isRow' := sound.constraints.uniqueKeys.assessment.eq isOther isRow
      (named.trans sameId.symm)
    exact apart (by rw [← inOrg, ← isRow', isPurged])
  constructor
  · apply mem_map_deleteWhere locked.assessment
    intro row _ same isPurged
    exact apart ((Prod.mk.inj same).2 ▸ by simpa using isPurged)
  · apply mem_map_deleteWhere locked.invite
    intro invite isInvite named isPurged
    have single := sound.tenancy.inviteOne invite isInvite
    rw [named, Option.isNone_some, Option.isSome_eq_false_iff,
      Option.isNone_iff_eq_none] at single
    simp only [Database.ownsInvite, List.any_eq_true, Bool.and_eq_true,
      beq_iff_eq] at isPurged
    obtain ⟨other, isOther, same, owned⟩ := isPurged
    obtain rfl := sound.constraints.uniqueKeys.invite.eq isOther isInvite same
    rw [single, named] at owned
    simp [notOwned] at owned
  · rw [← locked.slots]
    apply filter_deleteWhere
    intro slot _ isPurged
    apply Bool.eq_false_iff.mpr
    intro here
    rw [beq_iff_eq.mp here, notOwned] at isPurged
    cases isPurged

theorem SlotsLocked.disown (locked : SlotsLocked orgId assessmentId slots db)
    (interviewerId : Nat) :
    SlotsLocked orgId assessmentId slots (db.disown interviewerId) where
  assessment := mem_map_updateWhere (fun _ => rfl) locked.assessment
  invite := mem_map_updateWhere (fun _ => rfl) locked.invite
  slots := locked.slots

/-- An assessment without an invite is another one. -/
theorem SlotsLocked.ne_uninvited {assessment : Assessment}
    (locked : SlotsLocked orgId assessmentId slots db)
    (uninvited : ∀ invite ∈ db.invites,
      invite.assessmentId ≠ some assessment.id) :
    assessment.id ≠ assessmentId := by
  intro same
  obtain ⟨invite, isInvite, named⟩ := List.mem_map.mp locked.invite
  exact uninvited invite isInvite (same ▸ named)

theorem SlotsLocked.entered {account : Interviewer} {gaveUp : Option Nat}
    (locked : SlotsLocked orgId assessmentId slots db) (sound : Sound db)
    (enters : Enters db account gaveUp base) (stands : base.Stands orgId) :
    SlotsLocked orgId assessmentId slots base := by
  cases enters with
  | newcomer => exact { locked with }
  | seatless => exact locked
  | leaving _ _ gaveUp =>
      obtain ⟨rfl, _⟩ := leaveEmptyOrg_eq_ok gaveUp
      exact locked.purged sound (stands_purged.mp stands).2

theorem SlotsLocked.leaving {interviewerId : Nat}
    (locked : SlotsLocked orgId assessmentId slots db) (sound : Sound db)
    (leaving : Database.Left db interviewerId left)
    (stands : left.Stands orgId) :
    SlotsLocked orgId assessmentId slots left := by
  cases leaving with
  | seatless => exact locked
  | shared => exact { locked with }
  | last => exact locked.purged sound (stands_purged.mp stands).2

/-- Other assessments take other slots. -/
theorem filter_slots_append {otherId : String}
    {old added : List AssessmentQuestion}
    (isOther : ∀ slot ∈ added, slot.assessmentId = otherId)
    (apart : otherId ≠ assessmentId) :
    (old ++ added).filter (fun slot => slot.assessmentId == assessmentId) =
      old.filter fun slot => slot.assessmentId == assessmentId := by
  apply filter_append_of_forall
  intro slot member
  simpa [isOther slot member] using apart

/-- Every transaction that leaves the organisation leaves the slots of an
assessment that is invited to. -/
theorem Change.slotsLocked (change : Change deployment served scope db after)
    (sound : Sound db) (next : after.Constraints)
    (locked : SlotsLocked orgId assessmentId slots db)
    (stands : after.Stands orgId) :
    SlotsLocked orgId assessmentId slots after := by
  have uniqueKeys := sound.constraints.uniqueKeys
  cases change with
  | founded _ enters =>
      cases enters with
      | newcomer => exact { locked with }
      | seatless => exact { locked with }
  | joined enters => exact { locked.entered sound enters stands with }
  | accountDeleted deleted =>
      obtain ⟨left, leaving, rfl⟩ := Database.purgeAccount_left deleted
      exact { (locked.leaving sound leaving stands).disown _ with }
  | questionDeleted =>
      refine { locked with invite := ?_ }
      apply mem_map_deleteWhere locked.invite
      intro invite isInvite named isDeleted
      have single := sound.tenancy.inviteOne invite isInvite
      rw [beq_iff_eq.mp isDeleted, named] at single
      cases single
  | assessmentAdded assessment added inOrg rows =>
      have isNew : assessment.id ≠ assessmentId := by
        obtain ⟨row, isRow, same⟩ := List.mem_map.mp locked.assessment
        rw [← (Prod.mk.inj same).1]
        have keyed : Keyed Assessment.id (db.assessments ++ [assessment]) :=
          next.uniqueKeys.assessment
        exact (keyed.ne_of_append isRow List.mem_cons_self).symm
      refine { locked with assessment := ?_, slots := ?_ }
      · rw [List.map_append]
        exact List.mem_append_left _ locked.assessment
      · rw [filter_slots_append rows.assessment isNew]
        exact locked.slots
  | assessmentEdited _ _ _ isAssessment _ =>
      exact { locked with
        assessment := mem_map_save uniqueKeys.assessment isAssessment rfl rfl
          locked.assessment }
  | slotsReplaced _ _ _ _ isAssessment _ uninvited rows =>
      have apart := locked.ne_uninvited uninvited
      refine { locked with assessment := ?_, slots := ?_ }
      · exact mem_map_save uniqueKeys.assessment isAssessment rfl rfl
          locked.assessment
      · rw [filter_slots_append rows.assessment apart, filter_deleteWhere]
        · exact locked.slots
        · intro slot _ isReplaced
          rw [beq_iff_eq.mp isReplaced]
          exact beq_eq_false_iff_ne.mpr apart
  | assessmentDeleted _ _ uninvited =>
      have apart := locked.ne_uninvited uninvited
      refine { locked with assessment := ?_, slots := ?_ }
      · apply mem_map_deleteWhere locked.assessment
        intro row _ same isDeleted
        exact apart ((beq_iff_eq.mp isDeleted).symm.trans (Prod.mk.inj same).1)
      · rw [filter_deleteWhere]
        · exact locked.slots
        · intro slot _ isDeleted
          rw [beq_iff_eq.mp isDeleted]
          exact beq_eq_false_iff_ne.mpr apart
  | invitesAdded invites =>
      refine { locked with invite := ?_ }
      simp only [addInvites, List.map_append]
      exact List.mem_append_left _ locked.invite
  | inviteRevoked isInvite =>
      exact { locked with
        invite := mem_map_save uniqueKeys.invite isInvite rfl rfl
          locked.invite }
  | erased =>
      exact { locked with
        invite := mem_map_updateWhere (fun _ => rfl) locked.invite }
  | recipientsDropped _ _ keeps =>
      refine { locked with invite := mem_map_updateWhere ?_ locked.invite }
      intro row
      obtain ⟨_, _, same⟩ := keeps.rest row
      rw [same]
  | _ => exact { locked with }

/-- An assessment that is invited to is locked while its organisation
stands. -/
theorem Run.slotsLocked {trace : List Served} (run : Run deployment trace db)
    (member : served ∈ trace) {assessment : Assessment} {invite : Invite}
    (isAssessment : assessment ∈ served.before.assessments)
    (isInvite : invite ∈ served.before.invites)
    (isFor : invite.assessmentId = some assessment.id)
    (stands : db.Stands assessment.orgId) :
    SlotsLocked assessment.orgId assessment.id
      (served.before.slots.filter fun slot =>
        slot.assessmentId == assessment.id) db := by
  have isOld : assessment.orgId < served.before.nextId := by
    obtain ⟨org, isOrg, same⟩ :=
      (run.sound_before member).constraints.foreignKeys.assessmentOrg assessment
        isAssessment _ rfl
    exact same ▸ (run.sound_before member).ids.organization org isOrg
  have both := run.sinceSound
    (fun db => assessment.orgId < db.nextId ∧
      (db.Stands assessment.orgId → SlotsLocked assessment.orgId assessment.id
        (served.before.slots.filter fun slot =>
          slot.assessmentId == assessment.id) db))
    member
    ⟨isOld, fun _ =>
      { assessment := List.mem_map_of_mem isAssessment
        invite := isFor ▸ List.mem_map_of_mem isInvite
        slots := rfl }⟩
    fun change sound next ⟨isOld, locked⟩ =>
      ⟨Nat.lt_of_lt_of_le isOld change.nextId_le, fun stands =>
        change.slotsLocked sound next.constraints
          (locked (change.stands isOld stands)) stands⟩
  exact both.2 stands

/-- The slots of an assessment are the same from the first invite to the purge
of its organisation, and what was drawn for a slot stays a question there. -/
theorem slots_locked {trace : List Served} (run : Run deployment trace db) :
    (∀ served ∈ trace, ∀ assessment ∈ served.before.assessments,
      (∃ invite ∈ served.before.invites,
        invite.assessmentId = some assessment.id) →
      db.Stands assessment.orgId →
        db.slotsOf assessment.id = served.before.slotsOf assessment.id) ∧
    ∀ row ∈ db.slotVariants,
      ∃ invite ∈ db.invites, invite.id = row.inviteId ∧
        (∃ slot ∈ db.slots, slot.id = row.assessmentQuestionId ∧
          invite.assessmentId = some slot.assessmentId) ∧
        ∃ question ∈ db.questions, question.id = row.questionId := by
  constructor
  · intro served member assessment isAssessment ⟨invite, isInvite, isFor⟩ stands
    have locked := run.slotsLocked member isAssessment isInvite isFor stands
    rw [Database.slotsOf, locked.slots]
    rfl
  · intro row isRow
    have keys := run.constraints.foreignKeys
    obtain ⟨invite, isInvite, here⟩ := keys.slotVariantInvite row isRow _ rfl
    obtain ⟨slot, isSlot, there⟩ := keys.slotVariantSlot row isRow _ rfl
    obtain ⟨question, isQuestion, named⟩ :=
      keys.slotVariantQuestion row isRow _ rfl
    exact ⟨invite, isInvite, here,
      ⟨slot, isSlot, there, run.sound.tenancy.drawSlot row isRow invite
        isInvite here slot isSlot there⟩,
      question, isQuestion, named⟩

/-- An edit that drops a slot, after the invite. -/
def Scenario.shortens : Asked :=
  asks 4 'h' (.updateAssessment "ab"
    { assessmentIn with
      slots := [fixedSlot "qa" fixed_qa]
      slots_nonempty := by decide })

/-- After the invite, an edit that drops a slot is refused. -/
theorem slots_locked_shortens :
    (Scenario.play (Scenario.submitted ++ [Scenario.shortens])).2.slotsOf "ab" =
      (Scenario.play Scenario.submitted).2.slotsOf "ab" := by
  have run := Scenario.run_play (Scenario.submitted ++ [Scenario.shortens])
  exact (slots_locked run).1
    (Scenario.servedAfter Scenario.submitted Scenario.shortens)
    (Scenario.mem_play _ _ []) ⟨"ab", some 1, 2, "ab", some 30, none, false⟩
    (by decide) (by decide) (by unfold Database.Stands; decide)

end AssessmentPlatform
