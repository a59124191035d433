import AssessmentPlatform.Records.RefusedStart
import AssessmentPlatform.Records.SlotDraws
import AssessmentPlatform.Records.SlotLock

/-!
# The paper of a sitting

Every request of a candidate resolves the questions of the sitting again.  A
slot with a question of its own keeps it, and a slot with a variant set is
answered by the draw that was frozen for the candidate, so that what was
resolved once is resolved the same way for as long as the sitting is stored.
-/

namespace AssessmentPlatform

open Rows

variable {deployment : Deployment} {served : Served} {scope : Option Nat}
variable {db after base left : Database} {invite : Invite} {email : String}
variable {slot : AssessmentQuestion} {slots : List AssessmentQuestion}
variable {questions : List Question}

/-! ## Papers without an open slot -/

/-- Every slot with a variant set has been drawn for the candidate. -/
def AllDrawn (db : Database) (invite : Invite) (email : String)
    (slots : List AssessmentQuestion) : Prop :=
  ∀ slot ∈ slots, slot.variantSetId.isSome →
    (drawOf db invite slot email).isSome

/-- A slot that has been drawn, or has a question of its own, draws nothing. -/
theorem slotQuestions_drawn (constraints : db.Constraints)
    (isSlots : ∀ slot ∈ slots, slot ∈ db.slots)
    (one : ∀ slot ∈ slots, slot.questionId.isSome = slot.variantSetId.isNone)
    (drawn : AllDrawn db invite email slots) :
    ∃ questions, slotQuestions invite email slots db = (db, .ok questions) ∧
      questions.map Question.id =
        slots.map (db.slotQuestion invite.id email) := by
  induction slots with
  | nil => exact ⟨[], rfl, rfl⟩
  | cons slot rest inductionHypothesis =>
      obtain ⟨others, resolved, same⟩ := inductionHypothesis
        (fun other member => isSlots other (List.mem_cons_of_mem _ member))
        (fun other member => one other (List.mem_cons_of_mem _ member))
        fun other member => drawn other (List.mem_cons_of_mem _ member)
      have keys := constraints.foreignKeys
      have keyed := constraints.uniqueKeys.question
      cases isSet : slot.variantSetId with
      | some setId =>
          obtain ⟨row, found⟩ := Option.isSome_iff_exists.mp
            (drawn slot List.mem_cons_self (by simp [isSet]))
          obtain ⟨isRow, _⟩ := drawOf_eq_some found
          obtain ⟨question, isQuestion, named⟩ :=
            keys.slotVariantQuestion row isRow _ rfl
          have frozen : resolveSlotVariant db invite slot setId email =
              (db, .ok question) :=
            resolveSlotVariant_frozen found (keyed.fetch_eq isQuestion named)
          refine ⟨question :: others, ?_, ?_⟩
          · simp [slotQuestions, isSet, Handled.andThen, frozen, resolved]
          · unfold drawOf at found
            simp [Database.slotQuestion, isSet, found, named, same]
      | none =>
          have isFixed := one slot List.mem_cons_self
          rw [isSet, Option.isNone_none] at isFixed
          obtain ⟨id, isId⟩ := Option.isSome_iff_exists.mp isFixed
          obtain ⟨question, isQuestion, named⟩ :=
            keys.slotQuestion slot (isSlots slot List.mem_cons_self) id isId
          have fetched : fetch Question.id id db.questions = some question :=
            keyed.fetch_eq isQuestion named
          refine ⟨question :: others, ?_, ?_⟩
          · simp [slotQuestions, isSet, isId, Handled.andThen, fetched,
              resolved]
          · simp [Database.slotQuestion, isSet, isId, named, same]

/-- What an invite presents once nothing is left to draw. -/
theorem inviteQuestions_drawn (sound : Sound db) (slotted : Slotted db)
    (isInvite : invite ∈ db.invites)
    (drawn : ∀ assessmentId, invite.assessmentId = some assessmentId →
      AllDrawn db invite email (db.slotsOf assessmentId)) :
    ∃ questions, inviteQuestions invite email db = (db, .ok questions) ∧
      questions.map Question.id =
        (db.platform deployment).inviteQuestions invite email := by
  have constraints := sound.constraints
  have one := sound.tenancy.inviteOne invite isInvite
  unfold inviteQuestions Platform.inviteQuestions
  cases isAssessment : invite.assessmentId with
  | none =>
      rw [isAssessment, Option.isNone_none] at one
      obtain ⟨id, isId⟩ := Option.isSome_iff_exists.mp one
      obtain ⟨question, isQuestion, named⟩ :=
        constraints.foreignKeys.inviteQuestion invite isInvite id isId
      have fetched : fetch Question.id id db.questions = some question :=
        constraints.uniqueKeys.question.fetch_eq isQuestion named
      exact ⟨[question], by simp [isId, fetched], by simp [isId, named]⟩
  | some assessmentId =>
      obtain ⟨assessment, isMember, rfl⟩ :=
        constraints.foreignKeys.inviteAssessment invite isInvite assessmentId
          isAssessment
      have fetched : fetch Assessment.id assessment.id db.assessments =
          some assessment :=
        constraints.uniqueKeys.assessment.fetch_eq isMember rfl
      obtain ⟨questions, resolved, same⟩ := slotQuestions_drawn constraints
        (fun slot member => (mem_slotsOf.mp member).1)
        (fun slot member =>
          sound.tenancy.slotOne slot (mem_slotsOf.mp member).1)
        (drawn assessment.id isAssessment)
      obtain ⟨slot, isSlot, isOf⟩ := slotted assessment isMember
      have nonempty : questions ≠ [] := by
        intro isEmpty
        rw [isEmpty, List.map_nil, eq_comm, List.map_eq_nil_iff] at same
        have member := mem_slotsOf.mpr ⟨isSlot, isOf⟩
        rw [same] at member
        cases member
      refine ⟨questions, ?_, same⟩
      simp [fetched, Handled.andThen, resolved, nonempty]

/-- Whatever stands on the left of paired lists has a partner on the right. -/
theorem exists_right_of_forall₂ {Left Right : Type}
    {related : Left → Right → Prop} {lefts : List Left} {rights : List Right}
    {left : Left} (paired : List.Forall₂ related lefts rights)
    (member : left ∈ lefts) : ∃ right ∈ rights, related left right := by
  induction paired with
  | nil => cases member
  | cons here _ inductionHypothesis =>
      rcases List.mem_cons.mp member with rfl | later
      · exact ⟨_, List.mem_cons_self, here⟩
      · obtain ⟨right, isRight, there⟩ := inductionHypothesis later
        exact ⟨right, List.mem_cons_of_mem _ isRight, there⟩

/-- An invite that has presented its questions has nothing left to draw. -/
theorem allDrawn_of_presented {assessmentId : String}
    (isAssessment : invite.assessmentId = some assessmentId)
    (presented : (inviteQuestions invite email db).2 = .ok questions) :
    AllDrawn (inviteQuestions invite email db).1 invite email
      (db.slotsOf assessmentId) := by
  intro slot isSlot isSet
  have present : slot ∈ (db.slotsOf assessmentId).filter (presents db) :=
    List.mem_filter.mpr ⟨isSlot, by simp [presents, isSet]⟩
  obtain ⟨question, _, resolved⟩ := exists_right_of_forall₂
    (inviteQuestions_resolved isAssessment presented) present
  rcases resolved.presented with ⟨noSet, _⟩ | ⟨_, row, found, _⟩
  · simp [noSet] at isSet
  · simp [found]

/-! ## Draws stay with their sitting -/

/-- The draws of a sitting, by slot and question, as they were once. -/
structure DrawsStay (attemptId : Nat) (draws : List (Nat × String))
    (db : Database) : Prop where
  old : attemptId < db.nextId
  stay : ∀ row ∈ db.attempts, row.id = attemptId → ∀ entry ∈ draws,
    ∃ draw ∈ db.slotVariants, draw.inviteId = row.inviteId ∧
      draw.candidateEmail = row.candidateEmail ∧
      (draw.assessmentQuestionId, draw.questionId) = entry

variable {attemptId : Nat} {draws : List (Nat × String)}

/-- Draws stay where sittings keep their addresses, and the draws of a sitting
that is left are left. -/
theorem DrawsStay.kept (stay : DrawsStay attemptId draws db)
    (later : db.nextId ≤ after.nextId)
    (sittings : ∀ row ∈ after.attempts, row.id = attemptId →
      ∃ was ∈ db.attempts, was.id = row.id ∧ was.inviteId = row.inviteId ∧
        was.candidateEmail = row.candidateEmail)
    (left : ∀ draw ∈ db.slotVariants, ∀ row ∈ after.attempts,
      draw.inviteId = row.inviteId → draw ∈ after.slotVariants) :
    DrawsStay attemptId draws after where
  old := Nat.lt_of_lt_of_le stay.old later
  stay row isRow same entry isEntry := by
    obtain ⟨was, isWas, wasId, wasInvite, wasEmail⟩ := sittings row isRow same
    obtain ⟨draw, isDraw, sameInvite, sameEmail, isDrawn⟩ :=
      stay.stay was isWas (wasId.trans same) entry isEntry
    have isHere : draw.inviteId = row.inviteId := sameInvite.trans wasInvite
    exact ⟨draw, left draw isDraw row isRow isHere, isHere,
      sameEmail.trans wasEmail, isDrawn⟩

theorem DrawsStay.updated (stay : DrawsStay attemptId draws db)
    {matched : CandidateAttempt → Bool}
    {change : CandidateAttempt → CandidateAttempt}
    (keeps : ∀ row, (change row).id = row.id ∧
      (change row).inviteId = row.inviteId ∧
      (change row).candidateEmail = row.candidateEmail) :
    DrawsStay attemptId draws
      { db with attempts := updateWhere matched change db.attempts } := by
  apply DrawsStay.kept stay
  · exact Nat.le_refl _
  case left => exact fun _ isDraw _ _ _ => isDraw
  intro row isRow _
  obtain ⟨was, isWas, rfl⟩ := mem_of_mem_updateWhere isRow
  refine ⟨was, isWas, ?_⟩
  obtain ⟨sameId, sameInvite, sameEmail⟩ := keeps was
  split
  · exact ⟨sameId.symm, sameInvite.symm, sameEmail.symm⟩
  · exact ⟨rfl, rfl, rfl⟩

theorem DrawsStay.purged (stay : DrawsStay attemptId draws db)
    (orgId : Nat) : DrawsStay attemptId draws (db.purged orgId) := by
  apply DrawsStay.kept stay
  · exact Nat.le_refl _
  · intro row isRow _
    exact ⟨row, (mem_deleteWhere.mp isRow).1, rfl, rfl, rfl⟩
  · intro draw isDraw row isRow same
    apply mem_deleteWhere.mpr
    exact ⟨isDraw, same ▸ (mem_deleteWhere.mp isRow).2⟩

theorem Enters.drawsStay {account : Interviewer} {gaveUp : Option Nat}
    (enters : Enters db account gaveUp base)
    (stay : DrawsStay attemptId draws db) :
    DrawsStay attemptId draws base := by
  cases enters with
  | newcomer =>
      exact { stay with old := Nat.lt_of_lt_of_le stay.old (Nat.le_succ _) }
  | seatless => exact stay
  | leaving _ _ gaveUp =>
      obtain ⟨rfl, _⟩ := leaveEmptyOrg_eq_ok gaveUp
      exact stay.purged _

/-- An erasure gives the draws of a sitting the pseudonym that it gives the
sitting. -/
theorem DrawsStay.erased (stay : DrawsStay attemptId draws db) (now : Time)
    (pseudonym address : String) (inviteIds : List Nat)
    (submissionIds : List String) :
    DrawsStay attemptId draws
      (erase now pseudonym address inviteIds submissionIds db) where
  old := stay.old
  stay row isRow same entry isEntry := by
    obtain ⟨was, isWas, isRow⟩ := mem_of_mem_updateWhere isRow
    have wasId : was.id = attemptId := by
      rw [← same, isRow]
      split <;> rfl
    obtain ⟨draw, isDraw, sameInvite, sameEmail, isDrawn⟩ :=
      stay.stay was isWas wasId entry isEntry
    by_cases isErased :
        (inviteIds.contains was.inviteId && was.candidateEmail == address) =
          true
    · obtain rfl : row = was.erase pseudonym now :=
        isRow.trans (if_pos isErased)
      have alsoErased : (inviteIds.contains draw.inviteId &&
          draw.candidateEmail == address) = true := by
        rw [sameInvite, sameEmail]
        exact isErased
      exact ⟨{ draw with candidateEmail := pseudonym },
        mem_updateWhere.mpr (Or.inl ⟨draw, isDraw, alsoErased, rfl⟩),
        sameInvite, rfl, isDrawn⟩
    · obtain rfl : row = was := isRow.trans (if_neg isErased)
      have notErased : ¬(inviteIds.contains draw.inviteId &&
          draw.candidateEmail == address) = true := by
        rw [sameInvite, sameEmail]
        exact isErased
      exact ⟨draw, mem_updateWhere.mpr (Or.inr ⟨isDraw, notErased⟩),
        sameInvite, sameEmail, isDrawn⟩

theorem Change.drawsStay (change : Change deployment served scope db after)
    (stay : DrawsStay attemptId draws db) :
    DrawsStay attemptId draws after := by
  have old := Nat.lt_of_lt_of_le stay.old change.nextId_le
  cases change with
  | founded _ enters => exact { enters.drawsStay stay with old := old }
  | joined enters => exact { enters.drawsStay stay with old := old }
  | accountDeleted deleted =>
      obtain ⟨left, leaving, rfl⟩ := Database.purgeAccount_left deleted
      cases leaving with
      | seatless => exact { stay with }
      | shared => exact { stay with }
      | last => exact { stay.purged _ with }
  | drawn =>
      refine { stay with old := old, stay := ?_ }
      intro row isRow same entry isEntry
      obtain ⟨draw, isDraw, isDrawn⟩ := stay.stay row isRow same entry isEntry
      exact ⟨draw, List.mem_append_left _ isDraw, isDrawn⟩
  | started attempt _ _ isNext =>
      refine { stay with old := old, stay := ?_ }
      intro row isRow same
      rcases List.mem_append.mp isRow with isOld | isNew
      · exact stay.stay row isOld same
      · obtain rfl := List.mem_singleton.mp isNew
        have before := stay.old
        omega
  | named => exact stay.updated fun _ => ⟨rfl, rfl, rfl⟩
  | stamped _ _ keeps =>
      exact stay.updated fun row =>
        ⟨keeps.id row, keeps.inviteId row, keeps.candidateEmail row⟩
  | erased => exact stay.erased _ _ _ _ _
  | _ => exact { stay with old := old }

/-! ## The organisation behind an assessment stays -/

/-- An assessment that was there is still of its organisation. -/
theorem Change.assessmentStays
    (change : Change deployment served scope db after)
    (next : after.Constraints) {was now : Assessment}
    (isWas : was ∈ db.assessments) (isNow : now ∈ after.assessments)
    (same : now.id = was.id) (keyed : Keyed Assessment.id db.assessments) :
    now.orgId = was.orgId := by
  have inherited (derived : Derived (fun row => (row.id, row.orgId))
      db.assessments after.assessments) : now.orgId = was.orgId := by
    obtain ⟨old, isOld, kept⟩ := derived now isNow
    obtain ⟨sameId, sameOrg⟩ := Prod.mk.inj kept
    obtain rfl := keyed.eq isOld isWas (sameId.trans same)
    exact sameOrg.symm
  cases change with
  | founded _ enters => exact inherited enters.derives.assessment
  | joined enters => exact inherited enters.derives.assessment
  | accountDeleted deleted =>
      obtain ⟨left, leaving, rfl⟩ := Database.purgeAccount_left deleted
      exact inherited
        (leaving.derives.assessment.trans (derived_updateWhere fun _ => rfl))
  | assessmentAdded assessment =>
      rcases List.mem_append.mp isNow with isOld | isNew
      · exact congrArg Assessment.orgId (keyed.eq isOld isWas same)
      · have unique : Keyed Assessment.id (db.assessments ++ [assessment]) :=
          next.uniqueKeys.assessment
        exact absurd same (unique.ne_of_append isWas isNew).symm
  | assessmentEdited _ _ _ isAssessment =>
      exact inherited (derived_save isAssessment rfl)
  | slotsReplaced _ _ _ _ isAssessment =>
      exact inherited (derived_save isAssessment rfl)
  | assessmentDeleted => exact inherited (derived_deleteWhere _)
  | _ => exact congrArg Assessment.orgId (keyed.eq isNow isWas same)

/-- An invite to an assessment, and the slots of the assessment, as they were
while the invite is stored. -/
structure InviteStays (invite : Invite) (assessment : Assessment)
    (slots : List AssessmentQuestion) (db : Database) : Prop where
  old : invite.id < db.nextId
  terms : ∀ current ∈ db.invites, current.id = invite.id →
    current.terms = invite.terms
  locked : (∃ current ∈ db.invites, current.id = invite.id) →
    SlotsLocked assessment.orgId assessment.id slots db

theorem Change.inviteStays (change : Change deployment served scope db after)
    {assessment : Assessment} (sound : Sound db) (next : Sound after)
    (isFor : invite.assessmentId = some assessment.id)
    (stays : InviteStays invite assessment slots db) :
    InviteStays invite assessment slots after := by
  have keeps : KeepsTerms db after := change.keepsTerms
  have terms := keeps.keeps stays.old stays.terms
  refine ⟨Nat.lt_of_lt_of_le stays.old change.nextId_le, terms, ?_⟩
  intro ⟨current, isCurrent, same⟩
  -- the invite is not one that this transaction adds
  have before : ∃ was ∈ db.invites, was.id = invite.id := by
    rcases keeps current isCurrent with ⟨was, isWas, kept⟩ | isNew
    · exact ⟨was, isWas, (Prod.mk.inj kept).1.trans same⟩
    · have isOld := stays.old
      omega
  have locked := stays.locked before
  apply change.slotsLocked sound next.constraints locked
  have sameTerms := terms current isCurrent same
  simp only [Invite.terms, Prod.mk.injEq] at sameTerms
  obtain ⟨now, isNow, named⟩ :=
    next.constraints.foreignKeys.inviteAssessment current isCurrent _
      (sameTerms.2.2.1.trans isFor)
  obtain ⟨was, isWas, wasOf⟩ := List.mem_map.mp locked.assessment
  obtain ⟨wasNamed, inOrg⟩ := Prod.mk.inj wasOf
  have sameOrg : now.orgId = was.orgId :=
    change.assessmentStays next.constraints isWas isNow
      (named.trans wasNamed.symm) sound.constraints.uniqueKeys.assessment
  obtain ⟨org, isOrg, stands⟩ :=
    next.constraints.foreignKeys.assessmentOrg now isNow _ rfl
  exact List.mem_map.mpr ⟨org, isOrg, stands.trans (sameOrg.trans inOrg)⟩

theorem inviteStays_self {assessment : Assessment} (sound : Sound db)
    (isInvite : invite ∈ db.invites)
    (isAssessment : assessment ∈ db.assessments)
    (isFor : invite.assessmentId = some assessment.id) :
    InviteStays invite assessment
      (db.slots.filter fun slot => slot.assessmentId == assessment.id) db where
  old := sound.ids.invite invite isInvite
  terms current isCurrent same := by
    rw [sound.constraints.uniqueKeys.invite.eq isCurrent isInvite same]
  locked _ :=
    { assessment := List.mem_map_of_mem isAssessment
      invite := isFor ▸ List.mem_map_of_mem isInvite
      slots := rfl }

/-- A stored sitting on an invite of an assessment, with its draws. -/
structure PaperStays (attempt : CandidateAttempt) (invite : Invite)
    (assessment : Assessment) (slots : List AssessmentQuestion)
    (draws : List (Nat × String)) (db : Database) : Prop where
  invite : InviteStays invite assessment slots db
  draws : DrawsStay attempt.id draws db

/-! ## Over a run -/

/-- The draws of a candidate on an invite, by slot and question. -/
def Database.drawsOn (db : Database) (invite : Invite) (email : String) :
    List (Nat × String) :=
  (db.slotVariants.filter fun row =>
    row.inviteId == invite.id && row.candidateEmail == email).map fun row =>
      (row.assessmentQuestionId, row.questionId)

theorem mem_drawsOn {row : CandidateSlotVariant}
    (found : drawOf db invite slot email = some row) :
    (slot.id, row.questionId) ∈ db.drawsOn invite email := by
  obtain ⟨isRow, isInvite, isEmail, isSlot⟩ := drawOf_eq_some found
  apply List.mem_map.mpr
  refine ⟨row, List.mem_filter.mpr ⟨isRow, ?_⟩, by rw [isSlot]⟩
  simp [isInvite, isEmail]

/-- Draws that stayed answer the slots as they did. -/
theorem DrawsStay.drawOf {attempt row : CandidateAttempt} {was : Database}
    {current : Invite} {drawn : CandidateSlotVariant}
    (stay : DrawsStay attempt.id (was.drawsOn invite attempt.candidateEmail)
      db)
    (constraints : db.Constraints) (isRow : row ∈ db.attempts)
    (same : row.id = attempt.id) (isCurrent : row.inviteId = current.id)
    (found : drawOf was invite slot attempt.candidateEmail = some drawn) :
    ∃ draw, AssessmentPlatform.drawOf db current slot row.candidateEmail =
      some draw ∧ draw.questionId = drawn.questionId := by
  obtain ⟨draw, isDraw, sameInvite, sameEmail, isDrawn⟩ :=
    stay.stay row isRow same _ (mem_drawsOn found)
  obtain ⟨isSlot, isQuestion⟩ := Prod.mk.inj isDrawn
  refine ⟨draw, ?_, isQuestion⟩
  apply constraints.uniqueKeys.slotVariantCandidate.find_eq isDraw
  · simp [sameInvite, isCurrent, sameEmail, isSlot]
  · intro other matched
    simp only [Bool.and_eq_true, beq_iff_eq] at matched
    simp [matched, sameInvite, isCurrent, sameEmail, isSlot]

theorem frozen_self {attempt : CandidateAttempt} (sound : Sound db)
    (isAttempt : attempt ∈ db.attempts) (isInvite : invite ∈ db.invites) :
    Frozen attempt invite db where
  attemptOld := sound.ids.attempt attempt isAttempt
  inviteOld := sound.ids.invite invite isInvite
  sitting row isRow same := by
    rw [sound.constraints.uniqueKeys.attempt.eq isRow isAttempt same]
    exact .refl attempt
  terms row isRow same := by
    rw [sound.constraints.uniqueKeys.invite.eq isRow isInvite same]

/-- A stored sitting goes back to the same invite. -/
theorem Frozen.current {attempt row : CandidateAttempt}
    (frozen : Frozen attempt invite db) (constraints : db.Constraints)
    (isOf : attempt.inviteId = invite.id) (isRow : row ∈ db.attempts)
    (same : row.id = attempt.id) :
    row.inviteId = invite.id ∧ ∃ current ∈ db.invites,
      current.id = invite.id ∧ current.questionId = invite.questionId ∧
        current.assessmentId = invite.assessmentId := by
  have clock := (frozen.sitting row isRow same).clock
  simp only [CandidateAttempt.clock, Prod.mk.injEq] at clock
  have sameInvite : row.inviteId = invite.id := clock.1.symm.trans isOf
  obtain ⟨current, isCurrent, isHere⟩ :=
    constraints.foreignKeys.attemptInvite row isRow _ rfl
  have isCurrentId := isHere.trans sameInvite
  have terms := frozen.terms current isCurrent isCurrentId
  simp only [Invite.terms, Prod.mk.injEq] at terms
  exact ⟨sameInvite, current, isCurrent, isCurrentId, terms.2.1,
    terms.2.2.1⟩

/-- What a request left of a sitting and of its invite goes on. -/
theorem Run.frozenAfter {trace : List Served} (run : Run deployment trace db)
    (member : served ∈ trace) {attempt : CandidateAttempt}
    (isAttempt : attempt ∈ (served.after deployment).attempts)
    (isInvite : invite ∈ (served.after deployment).invites)
    (sound : Sound (served.after deployment)) : Frozen attempt invite db :=
  (run.afterwards (fun db => Sound db ∧ Frozen attempt invite db) member
    ⟨sound, frozen_self sound isAttempt isInvite⟩ fun change _ next held =>
      ⟨change.sound held.1 next, change.frozen held.1 held.2⟩).2

/-- What a sitting with nothing left to draw presents is presented in every
later state of the run. -/
theorem Run.paperStays {trace : List Served} (run : Run deployment trace db)
    (member : served ∈ trace) {attempt : CandidateAttempt}
    {assessment : Assessment}
    (isAttempt : attempt ∈ (served.after deployment).attempts)
    (isInvite : invite ∈ (served.after deployment).invites)
    (isOf : attempt.inviteId = invite.id)
    (isAssessment : assessment ∈ (served.after deployment).assessments)
    (isFor : invite.assessmentId = some assessment.id)
    (sound : Sound (served.after deployment)) :
    PaperStays attempt invite assessment
      ((served.after deployment).slots.filter fun slot =>
        slot.assessmentId == assessment.id)
      ((served.after deployment).drawsOn invite attempt.candidateEmail) db := by
  have draws : DrawsStay attempt.id
      ((served.after deployment).drawsOn invite attempt.candidateEmail)
      (served.after deployment) := by
    refine ⟨sound.ids.attempt attempt isAttempt, ?_⟩
    intro row isRow same entry isEntry
    obtain rfl := sound.constraints.uniqueKeys.attempt.eq isRow isAttempt same
    obtain ⟨draw, isDraw, rfl⟩ := List.mem_map.mp isEntry
    obtain ⟨isDraw, matched⟩ := List.mem_filter.mp isDraw
    simp only [Bool.and_eq_true, beq_iff_eq] at matched
    exact ⟨draw, isDraw, matched.1.trans isOf.symm, matched.2, rfl⟩
  exact (run.afterwards
    (fun db => Sound db ∧ PaperStays attempt invite assessment
      ((served.after deployment).slots.filter fun slot =>
        slot.assessmentId == assessment.id)
      ((served.after deployment).drawsOn invite attempt.candidateEmail) db)
    member
    ⟨sound, inviteStays_self sound isInvite isAssessment isFor, draws⟩
    fun change _ next held =>
      ⟨change.sound held.1 next,
        change.inviteStays held.1 (change.sound held.1 next) isFor
          held.2.invite,
        change.drawsStay held.2.draws⟩).2

theorem Run.slotted_before {trace : List Served}
    (run : Run deployment trace db) (member : served ∈ trace) :
    Slotted served.before := by
  induction run with
  | start => cases member
  | step around request run inductionHypothesis =>
      rcases List.mem_append.mp member with isEarlier | isLast
      · exact inductionHypothesis isEarlier
      · obtain rfl := List.mem_singleton.mp isLast
        exact run.slotted

/-- What a request left is sound. -/
theorem Run.sound_after {trace : List Served}
    (run : Run deployment trace db) (member : served ∈ trace) :
    Sound (served.after deployment) ∧ Slotted (served.after deployment) := by
  induction run with
  | start => cases member
  | step around request run inductionHypothesis =>
      rcases List.mem_append.mp member with isEarlier | isLast
      · exact inductionHypothesis isEarlier
      · obtain rfl := List.mem_singleton.mp isLast
        have next := run.step around request
        exact ⟨next.sound, next.slotted⟩

/-- What a sitting with nothing left to draw presents. -/
theorem PaperStays.presents {attempt row : CandidateAttempt}
    {assessment : Assessment} {was : Database} {current : Invite}
    (stays : PaperStays attempt invite assessment
      (was.slots.filter fun slot => slot.assessmentId == assessment.id)
      (was.drawsOn invite attempt.candidateEmail) db)
    (sound : Sound db) (slotted : Slotted db)
    (isFor : invite.assessmentId = some assessment.id)
    (drawn : AllDrawn was invite attempt.candidateEmail
      (was.slotsOf assessment.id))
    (isRow : row ∈ db.attempts) (same : row.id = attempt.id)
    (isCurrent : current ∈ db.invites) (sameCurrent : current.id = invite.id)
    (isHere : row.inviteId = current.id)
    (sameFor : current.assessmentId = invite.assessmentId) :
    ∃ again, inviteQuestions current row.candidateEmail db =
        (db, .ok again) ∧
      again.map Question.id =
        (was.platform deployment).inviteQuestions invite
          attempt.candidateEmail := by
  have sameSlots : db.slotsOf assessment.id = was.slotsOf assessment.id := by
    rw [Database.slotsOf,
      (stays.invite.locked ⟨current, isCurrent, sameCurrent⟩).slots]
    rfl
  have isFor' : current.assessmentId = some assessment.id :=
    sameFor.trans isFor
  have stillDrawn : ∀ assessmentId,
      current.assessmentId = some assessmentId →
        AllDrawn db current row.candidateEmail (db.slotsOf assessmentId) := by
    intro assessmentId isOther slot isSlot isSet
    obtain rfl := Option.some.inj (isFor'.symm.trans isOther)
    rw [sameSlots] at isSlot
    obtain ⟨drew, found⟩ :=
      Option.isSome_iff_exists.mp (drawn slot isSlot isSet)
    obtain ⟨draw, isDraw, _⟩ :=
      stays.draws.drawOf sound.constraints isRow same isHere found
    simp [isDraw]
  obtain ⟨again, presented, ids⟩ := @inviteQuestions_drawn deployment db
    current row.candidateEmail sound slotted isCurrent stillDrawn
  refine ⟨again, presented, ids.trans ?_⟩
  simp only [Platform.inviteQuestions, isFor, isFor', Database.platform,
    sameSlots]
  apply List.map_congr_left
  intro slot isSlot
  cases isSet : slot.variantSetId with
  | none => simp [Database.slotQuestion, isSet]
  | some setId =>
      obtain ⟨drew, found⟩ := Option.isSome_iff_exists.mp
        (drawn slot isSlot (by simp [isSet]))
      obtain ⟨draw, isDraw, sameQuestion⟩ :=
        stays.draws.drawOf sound.constraints isRow same isHere found
      unfold drawOf at found isDraw
      simp [Database.slotQuestion, isSet, found, isDraw, sameQuestion]

/-- A request that has begun a sitting, or gone on with one, has drawn every
slot of it. -/
theorem startInvite_presented {token : String} {body : CandidateStartIn}
    {deadline : Option Time} (sound : Sound served.before)
    (slotted : Slotted served.before)
    (asked : served.request = .candidate token (.start body))
    (answered : (startInvite deployment served.around served.before token
      body).2 = .ok deadline) :
    ∃ invite ∈ served.before.invites, invite.token = token ∧
      ∃ middle, Sound middle ∧ Slotted middle ∧ invite ∈ middle.invites ∧
        (∃ row ∈ middle.attempts, row.inviteId = invite.id ∧
          row.candidateEmail =
            deployment.auth.normalizeEmail body.candidateEmail) ∧
        (startInvite deployment served.around served.before token body).1 =
          (inviteQuestions invite
            (deployment.auth.normalizeEmail body.candidateEmail) middle).1 ∧
        ∃ questions, (inviteQuestions invite
          (deployment.auth.normalizeEmail body.candidateEmail) middle).2 =
            .ok questions := by
  unfold startInvite at answered ⊢
  obtain ⟨invite, admitted, same⟩ := checked_eq_ok answered
  rw [same] at answered ⊢
  obtain ⟨_, _, same⟩ := checked_eq_ok answered
  rw [same] at answered ⊢
  obtain ⟨attempt, started, same⟩ := Handled.andThen_eq_ok answered
  rw [same] at answered ⊢
  unfold candidateQuestionView at answered ⊢
  obtain ⟨questions, presented, same⟩ := Handled.andThen_eq_ok answered
  rw [same]
  obtain ⟨found, gate⟩ := admitCandidate_gate asked rfl admitted
  have begun : Begun deployment served invite
      (deployment.auth.normalizeEmail body.candidateEmail) served.before
      (runProgram deployment served.around
        (startAttempt (served.before.platform deployment) invite
          (deployment.auth.normalizeEmail body.candidateEmail)
          body.candidateName body.consent served.before.nextId)
        served.before) :=
    startAttempt_begun gate gate.member rfl
  obtain ⟨isEmail, row, isRow, isOf, isRowEmail, _⟩ :=
    begun.attended attempt (runRequest_eq_ok started)
  rw [isEmail] at presented ⊢
  obtain ⟨soundAfter, slottedAfter⟩ := begun.commits.slotted sound slotted
  refine ⟨invite, mem_of_fetch found, key_of_fetch found, _, soundAfter,
    slottedAfter, ?_, ⟨row, isRow, isOf, isRowEmail⟩, rfl, questions,
    presented⟩
  rw [run_gradingOnly]
  exact gate.member

/-- A sitting with nothing left to draw presents the same questions, in the same
order, in every later state in which it is stored, whoever edits, deletes,
revokes or erases what; and after an answered `/start` nothing is left to
draw. -/
theorem paper_frozen {trace : List Served} (run : Run deployment trace db) :
    (∀ served ∈ trace, ∀ attempt ∈ (served.after deployment).attempts,
      ∀ invite ∈ (served.after deployment).invites,
        attempt.inviteId = invite.id →
        ∀ paper, inviteQuestions invite attempt.candidateEmail
            (served.after deployment) =
              (served.after deployment, .ok paper) →
        ∀ row ∈ db.attempts, row.id = attempt.id →
          ∃ current ∈ db.invites, current.id = invite.id ∧
            ∃ again, inviteQuestions current row.candidateEmail db =
                (db, .ok again) ∧
              again.map Question.id = paper.map Question.id) ∧
    ∀ served ∈ trace, ∀ token body deadline,
      served.request = .candidate token (.start body) →
      (serve deployment served.around served.before served.request).2 =
        .ok deadline →
      ∃ invite ∈ (served.after deployment).invites, invite.token = token ∧
        ∃ attempt ∈ (served.after deployment).attempts,
          attempt.inviteId = invite.id ∧
          attempt.candidateEmail =
            deployment.auth.normalizeEmail body.candidateEmail ∧
          ∃ paper, inviteQuestions invite attempt.candidateEmail
            (served.after deployment) =
              (served.after deployment, .ok paper) := by
  constructor
  · intro served member attempt isAttempt invite isInvite isOf paper presented
      row isRow same
    obtain ⟨sound, slotted⟩ := run.sound_after member
    have drawn {assessmentId : String}
        (isFor : invite.assessmentId = some assessmentId) :
        AllDrawn (served.after deployment) invite attempt.candidateEmail
          ((served.after deployment).slotsOf assessmentId) := by
      have drawn := allDrawn_of_presented isFor (congrArg Prod.snd presented)
      rw [presented] at drawn
      exact drawn
    obtain ⟨paper', presented', ids⟩ := @inviteQuestions_drawn deployment _ _ _
      sound slotted isInvite fun _ isFor => drawn isFor
    obtain rfl : paper = paper' :=
      Except.ok.inj (Prod.mk.inj (presented.symm.trans presented')).2
    have frozen : Frozen attempt invite db := by
      apply run.frozenAfter member isAttempt isInvite sound
    obtain ⟨sameInvite, current, isCurrent, isCurrentId, sameQuestion,
      sameFor⟩ := frozen.current run.constraints isOf isRow same
    refine ⟨current, isCurrent, isCurrentId, ?_⟩
    rw [ids]
    cases isFor : invite.assessmentId with
    | none =>
        obtain ⟨again, presented, ids⟩ := @inviteQuestions_drawn deployment db
          current row.candidateEmail run.sound run.slotted isCurrent
          fun _ isOther => by simp [sameFor, isFor] at isOther
        refine ⟨again, presented, ids.trans ?_⟩
        simp [Platform.inviteQuestions, sameFor, isFor, sameQuestion]
    | some assessmentId =>
        obtain ⟨assessment, isAssessment, rfl⟩ :=
          sound.constraints.foreignKeys.inviteAssessment invite isInvite _
            isFor
        exact (run.paperStays member isAttempt isInvite isOf isAssessment isFor
          sound).presents run.sound run.slotted isFor (drawn isFor) isRow same
            isCurrent isCurrentId (sameInvite.trans isCurrentId.symm) sameFor
  · intro served member token body deadline asked answered
    have sound := run.sound_before member
    rw [asked] at answered
    obtain ⟨invite, isInvite, isToken, middle, soundMiddle, slottedMiddle,
      stillInvite, ⟨row, isRow, isOf, isEmail⟩, isAfter, questions,
      presented⟩ := startInvite_presented sound (run.slotted_before member)
        asked answered
    have after : served.after deployment =
        (inviteQuestions invite
          (deployment.auth.normalizeEmail body.candidateEmail) middle).1 := by
      unfold Served.after
      rw [asked]
      exact isAfter
    obtain ⟨soundAfter, slottedAfter⟩ := run.sound_after member
    have draws := inviteQuestions_drawsOnly invite
      (deployment.auth.normalizeEmail body.candidateEmail) middle
    rw [after] at soundAfter slottedAfter ⊢
    have isThere : invite ∈ (inviteQuestions invite
        (deployment.auth.normalizeEmail body.candidateEmail)
        middle).1.invites := by
      rw [draws.rest]
      exact stillInvite
    refine ⟨invite, isThere, isToken, row, ?_, isOf, isEmail, ?_⟩
    · rw [draws.rest]
      exact isRow
    · rw [isEmail]
      obtain ⟨paper, presented', _⟩ := @inviteQuestions_drawn deployment _ _ _
        soundAfter slottedAfter isThere fun assessmentId isFor => by
          have drawn := allDrawn_of_presented isFor presented
          have sameSlots : (inviteQuestions invite
              (deployment.auth.normalizeEmail body.candidateEmail)
              middle).1.slotsOf assessmentId = middle.slotsOf assessmentId := by
            rw [draws.rest]
            rfl
          rw [sameSlots]
          exact drawn
      exact ⟨paper, presented'⟩

namespace Scenario

/-- The candidate is invited to the set assessment. -/
def setInvited : List Asked :=
  [registers, createsSet, createsSetAssessment, invites]

/-- The variant that was not drawn is deleted. -/
def trims : Asked :=
  asks 4 'h' (.deleteQuestion "v-bxx")

/-- The invite to the set assessment. -/
def setInvite : Invite :=
  ⟨15, "e", none, some "ab", none, some 1, ["c@x"], [⟨"c@x", true, none⟩],
    none, false, some 30, .active, 1⟩

/-- The sitting of the candidate on it. -/
def setSitting : CandidateAttempt :=
  ⟨16, 15, "c@x", some "Cy", 2, some 2, some "v1", none, none, 2⟩

/-- The variant that was drawn. -/
def drawnQuestion : Question :=
  ⟨"u-bx", some 1, 2, "u", some "s", some "A", none⟩

end Scenario

open Scenario in
/-- The other variant is deleted, and the candidate keeps the one drawn. -/
theorem paper_frozen_trims :
    (inviteQuestions setInvite "c@x"
      (play (setInvited ++ [starts, trims])).2).2.map (List.map Question.id) =
        .ok ["u-bx"] := by
  obtain ⟨current, isCurrent, -, again, presented, ids⟩ :=
    (paper_frozen (run_play (setInvited ++ [starts, trims]))).1
      (servedAfter setInvited starts) (mem_play setInvited starts [trims])
      setSitting (by decide) setInvite (by decide) rfl [drawnQuestion]
      (by decide +kernel) setSitting (by decide) rfl
  have only : ∀ invite ∈ (play (setInvited ++ [starts, trims])).2.invites,
      invite = setInvite := by decide
  obtain rfl := only current isCurrent
  rw [show setSitting.candidateEmail = "c@x" from rfl] at presented
  rw [presented]
  exact congrArg Except.ok ids

end AssessmentPlatform
