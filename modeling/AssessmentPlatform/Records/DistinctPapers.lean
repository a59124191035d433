import AssessmentPlatform.Records.EmptiedSets
import AssessmentPlatform.Records.LinkedErasures

/-!
# Papers that repeat a question

Nothing keeps a question from filling a slot of its own and being a variant of
the set of another slot.  A candidate who draws it there has it on the paper
twice, but can submit it only once.
-/

namespace AssessmentPlatform

open Rows Database

variable {deployment : Deployment} {served : Served} {scope : Option Nat}
variable {db after base left : Database} {invite : Invite} {email : String}
variable {slot : AssessmentQuestion} {slots : List AssessmentQuestion}
variable {assessmentId : String} {orgId : Nat}

/-! ## A set serves one slot -/

/-- No two slots of an assessment draw from the same set. -/
def SetsOnce (slots : List AssessmentQuestion) : Prop :=
  ∀ slot ∈ slots, ∀ other ∈ slots, slot.assessmentId = other.assessmentId →
    ∀ setId, slot.variantSetId = some setId →
      other.variantSetId = some setId → slot = other

theorem SetsOnce.subset {rest : List AssessmentQuestion}
    (once : SetsOnce slots) (subset : rest ⊆ slots) : SetsOnce rest :=
  fun slot isSlot other isOther =>
    once slot (subset isSlot) other (subset isOther)

/-- The slots of an assessment that has none yet. -/
theorem SetsOnce.append {added : List AssessmentQuestion}
    (once : SetsOnce slots) (rows : SlotRows db orgId assessmentId added)
    (apart : ∀ slot ∈ slots, slot.assessmentId ≠ assessmentId) :
    SetsOnce (slots ++ added) := by
  intro slot isSlot other isOther same setId isSet isOtherSet
  rcases List.mem_append.mp isSlot with isOld | isNew
  · rcases List.mem_append.mp isOther with isOtherOld | isOtherNew
    · exact once slot isOld other isOtherOld same setId isSet isOtherSet
    · exact absurd (same.trans (rows.assessment other isOtherNew))
        (apart slot isOld)
  · rcases List.mem_append.mp isOther with isOtherOld | isOtherNew
    · exact absurd (same.symm.trans (rows.assessment slot isNew))
        (apart other isOtherOld)
    · have unique : Unique AssessmentQuestion.variantSetId added := rows.sets
      exact unique.eq isNew isOtherNew isSet isOtherSet

theorem SetsOnce.deleteWhere (once : SetsOnce slots)
    (matched : AssessmentQuestion → Bool) :
    SetsOnce (deleteWhere matched slots) :=
  once.subset List.filter_sublist.subset

theorem SetsOnce.purged (once : SetsOnce db.slots) (orgId : Nat) :
    SetsOnce (db.purged orgId).slots :=
  once.deleteWhere _

theorem Enters.setsOnce {account : Interviewer} {gaveUp : Option Nat}
    (enters : Enters db account gaveUp base) (once : SetsOnce db.slots) :
    SetsOnce base.slots := by
  cases enters with
  | newcomer => exact once
  | seatless => exact once
  | leaving _ _ gaveUp =>
      obtain ⟨rfl, _⟩ := leaveEmptyOrg_eq_ok gaveUp
      exact once.purged _

theorem Change.setsOnce (change : Change deployment served scope db after)
    (constraints : db.Constraints) (next : after.Constraints)
    (once : SetsOnce db.slots) : SetsOnce after.slots := by
  cases change with
  | founded _ enters => exact enters.setsOnce once
  | joined enters => exact enters.setsOnce once
  | accountDeleted deleted =>
      obtain ⟨left, leaving, rfl⟩ := Database.purgeAccount_left deleted
      cases leaving with
      | last => exact once.purged _
      | _ => exact once
  | assessmentAdded assessment _ _ rows =>
      apply once.append rows
      intro slot isSlot
      obtain ⟨old, isOld, named⟩ :=
        constraints.foreignKeys.slotAssessment slot isSlot _ rfl
      have keyed : Keyed Assessment.id (db.assessments ++ [assessment]) :=
        next.uniqueKeys.assessment
      rw [← named]
      exact keyed.ne_of_append isOld List.mem_cons_self
  | slotsReplaced _ _ _ _ _ _ _ rows =>
      apply (once.deleteWhere _).append rows
      intro slot isSlot
      simpa using (mem_deleteWhere.mp isSlot).2
  | assessmentDeleted =>
      exact once.deleteWhere _
  | _ => exact once

theorem Run.setsOnce {trace : List Served} (run : Run deployment trace db) :
    SetsOnce db.slots :=
  run.keeps (fun db => SetsOnce db.slots) (fun _ member => nomatch member)
    fun change constraints next => change.setsOnce constraints next

/-! ## Submissions answer the paper -/

/-- A slot asks a candidate a question: its own, or the one that was drawn. -/
def Asks (db : Database) (inviteId : Nat) (email : String)
    (slot : AssessmentQuestion) (questionId : String) : Prop :=
  slot.questionId = some questionId ∨
    ∃ draw ∈ db.slotVariants, draw.inviteId = inviteId ∧
      draw.candidateEmail = email ∧ draw.assessmentQuestionId = slot.id ∧
        draw.questionId = questionId

/-- A submission by an invite to an assessment answers a slot of it. -/
def Answers (db : Database) (sub : Submission) : Prop :=
  ∀ inviteId, sub.inviteId = some inviteId →
    ∀ email, sub.candidateEmail = some email →
      ∀ invite ∈ db.invites, invite.id = inviteId →
        ∀ assessmentId, invite.assessmentId = some assessmentId →
          ∃ slot ∈ db.slots, slot.assessmentId = assessmentId ∧
            Asks db inviteId email slot sub.questionId

/-- A submission goes on answering a slot: invites and slots stay, and draws
stay with their invite. -/
theorem Answers.kept {was sub : Submission}
    (change : Change deployment served scope db after) (sound : Sound db)
    (next : Sound after) (answers : Answers db was)
    (isWas : was ∈ db.submissions) (sameInvite : sub.inviteId = was.inviteId)
    (sameEmail : sub.candidateEmail = was.candidateEmail)
    (sameQuestion : sub.questionId = was.questionId)
    (draws : ∀ draw ∈ db.slotVariants,
      (∃ invite ∈ after.invites, invite.id = draw.inviteId) →
        draw ∈ after.slotVariants) : Answers after sub := by
  intro inviteId isOn email isEmail invite isInvite same assessmentId isFor
  have keys := sound.constraints.foreignKeys
  have keeps : KeepsTerms db after := change.keepsTerms
  rcases keeps invite isInvite with ⟨earlier, isEarlier, kept⟩ | isNew
  · simp only [Prod.mk.injEq, Invite.terms] at kept
    obtain ⟨sameId, _, _, sameFor, _⟩ := kept
    have wasFor := sameFor.trans isFor
    obtain ⟨slot, isSlot, isOf, asks⟩ := answers inviteId
      (sameInvite.symm.trans isOn) email (sameEmail.symm.trans isEmail)
      earlier isEarlier (sameId.trans same) assessmentId wasFor
    obtain ⟨assessment, isAssessment, rfl⟩ :=
      keys.inviteAssessment earlier isEarlier assessmentId wasFor
    have stays := change.inviteStays sound next wasFor
      (inviteStays_self sound isEarlier isAssessment wasFor)
    have locked := (stays.locked ⟨invite, isInvite, sameId.symm⟩).slots
    have isHere : slot ∈ after.slots.filter fun slot =>
        slot.assessmentId == assessment.id := by
      rw [locked]
      exact List.mem_filter.mpr ⟨isSlot, beq_iff_eq.mpr isOf⟩
    refine ⟨slot, (List.mem_filter.mp isHere).1, isOf, ?_⟩
    rw [sameQuestion]
    apply asks.imp_right
    rintro ⟨draw, isDraw, isDrawn⟩
    exact ⟨draw, draws draw isDraw ⟨invite, isInvite, same.trans
      isDrawn.1.symm⟩, isDrawn⟩
  · -- an invite that is new has no submission yet
    obtain ⟨old, isOld, named⟩ :=
      keys.submissionInvite was isWas inviteId (sameInvite.symm.trans isOn)
    have isBelow := sound.ids.invite old isOld
    omega

theorem Answers.erased {inviteIds : List Nat} {submissionIds : List String}
    (answers : ∀ sub ∈ db.submissions, Answers db sub)
    (linked : Linked db email inviteIds submissionIds) (now : Time)
    (pseudonym : String) :
    ∀ sub ∈ (erase now pseudonym email inviteIds submissionIds db).submissions,
      Answers (erase now pseudonym email inviteIds submissionIds db) sub := by
  intro sub isSub inviteId isOn address isAddress invite isInvite same
    assessmentId isFor
  obtain ⟨was, isWas, isSub⟩ := mem_of_mem_updateWhere isSub
  obtain ⟨earlier, isEarlier, rfl⟩ := mem_of_mem_updateWhere isInvite
  have wasId : earlier.id = inviteId := by
    rw [← same]
    split <;> rfl
  have wasFor : earlier.assessmentId = some assessmentId := by
    rw [← isFor]
    split <;> rfl
  by_cases isErased : submissionIds.contains was.id
  · obtain rfl : sub = was.erase pseudonym now :=
      isSub.trans (if_pos isErased)
    have wasEmail := linked.sentBy was isWas isErased
    have isTaken := (linked.taken was isWas inviteId isOn wasEmail).mp
      (List.contains_iff_mem.mp isErased)
    obtain rfl : pseudonym = address := Option.some.inj isAddress
    obtain ⟨slot, isSlot, isOf, asks⟩ := answers was isWas inviteId isOn email
      wasEmail earlier isEarlier wasId assessmentId wasFor
    refine ⟨slot, isSlot, isOf, asks.imp_right ?_⟩
    rintro ⟨draw, isDraw, isDrawn, isBy, isAt, isQuestion⟩
    have alsoErased : (inviteIds.contains draw.inviteId &&
        draw.candidateEmail == email) = true := by
      simp [isDrawn, isBy, isTaken]
    exact ⟨{ draw with candidateEmail := pseudonym },
      mem_updateWhere.mpr (Or.inl ⟨draw, isDraw, alsoErased, rfl⟩), isDrawn,
      rfl, isAt, isQuestion⟩
  · obtain rfl : sub = was := isSub.trans (if_neg isErased)
    obtain ⟨slot, isSlot, isOf, asks⟩ := answers sub isWas inviteId isOn
      address isAddress earlier isEarlier wasId assessmentId wasFor
    refine ⟨slot, isSlot, isOf, asks.imp_right ?_⟩
    rintro ⟨draw, isDraw, isDrawn, isBy, isAt, isQuestion⟩
    refine ⟨draw, mem_updateWhere.mpr (Or.inr ⟨isDraw, ?_⟩), isDrawn, isBy,
      isAt, isQuestion⟩
    intro alsoErased
    simp only [Bool.and_eq_true, beq_iff_eq, List.contains_iff_mem, isDrawn,
      isBy] at alsoErased
    obtain ⟨isTaken, rfl⟩ := alsoErased
    exact isErased (List.contains_iff_mem.mpr
      ((linked.taken sub isWas inviteId isOn isAddress).mpr isTaken))

/-- What is presented for a slot, the slot asks. -/
theorem asks_of_slotQuestion {inviteId : Nat} {questionId : String}
    (named : questionId ≠ "")
    (presented : db.slotQuestion inviteId email slot = questionId) :
    Asks db inviteId email slot questionId := by
  unfold Database.slotQuestion at presented
  split at presented
  · left
    cases isFixed : slot.questionId with
    | none => exact absurd presented.symm (by simpa [isFixed] using named)
    | some id => rw [isFixed, Option.getD_some] at presented; rw [presented]
  · right
    cases found : db.slotVariants.find? fun row =>
        row.inviteId == inviteId && row.candidateEmail == email &&
          row.assessmentQuestionId == slot.id with
    | none => exact absurd presented.symm (by simpa [found] using named)
    | some draw =>
        have matched := List.find?_some found
        simp only [Bool.and_eq_true, beq_iff_eq] at matched
        rw [found, Option.map_some, Option.getD_some] at presented
        exact ⟨draw, List.mem_of_find?_eq_some found, matched.1.1, matched.1.2,
          matched.2, presented⟩

/-- A slot asks one question only. -/
theorem slotQuestion_of_asks {inviteId : Nat} {questionId : String}
    (sound : Sound db) (isSlot : slot ∈ db.slots)
    (asks : Asks db inviteId email slot questionId) :
    db.slotQuestion inviteId email slot = questionId := by
  have keys := sound.constraints
  unfold Database.slotQuestion
  rcases asks with isFixed | ⟨draw, isDraw, isOn, isBy, isAt, isDrawn⟩
  · have one := sound.tenancy.slotOne slot isSlot
    rw [isFixed, Option.isSome_some, eq_comm, Option.isNone_iff_eq_none] at one
    rw [one, isFixed, Option.getD_some]
  · obtain ⟨question, isQuestion, named⟩ :=
      keys.foreignKeys.slotVariantQuestion draw isDraw _ rfl
    obtain ⟨isSet, _⟩ := sound.tenancy.drawVariant draw isDraw slot isSlot
      isAt.symm question isQuestion named
    obtain ⟨setId, isSet⟩ := Option.isSome_iff_exists.mp isSet
    have found : (db.slotVariants.find? fun row =>
        row.inviteId == inviteId && row.candidateEmail == email &&
          row.assessmentQuestionId == slot.id) = some draw := by
      apply keys.uniqueKeys.slotVariantCandidate.find_eq isDraw
      · simp [isOn, isBy, isAt]
      · intro other matched
        simp only [Bool.and_eq_true, beq_iff_eq] at matched
        simp [matched, isOn, isBy, isAt]
    rw [isSet]
    simp [found, isDrawn]

theorem answers_of_presented {sub : Submission} (keys : db.UniqueKeys)
    (isInvite : invite ∈ db.invites) (named : sub.questionId ≠ "")
    (isOn : sub.inviteId = some invite.id)
    (isEmail : sub.candidateEmail = some email)
    (presented : sub.questionId ∈
      (db.platform deployment).inviteQuestions invite email) :
    Answers db sub := by
  intro inviteId isOther address isAddress other isMember same assessmentId
    isFor
  obtain rfl := Option.some.inj (isOn.symm.trans isOther)
  obtain rfl := Option.some.inj (isEmail.symm.trans isAddress)
  obtain rfl := keys.invite.eq isMember isInvite same
  unfold Platform.inviteQuestions at presented
  rw [isFor] at presented
  obtain ⟨slot, isSlot, presented⟩ := List.mem_map.mp presented
  obtain ⟨isMember, isOf⟩ := mem_slotsOf.mp isSlot
  exact ⟨slot, isMember, isOf, asks_of_slotQuestion named presented⟩

/-- The draws on an invite are left where the invite is left. -/
theorem mem_draws_purged {draw : CandidateSlotVariant}
    (isDraw : draw ∈ db.slotVariants)
    (stored : ∃ invite ∈ (db.purged orgId).invites,
      invite.id = draw.inviteId) :
    draw ∈ (db.purged orgId).slotVariants := by
  obtain ⟨invite, isInvite, same⟩ := stored
  apply mem_deleteWhere.mpr
  exact ⟨isDraw, same ▸ (mem_deleteWhere.mp isInvite).2⟩

theorem Change.answers (change : Change deployment served scope db after)
    (linked : served.request.erases → LinkedErasure served.around db after)
    (sound : Sound db) (next : Sound after)
    (answers : ∀ sub ∈ db.submissions, Answers db sub) :
    ∀ sub ∈ after.submissions, Answers after sub := by
  have still {was sub : Submission} (isWas : was ∈ db.submissions) :=
    @Answers.kept _ _ _ _ _ was sub change sound next (answers was isWas) isWas
  have kept (subset : after.submissions ⊆ db.submissions)
      (draws : ∀ draw ∈ db.slotVariants,
        (∃ invite ∈ after.invites, invite.id = draw.inviteId) →
          draw ∈ after.slotVariants) :
      ∀ sub ∈ after.submissions, Answers after sub :=
    fun sub isSub => still (subset isSub) rfl rfl rfl draws
  by_cases isErasing : served.request.erases
  · cases linked isErasing with
    | erased _ _ _ _ fit => exact Answers.erased answers fit _ _
    | recipientsDropped =>
        exact kept (List.Subset.refl _) fun _ isDraw _ => isDraw
  cases change with
  | founded _ enters =>
      cases enters with
      | newcomer => exact kept (List.Subset.refl _) fun _ isDraw _ => isDraw
      | seatless => exact kept (List.Subset.refl _) fun _ isDraw _ => isDraw
  | joined enters =>
      cases enters with
      | newcomer => exact kept (List.Subset.refl _) fun _ isDraw _ => isDraw
      | seatless => exact kept (List.Subset.refl _) fun _ isDraw _ => isDraw
      | leaving _ _ gaveUp =>
          obtain ⟨rfl, _⟩ := leaveEmptyOrg_eq_ok gaveUp
          exact kept List.filter_sublist.subset fun _ isDraw =>
            mem_draws_purged isDraw
  | accountDeleted deleted =>
      obtain ⟨left, leaving, rfl⟩ := Database.purgeAccount_left deleted
      cases leaving with
      | last =>
          refine kept List.filter_sublist.subset ?_
          rintro draw isDraw ⟨invite, isInvite, same⟩
          obtain ⟨was, isWas, rfl⟩ := mem_of_mem_updateWhere isInvite
          apply mem_draws_purged isDraw
          refine ⟨was, isWas, ?_⟩
          rw [← same]
          split <;> rfl
      | _ => exact kept (List.Subset.refl _) fun _ isDraw _ => isDraw
  | drawn =>
      exact kept (List.Subset.refl _) fun _ isDraw _ =>
        List.mem_append_left _ isDraw
  | submitted attempt sub _ isInvite isOn isEmail _ _ _ presented =>
      intro row isRow
      rcases List.mem_append.mp isRow with isOld | isNew
      · exact still isOld rfl rfl rfl fun _ isDraw _ => isDraw
      · obtain rfl := List.mem_singleton.mp isNew
        obtain ⟨question, isQuestion, named⟩ :=
          next.constraints.foreignKeys.submissionQuestion row isRow _ rfl
        have isNamed := next.tenancy.questionNamed question isQuestion
        rw [named] at isNamed
        exact answers_of_presented next.constraints.uniqueKeys isInvite
          isNamed isOn isEmail presented
  | submittedDirectly sub _ _ _ direct =>
      intro row isRow
      rcases List.mem_append.mp isRow with isOld | isNew
      · exact still isOld rfl rfl rfl fun _ isDraw _ => isDraw
      · obtain rfl := List.mem_singleton.mp isNew
        intro inviteId isOn
        rw [direct] at isOn
        cases isOn
  | regraded matched regrade keeps =>
      intro row isRow
      obtain ⟨was, isWas, rfl⟩ := mem_of_mem_updateWhere isRow
      by_cases isMatched : matched was
      · rw [if_pos isMatched]
        exact still isWas (keeps.inviteId was) (keeps.candidateEmail was)
          (keeps.questionId was) fun _ isDraw _ => isDraw
      · rw [if_neg isMatched]
        exact still isWas rfl rfl rfl fun _ isDraw _ => isDraw
  | erased _ _ _ _ isErasure => exact absurd isErasure isErasing
  | _ => exact kept (List.Subset.refl _) fun _ isDraw _ => isDraw

/-- What is submitted answers the assessment, in every state of a run. -/
theorem Run.answers {trace : List Served} (run : Run deployment trace db) :
    ∀ sub ∈ db.submissions, Answers db sub :=
  run.keepsLinked (fun db => ∀ sub ∈ db.submissions, Answers db sub)
    (fun _ member => nomatch member) Change.answers

/-! ## Papers -/

theorem nodup_slotsOf (keys : db.UniqueKeys) (assessmentId : String) :
    (db.slotsOf assessmentId).Nodup := by
  unfold Database.slotsOf
  have sorted := List.perm_insertionSort
    (fun one other : AssessmentQuestion => one.position ≤ other.position)
    (db.slots.filter fun slot => slot.assessmentId == assessmentId)
  exact sorted.nodup_iff.mpr (keys.slot.of_map.filter _)

/-- A draw is a variant of the set of its slot. -/
theorem variant_of_drawn (sound : Sound db) (isSlot : slot ∈ db.slots)
    (drawn : (drawOf db invite slot email).isSome) :
    ∃ question ∈ db.questions,
      question.id = db.slotQuestion invite.id email slot ∧
        question.variantSetId = slot.variantSetId := by
  obtain ⟨draw, found⟩ := Option.isSome_iff_exists.mp drawn
  obtain ⟨isDraw, isOn, isBy, isAt⟩ := drawOf_eq_some found
  obtain ⟨question, isQuestion, named⟩ :=
    sound.constraints.foreignKeys.slotVariantQuestion draw isDraw _ rfl
  obtain ⟨_, inSet⟩ := sound.tenancy.drawVariant draw isDraw slot isSlot
    isAt.symm question isQuestion named
  have asked : db.slotQuestion invite.id email slot = draw.questionId :=
    slotQuestion_of_asks sound isSlot
      (Or.inr ⟨draw, isDraw, isOn, isBy, isAt, rfl⟩)
  exact ⟨question, isQuestion, named.trans asked.symm, inSet⟩

/-- A slot without a set asks its own question. -/
theorem exists_fixed {inviteId : Nat} (sound : Sound db)
    (isSlot : slot ∈ db.slots) (noSet : slot.variantSetId = none) :
    ∃ id, slot.questionId = some id ∧
      db.slotQuestion inviteId email slot = id := by
  have one := sound.tenancy.slotOne slot isSlot
  rw [noSet, Option.isNone_none] at one
  obtain ⟨id, named⟩ := Option.isSome_iff_exists.mp one
  exact ⟨id, named, slotQuestion_of_asks sound isSlot (Or.inl named)⟩

/-- A slot without a set asks no question but its own. -/
theorem asked_ne_of_fixed {inviteId : Nat} {questionId : String}
    (sound : Sound db) (isSlot : slot ∈ db.slots)
    (noSet : slot.variantSetId = none)
    (apart : slot.questionId ≠ some questionId) :
    db.slotQuestion inviteId email slot ≠ questionId := by
  obtain ⟨id, named, asked⟩ :=
    @exists_fixed db email slot inviteId sound isSlot noSet
  intro same
  exact apart (named.trans (congrArg some (asked.symm.trans same)))

/-- An assessment holds a question by itself in one slot at the most. -/
theorem eq_of_questionId {other : AssessmentQuestion} {id : String}
    (keys : db.UniqueKeys) (isSlot : slot ∈ db.slots)
    (isOther : other ∈ db.slots)
    (sameOf : slot.assessmentId = other.assessmentId)
    (named : slot.questionId = some id)
    (otherNamed : other.questionId = some id) : slot = other := by
  have key : slot.questionId.map (slot.assessmentId, ·) =
      some (other.assessmentId, id) := by rw [named, sameOf]; rfl
  have otherKey : other.questionId.map (other.assessmentId, ·) =
      some (other.assessmentId, id) := by rw [otherNamed]; rfl
  exact keys.slotQuestion.eq isSlot isOther key otherKey

/-- Two fixed slots of an assessment ask different questions. -/
theorem eq_of_fixed {other : AssessmentQuestion} {inviteId : Nat}
    (sound : Sound db) (isSlot : slot ∈ db.slots) (isOther : other ∈ db.slots)
    (sameOf : slot.assessmentId = other.assessmentId)
    (noSet : slot.variantSetId = none) (noOtherSet : other.variantSetId = none)
    (same : db.slotQuestion inviteId email slot =
      db.slotQuestion inviteId email other) : slot = other := by
  obtain ⟨id, named, asked⟩ :=
    @exists_fixed db email slot inviteId sound isSlot noSet
  obtain ⟨otherId, otherNamed, otherAsked⟩ :=
    @exists_fixed db email other inviteId sound isOther noOtherSet
  obtain rfl : id = otherId := asked.symm.trans (same.trans otherAsked)
  exact eq_of_questionId sound.constraints.uniqueKeys isSlot isOther sameOf
    named otherNamed

/-- Two set slots of an assessment have drawn different questions. -/
theorem eq_of_drawn {other : AssessmentQuestion} (sound : Sound db)
    (once : SetsOnce db.slots) (isSlot : slot ∈ db.slots)
    (isOther : other ∈ db.slots)
    (sameOf : slot.assessmentId = other.assessmentId)
    (isSet : slot.variantSetId.isSome)
    (drawn : (drawOf db invite slot email).isSome)
    (otherDrawn : (drawOf db invite other email).isSome)
    (same : db.slotQuestion invite.id email slot =
      db.slotQuestion invite.id email other) : slot = other := by
  obtain ⟨question, isQuestion, named, inSet⟩ :=
    variant_of_drawn sound isSlot drawn
  obtain ⟨_, isOtherQuestion, otherNamed, inOtherSet⟩ :=
    variant_of_drawn sound isOther otherDrawn
  obtain rfl := sound.constraints.uniqueKeys.question.eq isQuestion
    isOtherQuestion (named.trans (same.trans otherNamed.symm))
  obtain ⟨setId, isSet⟩ := Option.isSome_iff_exists.mp isSet
  exact once slot isSlot other isOther sameOf setId isSet
    (inOtherSet.symm.trans (inSet.trans isSet))

/-- A paper repeats a question where a set slot has drawn the question of
another slot, and nowhere else. -/
theorem nodup_paper_iff (sound : Sound db) (once : SetsOnce db.slots)
    (drawn : AllDrawn db invite email (db.slotsOf assessmentId)) :
    ((db.slotsOf assessmentId).map
      (db.slotQuestion invite.id email)).Nodup ↔
      ∀ slot ∈ db.slotsOf assessmentId, slot.variantSetId.isSome →
        ∀ fixed ∈ db.slotsOf assessmentId,
          fixed.questionId ≠ some (db.slotQuestion invite.id email slot) := by
  constructor
  · intro nodup slot isSlot isSet fixed isFixed named
    have isRow := (mem_slotsOf.mp isFixed).1
    have asked : db.slotQuestion invite.id email fixed = _ :=
      slotQuestion_of_asks sound isRow (Or.inl named)
    obtain rfl := List.inj_on_of_nodup_map nodup isFixed isSlot asked
    have one := sound.tenancy.slotOne fixed isRow
    rw [named, Option.isSome_some, eq_comm, Option.isNone_iff_eq_none] at one
    rw [one] at isSet
    cases isSet
  · intro apart
    apply (nodup_slotsOf sound.constraints.uniqueKeys assessmentId).map_on
    intro slot isSlot other isOther same
    obtain ⟨isRow, isOf⟩ := mem_slotsOf.mp isSlot
    obtain ⟨isOtherRow, isOtherOf⟩ := mem_slotsOf.mp isOther
    have sameOf := isOf.trans isOtherOf.symm
    cases isSet : slot.variantSetId with
    | none =>
        cases isOtherSet : other.variantSetId with
        | none =>
            exact eq_of_fixed sound isRow isOtherRow sameOf isSet isOtherSet
              same
        | some _ =>
            have otherSome : other.variantSetId.isSome := by simp [isOtherSet]
            exact absurd same (asked_ne_of_fixed sound isRow isSet
              (apart other isOther otherSome slot isSlot))
    | some _ =>
        have isSome : slot.variantSetId.isSome := by simp [isSet]
        cases isOtherSet : other.variantSetId with
        | none =>
            exact absurd same.symm (asked_ne_of_fixed sound isOtherRow
              isOtherSet (apart slot isSlot isSome other isOther))
        | some _ =>
            have otherSome : other.variantSetId.isSome := by simp [isOtherSet]
            exact eq_of_drawn sound once isRow isOtherRow sameOf isSome
              (drawn slot isSlot isSome) (drawn other isOther otherSome) same

/-- The questions that a sitting has submitted. -/
def Database.submittedQuestions (db : Database) (inviteId : Nat)
    (email : String) : List String :=
  (db.submissions.filter (Store.ofSitting inviteId email)).map
    Submission.questionId

theorem nodup_submittedQuestions (keys : db.UniqueKeys) (inviteId : Nat)
    (email : String) : (db.submittedQuestions inviteId email).Nodup := by
  have rows : (db.submissions.filter (Store.ofSitting inviteId email)).Nodup :=
    keys.submission.of_map.filter _
  apply rows.map_on
  intro row isRow other isOther same
  simp only [List.mem_filter, Store.ofSitting, Bool.and_eq_true,
    beq_iff_eq] at isRow isOther
  obtain ⟨member, isOn, isBy⟩ := isRow
  obtain ⟨otherMember, otherOn, otherBy⟩ := isOther
  exact keys.submissionCandidate.eq member otherMember
    (show _ = some (inviteId, email, row.questionId) by rw [isOn, isBy]; rfl)
    (by rw [otherOn, otherBy, same]; rfl)

/-- What a sitting has submitted is on its paper. -/
theorem submittedQuestions_subset (sound : Sound db)
    (answers : ∀ sub ∈ db.submissions, Answers db sub)
    (isInvite : invite ∈ db.invites)
    (isFor : invite.assessmentId = some assessmentId) :
    db.submittedQuestions invite.id email ⊆
      (db.platform deployment).inviteQuestions invite email := by
  intro questionId isSubmitted
  obtain ⟨row, isRow, rfl⟩ := List.mem_map.mp isSubmitted
  simp only [List.mem_filter, Store.ofSitting, Bool.and_eq_true,
    beq_iff_eq] at isRow
  obtain ⟨member, isOn, isBy⟩ := isRow
  obtain ⟨slot, isSlot, isOf, asks⟩ := answers row member invite.id isOn email
    isBy invite isInvite rfl assessmentId isFor
  unfold Platform.inviteQuestions
  rw [isFor]
  exact List.mem_map.mpr ⟨slot, mem_slotsOf.mpr ⟨isSlot, isOf⟩,
    slotQuestion_of_asks sound isSlot asks⟩

/-- Two slots of an assessment share neither a set nor a fixed question. -/
structure SlotsApart (slots : List AssessmentQuestion) : Prop where
  sets : ∀ slot ∈ slots, ∀ other ∈ slots, slot.variantSetId.isSome →
    slot.variantSetId = other.variantSetId → slot = other
  questions : ∀ slot ∈ slots, ∀ other ∈ slots, slot.questionId.isSome →
    slot.questionId = other.questionId → slot = other

theorem SetsOnce.slotsApart (once : SetsOnce db.slots) (keys : db.UniqueKeys)
    (assessmentId : String) : SlotsApart (db.slotsOf assessmentId) where
  sets slot isSlot other isOther isSome same := by
    obtain ⟨setId, isSet⟩ := Option.isSome_iff_exists.mp isSome
    obtain ⟨isRow, isOf⟩ := mem_slotsOf.mp isSlot
    obtain ⟨isOtherRow, isOtherOf⟩ := mem_slotsOf.mp isOther
    exact once slot isRow other isOtherRow (isOf.trans isOtherOf.symm) setId
      isSet (same.symm.trans isSet)
  questions slot isSlot other isOther isSome same := by
    obtain ⟨id, named⟩ := Option.isSome_iff_exists.mp isSome
    obtain ⟨isRow, isOf⟩ := mem_slotsOf.mp isSlot
    obtain ⟨isOtherRow, isOtherOf⟩ := mem_slotsOf.mp isOther
    exact eq_of_questionId keys isRow isOtherRow (isOf.trans isOtherOf.symm)
      named (same.symm.trans named)

/-- The paper that a candidate was given repeats a question exactly where a set
slot has drawn the question that another slot holds by itself: no two slots
share a set or a question.  What is submitted is on the paper, and at most its
distinct questions are, so that a sitting reaches the count that completes it
only with each question of a paper without repetition, once. -/
theorem paper_distinct {trace : List Served} (run : Run deployment trace db)
    {paper : List Question} (isInvite : invite ∈ db.invites)
    (isFor : invite.assessmentId = some assessmentId)
    (presented : inviteQuestions invite email db = (db, .ok paper)) :
    ((paper.map Question.id).Nodup ↔
      ∀ slot ∈ db.slotsOf assessmentId, slot.variantSetId.isSome →
        ∀ fixed ∈ db.slotsOf assessmentId,
          fixed.questionId ≠ some (db.slotQuestion invite.id email slot)) ∧
    SlotsApart (db.slotsOf assessmentId) ∧
    db.submittedQuestions invite.id email ⊆ paper.map Question.id ∧
    (db.submittedQuestions invite.id email).length ≤
      (paper.map Question.id).dedup.length ∧
    ((db.platform deployment).slotCount invite ≤
        (db.submittedQuestions invite.id email).length →
      (db.submittedQuestions invite.id email).Perm
        (paper.map Question.id)) ∧
    (¬(paper.map Question.id).Nodup →
      (db.submittedQuestions invite.id email).length <
        (db.platform deployment).slotCount invite) := by
  have sound := run.sound
  have drawn := allDrawn_of_presented isFor (congrArg Prod.snd presented)
  rw [presented] at drawn
  have resolved : ∃ questions,
      inviteQuestions invite email db = (db, .ok questions) ∧
        questions.map Question.id =
          (db.platform deployment).inviteQuestions invite email := by
    apply inviteQuestions_drawn sound run.slotted isInvite
    intro other isOther
    obtain rfl := Option.some.inj (isFor.symm.trans isOther)
    exact drawn
  obtain ⟨again, resolved, ids⟩ := resolved
  obtain rfl : paper = again :=
    Except.ok.inj (Prod.mk.inj (presented.symm.trans resolved)).2
  have slots : (db.platform deployment).inviteQuestions invite email =
      (db.slotsOf assessmentId).map (db.slotQuestion invite.id email) := by
    unfold Platform.inviteQuestions
    rw [isFor]
    rfl
  have nodup := nodup_submittedQuestions sound.constraints.uniqueKeys
    invite.id email
  have subset : db.submittedQuestions invite.id email ⊆
      (db.platform deployment).inviteQuestions invite email :=
    submittedQuestions_subset sound run.answers isInvite isFor
  have whole (complete : (db.platform deployment).slotCount invite ≤
      (db.submittedQuestions invite.id email).length) :
      (db.submittedQuestions invite.id email).Perm
        ((db.platform deployment).inviteQuestions invite email) := by
    have few : ((db.platform deployment).inviteQuestions invite email).length ≤
        (db.platform deployment).slotCount invite :=
      Platform.length_inviteQuestions_le _ invite email
    exact (nodup.subperm subset).perm_of_length_le (few.trans complete)
  rw [ids]
  refine ⟨?_, run.setsOnce.slotsApart sound.constraints.uniqueKeys _, subset, ?_,
    whole, ?_⟩
  · rw [slots]
    exact nodup_paper_iff sound run.setsOnce drawn
  · apply (nodup.subperm _).length_le
    exact fun id member => List.mem_dedup.mpr (subset member)
  · intro repeated
    by_contra complete
    exact repeated ((whole (not_lt.mp complete)).nodup_iff.mp nodup)

namespace Scenario

theorem set_s : given none ≠ given (some "s") := by decide

theorem fixed_u : given (some "u-bx") ≠ given none := by decide

theorem repeated_slots :
    ([⟨none, some "s", set_s⟩, fixedSlot "u-bx" fixed_u] :
      List AssessmentSlotIn) ≠ [] :=
  List.cons_ne_nil _ _

/-- The assessment `ab` of the set `s` and, besides, of a variant of it. -/
def createsRepeated : Asked :=
  asks 0 'd' (.createAssessment
    { assessmentIn with
      slots := [⟨none, some "s", set_s⟩, fixedSlot "u-bx" fixed_u]
      slots_nonempty := repeated_slots })

/-- The candidate starts, and draws the variant. -/
def repeats : List Asked :=
  [registers, createsSet, createsRepeated, invites, starts]

/-- The invite to the assessment. -/
def repeatedInvite : Invite :=
  { setInvite with id := 16 }

end Scenario

open Scenario in
/-- A variant that also fills a slot of its own is on the paper twice, and is
submitted once. -/
theorem paper_distinct_repeats :
    (∃ slot ∈ (play repeats).2.slotsOf "ab", slot.variantSetId.isSome ∧
      ∃ fixed ∈ (play repeats).2.slotsOf "ab",
        fixed.questionId =
          some ((play repeats).2.slotQuestion 16 "c@x" slot)) ∧
    ((play repeats).2.submittedQuestions 16 "c@x").length ≤ 1 := by
  obtain ⟨repeated, _, _, bounded, _⟩ := paper_distinct (run_play repeats)
    (show repeatedInvite ∈ (play repeats).2.invites by decide +kernel)
    (show repeatedInvite.assessmentId = some "ab" from rfl)
    (show inviteQuestions repeatedInvite "c@x" (play repeats).2 =
      ((play repeats).2, .ok [drawnQuestion, drawnQuestion]) by
        decide +kernel)
  constructor
  · by_contra none
    have distinct : ([drawnQuestion, drawnQuestion].map Question.id).Nodup :=
      repeated.mpr fun slot isSlot isSet fixed isFixed same =>
        none ⟨slot, isSlot, isSet, fixed, isFixed, same⟩
    exact absurd distinct (by decide)
  · exact bounded.trans (by decide)

end AssessmentPlatform
