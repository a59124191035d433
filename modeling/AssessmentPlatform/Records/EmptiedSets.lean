import AssessmentPlatform.Records.Papers

/-!
# Variant sets that run out of variants

`delete_question` keeps what a candidate has drawn, but not the last variant of
a set that nobody has drawn from.  An invite whose assessment draws from such a
set locks everybody out, for good.
-/

namespace AssessmentPlatform

open Rows

variable {deployment : Deployment} {served : Served} {scope : Option Nat}
variable {db after base left : Database} {invite : Invite}
variable {assessment : Assessment} {slot : AssessmentQuestion}
variable {slots : List AssessmentQuestion} {setId : String}

/-! ## Sets that have a variant -/

/-- A set that was drawn from has a variant. -/
theorem variantsOf_of_draw {row : CandidateSlotVariant} (sound : Sound db)
    (isSlot : slot ∈ db.slots) (isSet : slot.variantSetId = some setId)
    (isRow : row ∈ db.slotVariants)
    (isDraw : row.assessmentQuestionId = slot.id) :
    db.variantsOf setId ≠ [] := by
  obtain ⟨question, isQuestion, named⟩ :=
    sound.constraints.foreignKeys.slotVariantQuestion row isRow _ rfl
  obtain ⟨_, inSet⟩ := sound.tenancy.drawVariant row isRow slot isSlot
    isDraw.symm question isQuestion named
  exact List.ne_nil_of_mem
    (mem_variantsOf.mpr ⟨isQuestion, inSet.trans isSet⟩)

/-- Every set that the assessment behind an invite draws from has a variant. -/
def Stocked (db : Database) (invite : Invite) : Prop :=
  ∀ assessmentId, invite.assessmentId = some assessmentId →
    ∀ slot ∈ db.slotsOf assessmentId, ∀ setId,
      slot.variantSetId = some setId → db.variantsOf setId ≠ []

theorem allDrawable_iff_stocked (sound : Sound db) (email : String) :
    AllDrawable db invite email ↔ Stocked db invite := by
  constructor
  · intro drawable assessmentId isFor slot isSlot setId isSet
    rcases drawable assessmentId isFor slot isSlot setId isSet with
      drawn | stocked
    · obtain ⟨row, found⟩ := Option.isSome_iff_exists.mp drawn
      obtain ⟨isRow, _, _, isDraw⟩ := drawOf_eq_some found
      exact variantsOf_of_draw sound (mem_slotsOf.mp isSlot).1 isSet isRow
        isDraw
    · exact stocked
  · intro stocked assessmentId isFor slot isSlot setId isSet
    exact Or.inr (stocked assessmentId isFor slot isSlot setId isSet)

/-- An invite presents its questions to everybody or to nobody. -/
theorem resolves_iff_stocked (sound : Sound db) (slotted : Slotted db)
    (isInvite : invite ∈ db.invites) (email : String) :
    (∃ questions, (inviteQuestions invite email db).2 = .ok questions) ↔
      Stocked db invite := by
  rw [← allDrawable_iff_stocked sound email]
  constructor
  · intro ⟨questions, resolved⟩
    by_contra stuck
    obtain ⟨refusal, refused⟩ :=
      inviteQuestions_stuck sound.constraints.uniqueKeys.slot stuck
    rw [resolved] at refused
    cases refused
  · exact inviteQuestions_resolves sound slotted isInvite

/-! ## Where questions come from -/

/-- A question comes from an earlier one of the same set, or its set is new. -/
def FromSet (db : Database) (question : Question) : Prop :=
  (∃ was ∈ db.questions, was.variantSetId = question.variantSetId) ∨
    ∀ set ∈ db.variantSets, question.variantSetId ≠ some set.id

theorem Change.fromSet (change : Change deployment served scope db after)
    (next : after.Constraints) {question : Question}
    (isQuestion : question ∈ after.questions) : FromSet db question := by
  have inherited (derived : Derived Question.identity db.questions
      after.questions) : FromSet db question := by
    obtain ⟨was, isWas, same⟩ := derived question isQuestion
    simp only [Question.identity, Prod.mk.injEq] at same
    exact Or.inl ⟨was, isWas, same.2.2⟩
  cases change with
  | founded _ enters => exact inherited enters.derives.question
  | joined enters => exact inherited enters.derives.question
  | accountDeleted deleted =>
      obtain ⟨left, leaving, rfl⟩ := Database.purgeAccount_left deleted
      exact inherited
        (leaving.derives.question.trans (derived_updateWhere fun _ => rfl))
  | questionAdded added _ _ loose =>
      rcases List.mem_append.mp isQuestion with isOld | isNew
      · exact Or.inl ⟨question, isOld, rfl⟩
      · obtain rfl := List.mem_singleton.mp isNew
        exact Or.inr fun set _ isOf => by simp [loose] at isOf
  | setAdded set questions _ _ _ _ members =>
      rcases List.mem_append.mp isQuestion with isOld | isNew
      · exact Or.inl ⟨question, isOld, rfl⟩
      · refine Or.inr fun other isOther isOf => ?_
        obtain ⟨_, inSet, _⟩ := members question isNew
        have unique : Keyed VariantSet.id (db.variantSets ++ [set]) :=
          next.uniqueKeys.variantSet
        exact unique.ne_of_append isOther List.mem_cons_self
          (Option.some.inj (isOf.symm.trans inSet))
  | questionEdited _ _ _ isOld =>
      exact inherited (derived_save isOld rfl)
  | questionDeleted => exact inherited (derived_deleteWhere _)
  | _ => exact Or.inl ⟨question, isQuestion, rfl⟩

/-! ## An emptied set stays empty -/

/-- While an invite is stored, no question is a variant of a set. -/
def StaysEmpty (invite : Invite) (setId : String) (db : Database) : Prop :=
  (∃ current ∈ db.invites, current.id = invite.id) →
    db.variantsOf setId = []

theorem variantsOf_eq_nil :
    db.variantsOf setId = [] ↔
      ∀ question ∈ db.questions, question.variantSetId ≠ some setId := by
  rw [List.eq_nil_iff_forall_not_mem]
  constructor
  · intro none question isQuestion inSet
    exact none question (mem_variantsOf.mpr ⟨isQuestion, inSet⟩)
  · intro none question isVariant
    obtain ⟨isQuestion, inSet⟩ := mem_variantsOf.mp isVariant
    exact none question isQuestion inSet

/-- The invites of a state are the earlier ones, or new. -/
theorem InviteStays.before
    (change : Change deployment served scope db after)
    (stays : InviteStays invite assessment slots db)
    (stored : ∃ current ∈ after.invites, current.id = invite.id) :
    ∃ was ∈ db.invites, was.id = invite.id := by
  obtain ⟨current, isCurrent, same⟩ := stored
  have keeps : KeepsTerms db after := change.keepsTerms
  rcases keeps current isCurrent with ⟨was, isWas, kept⟩ | isNew
  · exact ⟨was, isWas, (Prod.mk.inj kept).1.trans same⟩
  · have isOld := stays.old
    omega

/-- The slots of a stored invite are there, and so are their sets. -/
theorem InviteStays.set (stays : InviteStays invite assessment slots db)
    (constraints : db.Constraints)
    (stored : ∃ current ∈ db.invites, current.id = invite.id)
    (isSlot : slot ∈ slots) (isSet : slot.variantSetId = some setId) :
    slot ∈ db.slots ∧ ∃ set ∈ db.variantSets, set.id = setId := by
  have locked := (stays.locked stored).slots
  rw [← locked] at isSlot
  have isHere := (List.mem_filter.mp isSlot).1
  exact ⟨isHere, constraints.foreignKeys.slotSet slot isHere setId isSet⟩

theorem Change.staysEmpty (change : Change deployment served scope db after)
    (sound : Sound db) (next : after.Constraints)
    (stays : InviteStays invite assessment slots db)
    (isSlot : slot ∈ slots) (isSet : slot.variantSetId = some setId)
    (empty : StaysEmpty invite setId db) : StaysEmpty invite setId after := by
  intro stored
  have before := stays.before change stored
  have wasEmpty := variantsOf_eq_nil.mp (empty before)
  obtain ⟨_, set, isOld, rfl⟩ :=
    stays.set sound.constraints before isSlot isSet
  apply variantsOf_eq_nil.mpr
  intro question isQuestion inSet
  rcases change.fromSet next isQuestion with ⟨was, isWas, same⟩ | isNew
  · exact wasEmpty was isWas (same.trans inSet)
  · exact isNew set isOld inSet

/-! ## Variants stay unless they are deleted -/

/-- A question of an organisation is a variant of a set. -/
def IsVariant (questionId : String) (orgId : Nat) (setId : String)
    (db : Database) : Prop :=
  (questionId, orgId, some setId) ∈ db.questions.map Question.identity

variable {questionId : String} {orgId : Nat}

theorem IsVariant.purged {purgedId : Nat}
    (variant : IsVariant questionId orgId setId db)
    (apart : orgId ≠ purgedId) :
    IsVariant questionId orgId setId (db.purged purgedId) := by
  apply mem_map_deleteWhere variant
  intro question _ same isPurged
  simp only [Question.identity, Prod.mk.injEq] at same
  exact apart (same.2.1 ▸ by simpa using isPurged)

/-- A variant of an organisation that stands is lost by its own deletion
only. -/
theorem Change.isVariant (change : Change deployment served scope db after)
    (constraints : db.Constraints)
    (spared : ∀ caller,
      served.request ≠ .member caller (.deleteQuestion questionId))
    (stands : after.Stands orgId)
    (variant : IsVariant questionId orgId setId db) :
    IsVariant questionId orgId setId after := by
  cases change with
  | founded _ enters =>
      cases enters with
      | newcomer => exact variant
      | seatless => exact variant
  | joined enters =>
      cases enters with
      | newcomer => exact variant
      | seatless => exact variant
      | leaving _ _ gaveUp =>
          obtain ⟨rfl, _⟩ := leaveEmptyOrg_eq_ok gaveUp
          exact variant.purged (stands_purged.mp stands).2
  | accountDeleted deleted =>
      obtain ⟨left, leaving, rfl⟩ := Database.purgeAccount_left deleted
      have remains : IsVariant questionId orgId setId left := by
        cases leaving with
        | seatless => exact variant
        | shared => exact variant
        | last => exact variant.purged (stands_purged.mp stands).2
      exact mem_map_updateWhere (fun _ => rfl) remains
  | questionAdded =>
      rw [IsVariant, addQuestion, List.map_append]
      exact List.mem_append_left _ variant
  | setAdded =>
      rw [IsVariant, List.map_append]
      exact List.mem_append_left _ variant
  | questionEdited _ _ _ isQuestion =>
      exact mem_map_save constraints.uniqueKeys.question isQuestion rfl rfl
        variant
  | questionDeleted _ _ _ _ _ asked =>
      apply mem_map_deleteWhere variant
      intro question _ same isDeleted
      obtain ⟨caller, asked⟩ := asked
      simp only [Question.identity, Prod.mk.injEq] at same
      rw [← beq_iff_eq.mp isDeleted, same.1] at asked
      exact spared caller asked
  | _ => exact variant

/-! ## Draws hold their set -/

/-- While an invite is stored, a variant has been drawn for a slot of it. -/
def StaysDrawn (invite : Invite) (slotId : Nat) (db : Database) : Prop :=
  (∃ current ∈ db.invites, current.id = invite.id) →
    ∃ row ∈ db.slotVariants, row.inviteId = invite.id ∧
      row.assessmentQuestionId = slotId

theorem StaysDrawn.purged {slotId : Nat}
    (drawn : StaysDrawn invite slotId db) (orgId : Nat) :
    StaysDrawn invite slotId (db.purged orgId) := by
  intro ⟨current, isCurrent, same⟩
  obtain ⟨isOld, kept⟩ := mem_deleteWhere.mp isCurrent
  obtain ⟨row, isRow, isOf, isDraw⟩ := drawn ⟨current, isOld, same⟩
  refine ⟨row, mem_deleteWhere.mpr ⟨isRow, ?_⟩, isOf, isDraw⟩
  rw [isOf, ← same]
  exact kept

theorem StaysDrawn.erased {slotId : Nat}
    (drawn : StaysDrawn invite slotId db) (now : Time)
    (pseudonym address : String) (inviteIds : List Nat)
    (submissionIds : List String) :
    StaysDrawn invite slotId
      (erase now pseudonym address inviteIds submissionIds db) := by
  intro ⟨current, isCurrent, same⟩
  obtain ⟨was, isWas, rfl⟩ := mem_of_mem_updateWhere isCurrent
  have wasId : was.id = invite.id := by
    rw [← same]
    split <;> rfl
  obtain ⟨row, isRow, isOf, isDraw⟩ := drawn ⟨was, isWas, wasId⟩
  by_cases isErased :
      (inviteIds.contains row.inviteId && row.candidateEmail == address) = true
  · exact ⟨{ row with candidateEmail := pseudonym },
      mem_updateWhere.mpr (Or.inl ⟨row, isRow, isErased, rfl⟩), isOf, isDraw⟩
  · exact ⟨row, mem_updateWhere.mpr (Or.inr ⟨isRow, isErased⟩), isOf, isDraw⟩

theorem Change.staysDrawn (change : Change deployment served scope db after)
    {slotId : Nat} (old : invite.id < db.nextId)
    (drawn : StaysDrawn invite slotId db) :
    StaysDrawn invite slotId after := by
  have keeps : KeepsTerms db after := change.keepsTerms
  have inherited (draws : db.slotVariants ⊆ after.slotVariants) :
      StaysDrawn invite slotId after := by
    intro ⟨current, isCurrent, same⟩
    rcases keeps current isCurrent with ⟨was, isWas, kept⟩ | isNew
    · obtain ⟨row, isRow, isDraw⟩ :=
        drawn ⟨was, isWas, (Prod.mk.inj kept).1.trans same⟩
      exact ⟨row, draws isRow, isDraw⟩
    · omega
  cases change with
  | founded _ enters =>
      cases enters with
      | newcomer => exact drawn
      | seatless => exact drawn
  | joined enters =>
      cases enters with
      | newcomer => exact drawn
      | seatless => exact drawn
      | leaving _ _ gaveUp =>
          obtain ⟨rfl, _⟩ := leaveEmptyOrg_eq_ok gaveUp
          exact drawn.purged _
  | accountDeleted deleted =>
      obtain ⟨left, leaving, rfl⟩ := Database.purgeAccount_left deleted
      have remains : StaysDrawn invite slotId left := by
        cases leaving with
        | seatless => exact drawn
        | shared => exact drawn
        | last => exact drawn.purged _
      intro ⟨current, isCurrent, same⟩
      obtain ⟨was, isWas, rfl⟩ := mem_of_mem_updateWhere isCurrent
      apply remains
      refine ⟨was, isWas, ?_⟩
      rw [← same]
      split <;> rfl
  | drawn => exact inherited (List.subset_append_left _ _)
  | erased => exact drawn.erased _ _ _ _ _
  | _ => exact inherited (List.Subset.refl _)

/-! ## Over a run -/

section Runs

variable {trace : List Served} {current : Invite}

/-- A stored invite to an assessment, since a request of the run. -/
theorem Run.inviteStays (run : Run deployment trace db)
    (member : served ∈ trace) (isInvite : invite ∈ served.before.invites)
    (isAssessment : assessment ∈ served.before.assessments)
    (isFor : invite.assessmentId = some assessment.id) :
    InviteStays invite assessment
      (served.before.slots.filter fun slot =>
        slot.assessmentId == assessment.id) db :=
  run.sinceSound _ member
    (inviteStays_self (run.sound_before member) isInvite isAssessment isFor)
    fun change sound next stays =>
      change.inviteStays sound next isFor stays

theorem InviteStays.assessmentId
    (stays : InviteStays invite assessment slots db)
    (isCurrent : current ∈ db.invites) (same : current.id = invite.id) :
    current.assessmentId = invite.assessmentId := by
  have terms := stays.terms current isCurrent same
  simp only [Invite.terms, Prod.mk.injEq] at terms
  exact terms.2.2.1

/-- The terms of a stored invite, since a request of the run. -/
theorem Run.sameTerms (run : Run deployment trace db)
    (member : served ∈ trace) (isInvite : invite ∈ served.before.invites)
    (isCurrent : current ∈ db.invites) (same : current.id = invite.id) :
    current.terms = invite.terms := by
  have sound := run.sound_before member
  have both := run.sinceSound
    (fun db => invite.id < db.nextId ∧ ∀ current ∈ db.invites,
      current.id = invite.id → current.terms = invite.terms) member
    ⟨sound.ids.invite invite isInvite, fun current isCurrent same => by
      rw [sound.constraints.uniqueKeys.invite.eq isCurrent isInvite same]⟩
    fun change _ _ held =>
      ⟨Nat.lt_of_lt_of_le held.1 change.nextId_le,
        change.keepsTerms.keeps held.1 held.2⟩
  exact both.2 current isCurrent same

/-- Whoever is locked out once is locked out for good. -/
theorem Run.staysLocked (run : Run deployment trace db)
    (member : served ∈ trace) (isInvite : invite ∈ served.before.invites)
    (isEmpty : ¬Stocked served.before invite)
    (isCurrent : current ∈ db.invites) (same : current.id = invite.id) :
    ¬Stocked db current := by
  have sound := run.sound_before member
  simp only [Stocked, not_forall, not_not] at isEmpty
  obtain ⟨assessmentId, isFor, slot, isSlot, setId, isSet, empty⟩ := isEmpty
  obtain ⟨assessment, isAssessment, rfl⟩ :=
    sound.constraints.foreignKeys.inviteAssessment invite isInvite _ isFor
  obtain ⟨isSlot, isOf⟩ := mem_slotsOf.mp isSlot
  have isHere : slot ∈ served.before.slots.filter fun slot =>
      slot.assessmentId == assessment.id :=
    List.mem_filter.mpr ⟨isSlot, by simp [isOf]⟩
  have both := run.sinceSound
    (fun db => InviteStays invite assessment
      (served.before.slots.filter fun slot =>
        slot.assessmentId == assessment.id) db ∧ StaysEmpty invite setId db)
    member
    ⟨inviteStays_self sound isInvite isAssessment isFor, fun _ => empty⟩
    fun change sound next held =>
      ⟨change.inviteStays sound next isFor held.1,
        change.staysEmpty sound next.constraints held.1 isHere isSet held.2⟩
  intro stocked
  have isFor' := (both.1.assessmentId isCurrent same).trans isFor
  have still := (both.1.set run.constraints ⟨current, isCurrent, same⟩ isHere
    isSet).1
  exact stocked _ isFor' slot (mem_slotsOf.mpr ⟨still, isOf⟩) setId isSet
    (both.2 ⟨current, isCurrent, same⟩)

/-- An invite that a candidate has drawn every slot of never locks anybody
out. -/
theorem Run.staysStocked (run : Run deployment trace db)
    (member : served ∈ trace) (isInvite : invite ∈ served.before.invites)
    {email : String} {paper : List Question}
    (presented : inviteQuestions invite email served.before =
      (served.before, .ok paper))
    (isCurrent : current ∈ db.invites) (same : current.id = invite.id) :
    Stocked db current := by
  have sound := run.sound_before member
  intro assessmentId isFor' slot isSlot setId isSet
  cases isFor : invite.assessmentId with
  | none =>
      have terms := run.sameTerms member isInvite isCurrent same
      simp only [Invite.terms, Prod.mk.injEq] at terms
      rw [isFor', isFor] at terms
      simp at terms
  | some id =>
      obtain ⟨assessment, isAssessment, rfl⟩ :=
        sound.constraints.foreignKeys.inviteAssessment invite isInvite _ isFor
      have stays := run.inviteStays member isInvite isAssessment isFor
      have sameFor := stays.assessmentId isCurrent same
      obtain rfl := Option.some.inj
        (isFor'.symm.trans (sameFor.trans isFor))
      obtain ⟨isSlot, isOf⟩ := mem_slotsOf.mp isSlot
      have isHere : slot ∈ served.before.slots := by
        have locked := (stays.locked ⟨current, isCurrent, same⟩).slots
        have isIn : slot ∈ db.slots.filter fun slot =>
            slot.assessmentId == assessment.id :=
          List.mem_filter.mpr ⟨isSlot, by simp [isOf]⟩
        rw [locked] at isIn
        exact (List.mem_filter.mp isIn).1
      have drawn := allDrawn_of_presented isFor (congrArg Prod.snd presented)
      rw [presented] at drawn
      obtain ⟨row, found⟩ := Option.isSome_iff_exists.mp
        (drawn slot (mem_slotsOf.mpr ⟨isHere, isOf⟩) (by simp [isSet]))
      obtain ⟨isRow, isInviteRow, _, isDraw⟩ := drawOf_eq_some found
      have both := run.sinceSound
        (fun db => invite.id < db.nextId ∧ StaysDrawn invite slot.id db)
        member
        ⟨sound.ids.invite invite isInvite,
          fun _ => ⟨row, isRow, isInviteRow, isDraw⟩⟩
        fun change _ _ held =>
          ⟨Nat.lt_of_lt_of_le held.1 change.nextId_le,
            change.staysDrawn held.1 held.2⟩
      obtain ⟨kept, isKept, _, isDraw⟩ := both.2 ⟨current, isCurrent, same⟩
      exact variantsOf_of_draw run.sound isSlot isSet isKept isDraw

/-- The run up to a request of it. -/
theorem Run.upTo (run : Run deployment trace db) (member : served ∈ trace) :
    ∃ earlier, Run deployment (earlier ++ [served])
      (served.after deployment) := by
  induction run with
  | start => cases member
  | @step trace db around request run inductionHypothesis =>
      rcases List.mem_append.mp member with isEarlier | isLast
      · exact inductionHypothesis isEarlier
      · obtain rfl := List.mem_singleton.mp isLast
        exact ⟨trace, run.step around request⟩

/-- What a request takes from an organisation that stands are questions that it
names. -/
theorem Run.variantSpared (run : Run deployment trace db)
    (member : served ∈ trace) (isOld : orgId < served.before.nextId)
    (spared : ∀ caller,
      served.request ≠ .member caller (.deleteQuestion questionId))
    (stands : (served.after deployment).Stands orgId)
    (variant : IsVariant questionId orgId setId served.before) :
    IsVariant questionId orgId setId (served.after deployment) := by
  obtain ⟨constraints, transactions⟩ := run.transactions member
  have both := transactions.keeps
    (fun db => orgId < db.nextId ∧
      (db.Stands orgId → IsVariant questionId orgId setId db))
    constraints
    (fun change constraints _ held =>
      ⟨Nat.lt_of_lt_of_le held.1 change.nextId_le, fun stands =>
        change.isVariant constraints spared stands
          (held.2 (change.stands held.1 stands))⟩)
    ⟨isOld, fun _ => variant⟩
  exact both.2.2 stands

/-- A request that locks everybody out deletes the last variant of a set that
the assessment draws from. -/
structure Empties (served : Served) (invite : Invite) (caller : Nat)
    (question : Question) (slot : AssessmentQuestion) : Prop where
  asked : served.request = .member caller (.deleteQuestion question.id)
  isQuestion : question ∈ served.before.questions
  isSlot : slot ∈ served.before.slots
  isFor : invite.assessmentId = some slot.assessmentId
  isSet : slot.variantSetId.isSome
  variant : question.variantSetId = slot.variantSetId
  last : ∀ other ∈ served.before.questions,
    other.variantSetId = slot.variantSetId → other = question

theorem Run.emptiedBy (run : Run deployment trace db)
    (member : served ∈ trace) (isInvite : invite ∈ served.before.invites)
    (stocked : Stocked served.before invite)
    (isCurrent : current ∈ (served.after deployment).invites)
    (same : current.id = invite.id)
    (isEmpty : ¬Stocked (served.after deployment) current) :
    ∃ caller question slot, Empties served invite caller question slot := by
  have sound := run.sound_before member
  have next := (run.sound_after member).1
  obtain ⟨earlier, upTo⟩ := run.upTo member
  have isLast : served ∈ earlier ++ [served] :=
    List.mem_append_right _ List.mem_cons_self
  have terms := upTo.sameTerms isLast isInvite isCurrent same
  simp only [Invite.terms, Prod.mk.injEq] at terms
  simp only [Stocked, not_forall, not_not] at isEmpty
  obtain ⟨assessmentId, isFor', slot, isSlot, setId, isSet, empty⟩ := isEmpty
  have isFor : invite.assessmentId = some assessmentId :=
    terms.2.2.1.symm.trans isFor'
  obtain ⟨assessment, isAssessment, rfl⟩ :=
    sound.constraints.foreignKeys.inviteAssessment invite isInvite _ isFor
  have stays := upTo.inviteStays isLast isInvite isAssessment isFor
  have locked := stays.locked ⟨current, isCurrent, same⟩
  obtain ⟨isSlot, isOf⟩ := mem_slotsOf.mp isSlot
  have isHere : slot ∈ served.before.slots := by
    have isIn : slot ∈ (served.after deployment).slots.filter fun slot =>
        slot.assessmentId == assessment.id :=
      List.mem_filter.mpr ⟨isSlot, by simp [isOf]⟩
    rw [locked.slots] at isIn
    exact (List.mem_filter.mp isIn).1
  have stands : (served.after deployment).Stands assessment.orgId := by
    obtain ⟨row, isRow, rowOf⟩ := List.mem_map.mp locked.assessment
    obtain ⟨org, isOrg, named⟩ :=
      next.constraints.foreignKeys.assessmentOrg row isRow _ rfl
    exact List.mem_map.mpr ⟨org, isOrg, named.trans (Prod.mk.inj rowOf).2⟩
  have isOld : assessment.orgId < served.before.nextId := by
    obtain ⟨org, isOrg, named⟩ :=
      sound.constraints.foreignKeys.assessmentOrg assessment isAssessment _ rfl
    exact named ▸ sound.ids.organization org isOrg
  obtain ⟨set, isSetRow, rfl⟩ :=
    sound.constraints.foreignKeys.slotSet slot isHere setId isSet
  -- every variant of the set is the question that the request deletes
  have deleted : ∀ question ∈ served.before.questions,
      question.variantSetId = some set.id → ∃ caller,
        served.request = .member caller (.deleteQuestion question.id) := by
    intro question isQuestion inSet
    by_contra spared
    have inOrg : question.orgId = assessment.orgId :=
      (sound.tenancy.questionSet question isQuestion set isSetRow
        inSet).trans
        (sound.tenancy.slotSet slot isHere assessment isAssessment isOf set
          isSetRow isSet)
    have variant : IsVariant question.id assessment.orgId set.id
        served.before :=
      List.mem_map.mpr ⟨question, isQuestion, by
        simp [Question.identity, inOrg, inSet]⟩
    obtain ⟨left, isLeft, kept⟩ := List.mem_map.mp
      (run.variantSpared member isOld (not_exists.mp spared) stands variant)
    simp only [Question.identity, Prod.mk.injEq] at kept
    exact variantsOf_eq_nil.mp empty left isLeft kept.2.2
  obtain ⟨question, isVariant⟩ := List.exists_mem_of_ne_nil _
    (stocked _ isFor slot (mem_slotsOf.mpr ⟨isHere, isOf⟩) _ isSet)
  obtain ⟨isQuestion, inSet⟩ := mem_variantsOf.mp isVariant
  obtain ⟨caller, asked⟩ := deleted question isQuestion inSet
  refine ⟨caller, question, slot, asked, isQuestion, isHere, ?_, ?_, ?_, ?_⟩
  · rw [isFor, isOf]
  · simp [isSet]
  · rw [inSet, isSet]
  · intro other isOther inOther
    obtain ⟨caller', asked'⟩ := deleted other isOther (inOther.trans isSet)
    rw [asked] at asked'
    simp only [ApiRequest.member.injEq, MemberRequest.deleteQuestion.injEq]
      at asked'
    exact sound.constraints.uniqueKeys.question.eq isOther isQuestion
      asked'.2.symm

/-- In every reachable state an invite presents its questions to every address
or to none; only the deletion of the last variant of a set that its assessment
draws from turns one into the other, for good, and not once a candidate has
drawn every slot. -/
theorem lockout_exact (run : Run deployment trace db) :
    (∀ invite ∈ db.invites, ∀ email,
      (∃ questions, (inviteQuestions invite email db).2 = .ok questions) ↔
        Stocked db invite) ∧
    ∀ served ∈ trace, ∀ invite ∈ served.before.invites,
      (Stocked served.before invite →
        ∀ current ∈ (served.after deployment).invites,
          current.id = invite.id →
          ¬Stocked (served.after deployment) current →
            ∃ caller question slot,
              Empties served invite caller question slot) ∧
      (¬Stocked served.before invite → ∀ current ∈ db.invites,
        current.id = invite.id → ¬Stocked db current) ∧
      ∀ email paper,
        inviteQuestions invite email served.before =
            (served.before, .ok paper) →
          ∀ current ∈ db.invites, current.id = invite.id →
            Stocked db current := by
  constructor
  · intro invite isInvite email
    exact resolves_iff_stocked run.sound run.slotted isInvite email
  · intro served member invite isInvite
    refine ⟨?_, ?_, ?_⟩
    · intro stocked current isCurrent same
      exact run.emptiedBy member isInvite stocked isCurrent same
    · intro isEmpty current isCurrent same
      exact run.staysLocked member isInvite isEmpty isCurrent same
    · intro email paper presented current isCurrent same
      exact run.staysStocked member isInvite presented isCurrent same

end Runs

open Scenario in
/-- Both variants are deleted before anybody has started, and nobody is let
in. -/
theorem lockout_exact_emptied :
    ¬Stocked (play emptied).2 setInvite := by
  intro stocked
  have present := ((lockout_exact (run_play emptied)).1 setInvite (by decide)
    "c@x").mpr stocked
  obtain ⟨questions, resolved⟩ := present
  have refused : (inviteQuestions setInvite "c@x" (play emptied).2).2.isOk =
      false := by decide
  rw [resolved] at refused
  cases refused

end AssessmentPlatform
