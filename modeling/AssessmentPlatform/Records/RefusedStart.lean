import AssessmentPlatform.Records.Clock
import AssessmentPlatform.Records.Metering
import AssessmentPlatform.Records.Sample

/-!
# Refused requests of candidates

A request that is refused should leave no sitting behind.  `/submit` resolves
its question before it begins the sitting; `/start` begins the sitting first,
and is refused afterwards where a slot of the assessment has no variant left.
-/

namespace AssessmentPlatform

open Rows

variable {deployment : Deployment} {served : Served} {scope : Option Nat}
variable {db after base left : Database} {invite : Invite}
variable {email setId : String} {slot : AssessmentQuestion}
variable {slots : List AssessmentQuestion} {question : Question}

/-! ## Assessments keep a slot -/

/-- Every assessment has a slot. -/
def Slotted (db : Database) : Prop :=
  ∀ assessment ∈ db.assessments, ∃ slot ∈ db.slots,
    slot.assessmentId = assessment.id

/-- Assessments that lose no slot keep one. -/
theorem Slotted.kept (slotted : Slotted db)
    (kept : ∀ assessment ∈ after.assessments,
      ∃ was ∈ db.assessments, was.id = assessment.id ∧
        ∀ slot ∈ db.slots, slot.assessmentId = was.id → slot ∈ after.slots) :
    Slotted after := by
  intro assessment member
  obtain ⟨was, isWas, same, keeps⟩ := kept assessment member
  obtain ⟨slot, isSlot, isOf⟩ := slotted was isWas
  exact ⟨slot, keeps slot isSlot isOf, isOf.trans same⟩

theorem Slotted.purged (slotted : Slotted db) (constraints : db.Constraints)
    (orgId : Nat) : Slotted (db.purged orgId) := by
  apply slotted.kept
  intro assessment member
  obtain ⟨isWas, apart⟩ := mem_deleteWhere.mp member
  refine ⟨assessment, isWas, rfl, ?_⟩
  intro slot isSlot isOf
  apply mem_deleteWhere.mpr
  refine ⟨isSlot, ?_⟩
  intro owned
  simp only [Database.ownsAssessment, List.any_eq_true, Bool.and_eq_true,
    beq_iff_eq] at owned
  obtain ⟨other, isOther, sameId, isOrg⟩ := owned
  obtain rfl := constraints.uniqueKeys.assessment.eq isOther isWas
    (sameId.trans isOf)
  simp [isOrg] at apart

theorem Enters.slotted {account : Interviewer} {gaveUp : Option Nat}
    (enters : Enters db account gaveUp base) (constraints : db.Constraints)
    (slotted : Slotted db) : Slotted base := by
  cases enters with
  | newcomer => exact slotted
  | seatless => exact slotted
  | leaving _ _ gaveUp =>
      obtain ⟨rfl, _⟩ := leaveEmptyOrg_eq_ok gaveUp
      exact slotted.purged constraints _

theorem Database.Left.slotted {interviewerId : Nat}
    (leaving : Database.Left db interviewerId left)
    (constraints : db.Constraints) (slotted : Slotted db) : Slotted left := by
  cases leaving with
  | last => exact slotted.purged constraints _
  | _ => exact slotted

/-- Slots that an assessment gets are some. -/
theorem SlotRows.exists_slot {orgId : Nat} {assessmentId : String}
    (rows : SlotRows db orgId assessmentId slots) :
    ∃ slot ∈ slots, slot.assessmentId = assessmentId := by
  obtain ⟨slot, member⟩ := List.exists_mem_of_ne_nil slots rows.nonempty
  exact ⟨slot, member, rows.assessment slot member⟩

theorem Change.slotted (change : Change deployment served scope db after)
    (constraints : db.Constraints) (slotted : Slotted db) :
    Slotted after := by
  cases change with
  | founded _ enters =>
      have entered : Slotted _ := enters.slotted constraints slotted
      exact entered
  | joined enters =>
      have entered : Slotted _ := enters.slotted constraints slotted
      exact entered
  | accountDeleted deleted =>
      obtain ⟨left, leaving, rfl⟩ := Database.purgeAccount_left deleted
      have remaining : Slotted left := leaving.slotted constraints slotted
      intro assessment member
      obtain ⟨was, isWas, rfl⟩ := mem_of_mem_updateWhere member
      obtain ⟨slot, isSlot, isOf⟩ := remaining was isWas
      refine ⟨slot, isSlot, ?_⟩
      split <;> exact isOf
  | assessmentAdded assessment slots _ rows =>
      intro other member
      rcases List.mem_append.mp member with old | isNew
      · obtain ⟨slot, isSlot, isOf⟩ := slotted other old
        exact ⟨slot, List.mem_append_left _ isSlot, isOf⟩
      · obtain rfl := List.mem_singleton.mp isNew
        obtain ⟨slot, isSlot, isOf⟩ := rows.exists_slot
        exact ⟨slot, List.mem_append_right _ isSlot, isOf⟩
  | assessmentEdited _ _ _ isAssessment =>
      apply slotted.kept
      intro other member
      rcases mem_save member with rfl | ⟨old, _⟩
      · exact ⟨_, isAssessment, rfl, fun slot isSlot _ => isSlot⟩
      · exact ⟨other, old, rfl, fun slot isSlot _ => isSlot⟩
  | @slotsReplaced _ _ edited _ _ _ slots isAssessment _ _ rows =>
      intro other member
      by_cases here : other.id = edited.id
      · obtain ⟨slot, isSlot, isOf⟩ := rows.exists_slot
        exact ⟨slot, List.mem_append_right _ isSlot, isOf.trans here.symm⟩
      · rcases mem_save member with rfl | ⟨old, _⟩
        · exact absurd rfl here
        · obtain ⟨slot, isSlot, isOf⟩ := slotted other old
          refine ⟨slot, List.mem_append_left _ ?_, isOf⟩
          apply mem_deleteWhere.mpr
          exact ⟨isSlot, by simpa [isOf] using here⟩
  | @assessmentDeleted _ _ deleted =>
      apply slotted.kept
      intro other member
      obtain ⟨old, apart⟩ := mem_deleteWhere.mp member
      refine ⟨other, old, rfl, ?_⟩
      intro slot isSlot isOf
      apply mem_deleteWhere.mpr
      exact ⟨isSlot, by simpa [isOf] using apart⟩
  | _ => exact slotted

theorem Run.slotted {trace : List Served} (run : Run deployment trace db) :
    Slotted db :=
  run.keeps Slotted (fun _ member => nomatch member)
    fun change constraints _ => change.slotted constraints

/-! ## Slots that can be drawn -/

/-- A slot can be resolved for a candidate: it has a draw already, or its set
has a variant. -/
def Drawable (db : Database) (invite : Invite) (email : String)
    (slot : AssessmentQuestion) : Prop :=
  ∀ setId, slot.variantSetId = some setId →
    (drawOf db invite slot email).isSome ∨ db.variantsOf setId ≠ []

theorem Drawable.mono (drawable : Drawable db invite email slot)
    (draws : DrawsOnly db after) : Drawable after invite email slot := by
  intro setId isSet
  rcases drawable setId isSet with drawn | variants
  · obtain ⟨row, found⟩ := Option.isSome_iff_exists.mp drawn
    exact Or.inl (by rw [draws.drawOf found]; rfl)
  · right
    rw [draws.rest]
    exact variants

/-- A draw with a fresh key breaks no constraint where there was none. -/
theorem constraints_addDraw {chosen : Question} (constraints : db.Constraints)
    (below : Below CandidateSlotVariant.id db.slotVariants db.nextId)
    (isInvite : invite ∈ db.invites) (isSlot : slot ∈ db.slots)
    (isQuestion : chosen ∈ db.questions)
    (absent : drawOf db invite slot email = none) :
    (addDraw db (newDraw db invite email slot chosen)).Constraints := by
  have references {Target Key : Type}
      {column : CandidateSlotVariant → Option Key} {key : Target → Key}
      {targets : List Target}
      (refers : Refers column db.slotVariants key targets)
      (last : ∀ wanted ∈ column (newDraw db invite email slot chosen),
        ∃ target ∈ targets, key target = wanted) :
      Refers column (db.slotVariants ++ [newDraw db invite email slot chosen])
        key targets := by
    intro row member
    rcases List.mem_append.mp member with old | isNew
    · exact refers row old
    · obtain rfl := List.mem_singleton.mp isNew
      exact last
  constructor
  · refine { constraints.uniqueKeys with
      slotVariant := ?_
      slotVariantCandidate := ?_ }
    · apply constraints.uniqueKeys.slotVariant.append
      intro row member
      exact Nat.ne_of_lt (below row member)
    · apply constraints.uniqueKeys.slotVariantCandidate.append
      intro row member same
      have missing := List.find?_eq_none.mp absent row member
      simp [newDraw] at same
      simp [same] at missing
  · refine { constraints.foreignKeys with
      slotVariantInvite := ?_
      slotVariantSlot := ?_
      slotVariantQuestion := ?_ }
    · apply references constraints.foreignKeys.slotVariantInvite
      intro wanted named
      exact ⟨invite, isInvite, Option.some.inj named⟩
    · apply references constraints.foreignKeys.slotVariantSlot
      intro wanted named
      exact ⟨slot, isSlot, Option.some.inj named⟩
    · apply references constraints.foreignKeys.slotVariantQuestion
      intro wanted named
      exact ⟨chosen, isQuestion, Option.some.inj named⟩

/-- What a draw needs of the state it is made in. -/
structure DrawsSafely (db : Database) (invite : Invite) : Prop where
  constraints : db.Constraints
  below : Below CandidateSlotVariant.id db.slotVariants db.nextId
  invite : invite ∈ db.invites

theorem SlotOutcome.drawsSafely {handled : Handled Question}
    (outcome : SlotOutcome db invite email slot setId handled)
    (safely : DrawsSafely db invite) : DrawsSafely handled.1 invite := by
  cases outcome with
  | frozen => exact safely
  | drawn _ _ constraints =>
      exact ⟨constraints, safely.below.append (Nat.lt_succ_self _)
        (Nat.le_succ _), safely.invite⟩
  | refused => exact safely

/-- The frozen draw of a candidate, or the variant whose turn it is. -/
theorem resolveSlotVariant_resolves (safely : DrawsSafely db invite)
    (isSlot : slot ∈ db.slots) (isSet : slot.variantSetId = some setId)
    (drawable : Drawable db invite email slot) :
    ∃ question,
      (resolveSlotVariant db invite slot setId email).2 = .ok question := by
  unfold resolveSlotVariant
  dsimp only
  cases found : drawOf db invite slot email with
  | some row =>
      obtain ⟨isRow, _⟩ := drawOf_eq_some found
      obtain ⟨question, isQuestion, same⟩ :=
        safely.constraints.foreignKeys.slotVariantQuestion row isRow _ rfl
      have fetched : fetch Question.id row.questionId db.questions =
          some question :=
        safely.constraints.uniqueKeys.question.fetch_eq isQuestion same
      rw [Option.bind_some, fetched]
      exact ⟨question, rfl⟩
  | none =>
      have variants : db.variantsOf setId ≠ [] :=
        (drawable setId isSet).resolve_left (by simp [found])
      rw [Option.bind_none]
      dsimp only
      split
      · next missing =>
        have inside := Nat.mod_lt
          (db.slotVariants.filter fun row =>
            row.assessmentQuestionId == slot.id).length
          (List.length_pos_of_ne_nil variants)
        have outside := List.getElem?_eq_none_iff.mp missing
        omega
      · next chosen isChosen =>
        have isQuestion : chosen ∈ db.questions :=
          (mem_variantsOf.mp (List.mem_of_getElem? isChosen)).1
        have next := constraints_addDraw safely.constraints safely.below
          safely.invite isSlot isQuestion found
        exact ⟨chosen, congrArg Prod.snd (if_pos next)⟩

/-- A slot without a draw whose set is empty is refused. -/
theorem resolveSlotVariant_refuses
    (absent : drawOf db invite slot email = none)
    (empty : db.variantsOf setId = []) :
    ∃ refusal, resolveSlotVariant db invite slot setId email =
      (db, .error refusal) := by
  unfold resolveSlotVariant
  rw [absent, empty]
  exact ⟨_, rfl⟩

/-! ## The loop over the slots -/

theorem slotQuestions_resolves (safely : DrawsSafely db invite)
    (isSlots : ∀ slot ∈ slots, slot ∈ db.slots)
    (drawable : ∀ slot ∈ slots, Drawable db invite email slot) :
    ∃ questions, (slotQuestions invite email slots db).2 = .ok questions := by
  induction slots generalizing db with
  | nil => exact ⟨[], rfl⟩
  | cons slot rest inductionHypothesis =>
      have isRest : ∀ other ∈ rest, other ∈ db.slots :=
        fun other member => isSlots other (List.mem_cons_of_mem _ member)
      have restDrawable : ∀ other ∈ rest, Drawable db invite email other :=
        fun other member => drawable other (List.mem_cons_of_mem _ member)
      unfold slotQuestions
      split
      · next setId isSet =>
        have outcome := resolveSlotVariant_outcome db invite slot setId email
        obtain ⟨question, resolved⟩ := resolveSlotVariant_resolves safely
          (isSlots slot List.mem_cons_self) isSet
          (drawable slot List.mem_cons_self)
        have stillSlots : ∀ other ∈ rest, other ∈
            (resolveSlotVariant db invite slot setId email).1.slots := by
          rw [outcome.drawsOnly.rest]
          exact isRest
        obtain ⟨questions, others⟩ := inductionHypothesis
          (outcome.drawsSafely safely) stillSlots
          fun other member =>
            (restDrawable other member).mono outcome.drawsOnly
        simp only [Handled.andThen, resolved, others]
        exact ⟨_, rfl⟩
      · obtain ⟨questions, others⟩ :=
          inductionHypothesis safely isRest restDrawable
        simp only [Handled.andThen, others]
        exact ⟨_, rfl⟩

/-- A draw for another slot is not the one of this slot. -/
theorem drawOf_addDraw_of_ne {other : AssessmentQuestion} {chosen : Question}
    (apart : other.id ≠ slot.id)
    (absent : drawOf db invite slot email = none) :
    drawOf (addDraw db (newDraw db invite email other chosen)) invite slot
      email = none := by
  unfold drawOf at absent ⊢
  simp [addDraw, newDraw, List.find?_append, absent, apart]

theorem slotQuestions_refuses
    (keyed : ∀ other ∈ slots, other.id = slot.id → other = slot)
    (member : slot ∈ slots) (isSet : slot.variantSetId = some setId)
    (absent : drawOf db invite slot email = none)
    (empty : db.variantsOf setId = []) :
    ∃ refusal, (slotQuestions invite email slots db).2 = .error refusal := by
  induction slots generalizing db with
  | nil => cases member
  | cons first rest inductionHypothesis =>
      have keyedRest : ∀ other ∈ rest, other.id = slot.id → other = slot :=
        fun other isOther => keyed other (List.mem_cons_of_mem _ isOther)
      unfold slotQuestions
      by_cases here : first = slot
      · subst here
        obtain ⟨refusal, refused⟩ := resolveSlotVariant_refuses absent empty
        simp only [isSet, refused]
        exact ⟨refusal, rfl⟩
      have later : slot ∈ rest :=
        (List.mem_cons.mp member).resolve_left (Ne.symm here)
      have apart : first.id ≠ slot.id :=
        fun same => here (keyed first List.mem_cons_self same)
      split
      · next otherSet isOther =>
        have outcome :=
          resolveSlotVariant_outcome db invite first otherSet email
        revert outcome
        generalize resolveSlotVariant db invite first otherSet email = handled
        intro outcome
        cases outcome with
        | frozen =>
            obtain ⟨refusal, refused⟩ :=
              inductionHypothesis keyedRest later absent empty
            simp only [Handled.andThen, refused]
            exact ⟨refusal, rfl⟩
        | @drawn chosen =>
            have stillAbsent : drawOf
                (addDraw db (newDraw db invite email first chosen)) invite slot
                email = none :=
              drawOf_addDraw_of_ne apart absent
            obtain ⟨refusal, refused⟩ :=
              inductionHypothesis keyedRest later stillAbsent empty
            simp only [Handled.andThen, refused]
            exact ⟨refusal, rfl⟩
        | refused refusal => exact ⟨refusal, rfl⟩
      · obtain ⟨refusal, refused⟩ :=
          inductionHypothesis keyedRest later absent empty
        simp only [Handled.andThen, refused]
        exact ⟨refusal, rfl⟩

/-! ## The questions of an invite -/

/-- Every slot of the assessment behind an invite can be resolved. -/
def AllDrawable (db : Database) (invite : Invite) (email : String) : Prop :=
  ∀ assessmentId, invite.assessmentId = some assessmentId →
    ∀ slot ∈ db.slotsOf assessmentId, Drawable db invite email slot

theorem presents_of_slotOne (constraints : db.Constraints)
    (isSlot : slot ∈ db.slots)
    (one : slot.questionId.isSome = slot.variantSetId.isNone) :
    presents db slot = true := by
  unfold presents
  cases isSet : slot.variantSetId with
  | some setId => rfl
  | none =>
      rw [isSet, Option.isNone_none] at one
      obtain ⟨id, isId⟩ := Option.isSome_iff_exists.mp one
      obtain ⟨question, isQuestion, same⟩ :=
        constraints.foreignKeys.slotQuestion slot isSlot id isId
      have fetched : fetch Question.id id db.questions = some question :=
        constraints.uniqueKeys.question.fetch_eq isQuestion same
      simp [isId, fetched]

/-- Where every slot can be resolved, the invite presents its questions. -/
theorem inviteQuestions_resolves (sound : Sound db) (slotted : Slotted db)
    (isInvite : invite ∈ db.invites)
    (drawable : AllDrawable db invite email) :
    ∃ questions, (inviteQuestions invite email db).2 = .ok questions := by
  have constraints := sound.constraints
  have one := sound.tenancy.inviteOne invite isInvite
  unfold inviteQuestions
  cases isAssessment : invite.assessmentId with
  | none =>
      rw [isAssessment, Option.isNone_none] at one
      obtain ⟨id, isId⟩ := Option.isSome_iff_exists.mp one
      obtain ⟨question, isQuestion, same⟩ :=
        constraints.foreignKeys.inviteQuestion invite isInvite id isId
      have fetched : fetch Question.id id db.questions = some question :=
        constraints.uniqueKeys.question.fetch_eq isQuestion same
      simp only [isId, Option.bind_some, fetched]
      exact ⟨_, rfl⟩
  | some assessmentId =>
      obtain ⟨assessment, isMember, rfl⟩ :=
        constraints.foreignKeys.inviteAssessment invite isInvite assessmentId
          isAssessment
      have fetched : fetch Assessment.id assessment.id db.assessments =
          some assessment :=
        constraints.uniqueKeys.assessment.fetch_eq isMember rfl
      obtain ⟨questions, resolved⟩ := slotQuestions_resolves
        ⟨constraints, sound.ids.slotVariant, isInvite⟩
        (fun slot member => (mem_slotsOf.mp member).1)
        (drawable assessment.id isAssessment)
      have paired := slotQuestions_resolved resolved
      obtain ⟨slot, isSlot, isOf⟩ := slotted assessment isMember
      have present := presents_of_slotOne constraints isSlot
        (sound.tenancy.slotOne slot isSlot)
      have nonempty : questions ≠ [] := by
        intro isEmpty
        rw [isEmpty] at paired
        have nothing := List.forall₂_nil_right_iff.mp paired
        have member : slot ∈ (db.slotsOf assessment.id).filter (presents db) :=
          List.mem_filter.mpr ⟨mem_slotsOf.mpr ⟨isSlot, isOf⟩, present⟩
        rw [nothing] at member
        cases member
      simp only [fetched, Option.isNone_some, Bool.false_eq_true, if_false,
        Handled.andThen, resolved, nonempty]
      exact ⟨_, rfl⟩

theorem inviteQuestions_refuses {assessmentId : String}
    (keyedSlots : Keyed AssessmentQuestion.id db.slots)
    (isAssessment : invite.assessmentId = some assessmentId)
    (member : slot ∈ db.slotsOf assessmentId)
    (isSet : slot.variantSetId = some setId)
    (absent : drawOf db invite slot email = none)
    (empty : db.variantsOf setId = []) :
    ∃ refusal, (inviteQuestions invite email db).2 = .error refusal := by
  have keyed : ∀ other ∈ db.slotsOf assessmentId,
      other.id = slot.id → other = slot := by
    intro other isOther same
    exact keyedSlots.eq (mem_slotsOf.mp isOther).1 (mem_slotsOf.mp member).1
      same
  obtain ⟨refusal, refused⟩ :=
    slotQuestions_refuses keyed member isSet absent empty
  unfold inviteQuestions
  simp only [isAssessment]
  split
  · exact ⟨_, rfl⟩
  · simp only [Handled.andThen, refused]
    exact ⟨refusal, rfl⟩

/-- An invite with a slot that cannot be resolved presents nothing. -/
theorem inviteQuestions_stuck
    (keyedSlots : Keyed AssessmentQuestion.id db.slots)
    (stuck : ¬AllDrawable db invite email) :
    ∃ refusal, (inviteQuestions invite email db).2 = .error refusal := by
  simp only [AllDrawable, Drawable, not_forall, not_or,
    Option.not_isSome_iff_eq_none, not_not] at stuck
  obtain ⟨assessmentId, isAssessment, slot, isSlot, setId, isSet, absent,
    empty⟩ := stuck
  exact inviteQuestions_refuses keyedSlots isAssessment isSlot isSet absent
    empty

/-! ## What a request begins -/

/-- The clocks of the sittings of a database. -/
def Database.clocks (db : Database) :
    List (Nat × Nat × Time × Option Time × Option String) :=
  db.attempts.map fun row => (row.id, row.clock)

/-- Between two states no sitting was created, no clock was started or moved,
and no organisation's counter of sittings changed. -/
structure BeginsNothing (db after : Database) : Prop where
  clocks : after.clocks = db.clocks
  sittings : ∀ orgId period, (after.ledger.row orgId period).sittings =
    (db.ledger.row orgId period).sittings

theorem BeginsNothing.refl (db : Database) : BeginsNothing db db :=
  ⟨rfl, fun _ _ => rfl⟩

theorem BeginsNothing.trans {middle : Database}
    (first : BeginsNothing db middle) (rest : BeginsNothing middle after) :
    BeginsNothing db after where
  clocks := rest.clocks.trans first.clocks
  sittings orgId period :=
    (rest.sittings orgId period).trans (first.sittings orgId period)

theorem BeginsNothing.symm (nothing : BeginsNothing db after) :
    BeginsNothing after db where
  clocks := nothing.clocks.symm
  sittings orgId period := (nothing.sittings orgId period).symm

section Claim

open Interleaving Interleaving.Program

end Claim

/-! ## Refusals -/

section Refusals

variable {Value Next : Type} {before middle : Database}

end Refusals

theorem Commits.slotted (commits : Commits deployment served scope db after)
    (sound : Sound db) (slotted : Slotted db) :
    Sound after ∧ Slotted after :=
  (commits.transactions.keeps (fun state => Sound state ∧ Slotted state)
    sound.constraints
    (fun change constraints next held =>
      ⟨change.sound held.1 next, change.slotted constraints held.2⟩)
    ⟨sound, slotted⟩).2

section Start

variable {token : String} {body : CandidateStartIn}

end Start

/-! ## `/submit` -/

section Submit

open Interleaving Interleaving.Program

variable {request : CandidateSubmit}

end Submit

/-! ## Refused requests of a run -/

namespace Scenario

/-- A variant of a set. -/
def variantTitled (title : String) : VariantCreate :=
  ⟨⟨title, none, testCases⟩, none⟩

/-- The variant set `s` with the variants `u-bx` and `v-bxx`. -/
def createsSet : Asked :=
  asks 0 'b' (.createVariantSet
    ⟨some "s", "s", [variantTitled "u", variantTitled "v"], by decide⟩)

/-- The assessment `ab` with the set as its only slot. -/
def createsSetAssessment : Asked :=
  asks 0 'd' (.createAssessment
    { assessmentIn with
      slots := [⟨none, some "s", by decide⟩]
      slots_nonempty := by decide })

/-- Both variants are deleted after the candidate was invited. -/
def emptied : List Asked :=
  [registers, createsSet, createsSetAssessment, invites,
    asks 1 'h' (.deleteQuestion "u-bx"), asks 1 'i' (.deleteQuestion "v-bxx")]

end Scenario

end AssessmentPlatform
