import AssessmentPlatform.Records.Candidates

/-!
# Which questions a sitting presents

The loop of `_invite_questions` may freeze a draw for each slot it meets.  What
it answers is what the committed draws say afterwards, and nothing else has
changed.
-/

namespace AssessmentPlatform

open Rows

variable {deployment : Deployment} {db middle after : Database}
variable {invite : Invite} {email setId : String}
variable {slot : AssessmentQuestion} {slots : List AssessmentQuestion}
variable {question : Question} {questions : List Question}

/-! ## Draws -/

/-- Nothing but draws of variants lies between two states. -/
structure DrawsOnly (db after : Database) : Prop where
  rest : after =
    { db with slotVariants := after.slotVariants, nextId := after.nextId }
  drawn : db.slotVariants <+: after.slotVariants

theorem DrawsOnly.refl (db : Database) : DrawsOnly db db :=
  ⟨rfl, List.prefix_refl _⟩

theorem DrawsOnly.trans (first : DrawsOnly db middle)
    (second : DrawsOnly middle after) : DrawsOnly db after := by
  refine ⟨?_, first.drawn.trans second.drawn⟩
  have rest := second.rest
  rw [first.rest] at rest
  exact rest

/-- The draw of a candidate for a slot with an identifier. -/
def newDraw (db : Database) (invite : Invite) (email : String)
    (slot : AssessmentQuestion) (chosen : Question) : CandidateSlotVariant :=
  ⟨db.nextId, invite.id, email, slot.id, chosen.id⟩

/-- The state after a draw. -/
def addDraw (db : Database) (draw : CandidateSlotVariant) : Database :=
  { db with
    slotVariants := db.slotVariants ++ [draw]
    nextId := db.nextId + 1 }

theorem drawsOnly_addDraw (db : Database) (draw : CandidateSlotVariant) :
    DrawsOnly db (addDraw db draw) :=
  ⟨rfl, List.prefix_append _ _⟩

/-- Whether a draw is the one of a candidate for a slot. -/
theorem drawOf_eq_some {row : CandidateSlotVariant}
    (found : drawOf db invite slot email = some row) :
    row ∈ db.slotVariants ∧ row.inviteId = invite.id ∧
      row.candidateEmail = email ∧ row.assessmentQuestionId = slot.id := by
  have matched := List.find?_some found
  simp only [Bool.and_eq_true, beq_iff_eq] at matched
  exact ⟨List.mem_of_find?_eq_some found, matched.1.1, matched.1.2, matched.2⟩

/-- A frozen draw stays the one that is found. -/
theorem DrawsOnly.drawOf (draws : DrawsOnly db after)
    {row : CandidateSlotVariant}
    (found : drawOf db invite slot email = some row) :
    AssessmentPlatform.drawOf after invite slot email = some row := by
  obtain ⟨added, same⟩ := draws.drawn
  unfold AssessmentPlatform.drawOf at found ⊢
  rw [← same, List.find?_append, found, Option.some_or]

/-- The unique key makes a draw that was admitted the one that is found. -/
theorem drawOf_addDraw {chosen : Question}
    (constraints :
      (addDraw db (newDraw db invite email slot chosen)).Constraints) :
    drawOf (addDraw db (newDraw db invite email slot chosen)) invite slot
      email = some (newDraw db invite email slot chosen) := by
  have keyed := constraints.uniqueKeys.slotVariantCandidate
  have nothing : drawOf db invite slot email = none := by
    cases found : drawOf db invite slot email with
    | none => rfl
    | some row =>
        obtain ⟨member, isInvite, isEmail, isSlot⟩ := drawOf_eq_some found
        simp only [Keyed, addDraw, List.map_append, List.map_cons,
          List.map_nil] at keyed
        have apart := (List.nodup_append'.mp keyed).2.2
          (List.mem_map_of_mem member)
        simp [newDraw, isInvite, isEmail, isSlot] at apart
  unfold drawOf at nothing ⊢
  simp [addDraw, List.find?_append, nothing, newDraw]

/-! ## Resolved slots -/

/-- A slot presents a question to a candidate: its own, or the frozen draw. -/
structure Resolved (db : Database) (invite : Invite) (email : String)
    (slot : AssessmentQuestion) (question : Question) : Prop where
  member : question ∈ db.questions
  presented :
    (slot.variantSetId = none ∧ slot.questionId = some question.id) ∨
      (slot.variantSetId.isSome ∧ ∃ row,
        drawOf db invite slot email = some row ∧ row.questionId = question.id)

theorem Resolved.mono (draws : DrawsOnly db after)
    (resolved : Resolved db invite email slot question) :
    Resolved after invite email slot question := by
  constructor
  · rw [draws.rest]
    exact resolved.member
  · rcases resolved.presented with fixed | ⟨isSet, row, found, same⟩
    · exact Or.inl fixed
    · exact Or.inr ⟨isSet, row, draws.drawOf found, same⟩

theorem Resolved.slotQuestion
    (resolved : Resolved db invite email slot question) :
    db.slotQuestion invite.id email slot = question.id := by
  unfold Database.slotQuestion
  rcases resolved.presented with ⟨isFixed, same⟩ | ⟨isSet, row, found, same⟩
  · rw [isFixed, same, Option.getD_some]
  · obtain ⟨setId, isSet⟩ := Option.isSome_iff_exists.mp isSet
    unfold drawOf at found
    rw [isSet]
    simp [found, same]

/-- What one call of `_resolve_slot_variant` can do. -/
inductive SlotOutcome (db : Database) (invite : Invite) (email : String)
    (slot : AssessmentQuestion) (setId : String) : Handled Question → Prop where
  | frozen {row : CandidateSlotVariant} {question : Question} :
      drawOf db invite slot email = some row →
      fetch Question.id row.questionId db.questions = some question →
      SlotOutcome db invite email slot setId (db, .ok question)
  | drawn {chosen : Question} :
      chosen ∈ db.questions → chosen.variantSetId = some setId →
      (addDraw db (newDraw db invite email slot chosen)).Constraints →
      SlotOutcome db invite email slot setId
        (addDraw db (newDraw db invite email slot chosen), .ok chosen)
  | refused (refusal : HTTPException) :
      SlotOutcome db invite email slot setId (db, .error refusal)

theorem mem_variantsOf :
    question ∈ db.variantsOf setId ↔
      question ∈ db.questions ∧ question.variantSetId = some setId := by
  simp [Database.variantsOf, List.mem_insertionSort]

theorem resolveSlotVariant_outcome (db : Database) (invite : Invite)
    (slot : AssessmentQuestion) (setId email : String) :
    SlotOutcome db invite email slot setId
      (resolveSlotVariant db invite slot setId email) := by
  unfold resolveSlotVariant
  dsimp only
  split
  · next question frozen =>
    obtain ⟨row, found, fetched⟩ := Option.bind_eq_some_iff.mp frozen
    exact .frozen found fetched
  · split
    · exact .refused _
    · next chosen isChosen =>
      obtain ⟨member, isSet⟩ :=
        mem_variantsOf.mp (List.mem_of_getElem? isChosen)
      split
      · next constraints => exact .drawn member isSet constraints
      · exact .refused _

theorem SlotOutcome.drawsOnly {handled : Handled Question}
    (outcome : SlotOutcome db invite email slot setId handled) :
    DrawsOnly db handled.1 := by
  cases outcome with
  | frozen => exact .refl db
  | drawn => exact drawsOnly_addDraw db _
  | refused => exact .refl db

theorem SlotOutcome.resolved {handled : Handled Question}
    (outcome : SlotOutcome db invite email slot setId handled)
    (isSet : slot.variantSetId = some setId)
    (answered : handled.2 = .ok question) :
    Resolved handled.1 invite email slot question := by
  cases outcome with
  | frozen found fetched =>
      obtain rfl := Except.ok.inj answered
      refine ⟨mem_of_fetch fetched, Or.inr ⟨by simp [isSet], _, found, ?_⟩⟩
      exact (key_of_fetch fetched).symm
  | drawn member _ constraints =>
      obtain rfl := Except.ok.inj answered
      exact ⟨member, Or.inr
        ⟨by simp [isSet], _, drawOf_addDraw constraints, rfl⟩⟩
  | refused => cases answered

/-! ## The loop over the slots -/

/-- The slots that present a question at all: a fixed one may be gone. -/
def presents (db : Database) (slot : AssessmentQuestion) : Bool :=
  slot.variantSetId.isSome ||
    (slot.questionId.bind fun id => fetch Question.id id db.questions).isSome

theorem slotQuestions_drawsOnly (slots : List AssessmentQuestion)
    (db : Database) : DrawsOnly db (slotQuestions invite email slots db).1 := by
  induction slots generalizing db with
  | nil => exact .refl db
  | cons slot rest inductionHypothesis =>
      unfold slotQuestions
      split
      · next setId isSet =>
        have outcome := resolveSlotVariant_outcome db invite slot setId email
        apply Handled.andThen_keeps outcome.drawsOnly
        intro question _
        have draws := outcome.drawsOnly.trans (inductionHypothesis _)
        exact Handled.andThen_keeps draws fun _ _ => draws
      · apply Handled.andThen_keeps (inductionHypothesis db)
        intro _ _
        exact inductionHypothesis db

theorem Handled.andThen_eq_ok {Value Next : Type} {first : Handled Value}
    {next : Value → Database → Handled Next} {result : Next}
    (answered : (first.andThen next).2 = .ok result) :
    ∃ value, first.2 = .ok value ∧
      first.andThen next = next value first.1 := by
  unfold Handled.andThen at answered ⊢
  cases passed : first.2 with
  | error refused => simp [passed] at answered
  | ok value => exact ⟨value, rfl, rfl⟩

theorem slotQuestions_resolved
    (answered : (slotQuestions invite email slots db).2 = .ok questions) :
    List.Forall₂ (Resolved (slotQuestions invite email slots db).1 invite email)
      (slots.filter (presents db)) questions := by
  induction slots generalizing db questions with
  | nil =>
      obtain rfl := Except.ok.inj answered
      exact .nil
  | cons slot rest inductionHypothesis =>
      unfold slotQuestions at answered ⊢
      split at answered
      · next setId isSet =>
        obtain ⟨question, resolved, same⟩ := Handled.andThen_eq_ok answered
        rw [same] at answered ⊢
        obtain ⟨others, rest', same'⟩ := Handled.andThen_eq_ok answered
        rw [same'] at answered ⊢
        obtain rfl := Except.ok.inj answered
        have outcome := resolveSlotVariant_outcome db invite slot setId email
        have present : presents db slot = true := by simp [presents, isSet]
        have stable : presents db =
            presents (resolveSlotVariant db invite slot setId email).1 := by
          funext other
          unfold presents
          rw [outcome.drawsOnly.rest]
        rw [List.filter_cons_of_pos present, stable]
        refine .cons ?_ (inductionHypothesis rest')
        exact (outcome.resolved isSet resolved).mono
          (slotQuestions_drawsOnly rest _)
      · next isFixed =>
        dsimp only
        obtain ⟨others, rest', same⟩ := Handled.andThen_eq_ok answered
        rw [same] at answered ⊢
        obtain rfl := Except.ok.inj answered
        cases fixed : slot.questionId.bind fun id =>
            fetch Question.id id db.questions with
        | none =>
            have absent : presents db slot = false := by
              simp [presents, isFixed, fixed]
            rw [List.filter_cons_of_neg (by simp [absent])]
            exact inductionHypothesis rest'
        | some question =>
            have present : presents db slot = true := by
              simp [presents, fixed]
            obtain ⟨id, isId, fetched⟩ := Option.bind_eq_some_iff.mp fixed
            rw [List.filter_cons_of_pos present]
            refine .cons ?_ (inductionHypothesis rest')
            have resolved : Resolved db invite email slot question := by
              refine ⟨mem_of_fetch fetched, Or.inl ⟨isFixed, ?_⟩⟩
              rw [isId, key_of_fetch fetched]
            exact resolved.mono (slotQuestions_drawsOnly rest db)

/-! ## The questions of an invite -/

theorem inviteQuestions_drawsOnly (invite : Invite) (email : String)
    (db : Database) : DrawsOnly db (inviteQuestions invite email db).1 := by
  unfold inviteQuestions
  split
  · next assessmentId _ =>
    split
    · exact .refl db
    · have draws : DrawsOnly db
          (slotQuestions invite email (db.slotsOf assessmentId) db).1 :=
        slotQuestions_drawsOnly _ db
      apply Handled.andThen_keeps draws
      intro questions _
      split <;> exact draws
  · split <;> exact .refl db

/-- What an assessment invite presents, slot by slot. -/
theorem inviteQuestions_resolved {assessmentId : String}
    (isAssessment : invite.assessmentId = some assessmentId)
    (answered : (inviteQuestions invite email db).2 = .ok questions) :
    List.Forall₂ (Resolved (inviteQuestions invite email db).1 invite email)
      ((db.slotsOf assessmentId).filter (presents db)) questions := by
  unfold inviteQuestions at answered ⊢
  simp only [isAssessment] at answered ⊢
  split at answered
  · cases answered
  · next found =>
    rw [if_neg found]
    obtain ⟨all, resolved, same⟩ := Handled.andThen_eq_ok answered
    rw [same] at answered ⊢
    split at answered
    · cases answered
    · next nonempty =>
      rw [if_neg nonempty]
      obtain rfl := Except.ok.inj answered
      exact slotQuestions_resolved resolved

/-- Whatever stands on the right of paired lists has a partner on the left. -/
theorem exists_left_of_forall₂ {Left Right : Type}
    {related : Left → Right → Prop} {lefts : List Left} {rights : List Right}
    {right : Right} (paired : List.Forall₂ related lefts rights)
    (member : right ∈ rights) : ∃ left ∈ lefts, related left right := by
  induction paired with
  | nil => cases member
  | cons here _ inductionHypothesis =>
      rcases List.mem_cons.mp member with rfl | later
      · exact ⟨_, List.mem_cons_self, here⟩
      · obtain ⟨left, isLeft, there⟩ := inductionHypothesis later
        exact ⟨left, List.mem_cons_of_mem _ isLeft, there⟩

/-- The questions that are answered are those that the invite presents. -/
theorem mem_inviteQuestions
    (answered : (inviteQuestions invite email db).2 = .ok questions)
    (member : question ∈ questions) :
    question ∈ (inviteQuestions invite email db).1.questions ∧
      question.id ∈
        ((inviteQuestions invite email db).1.platform
          deployment).inviteQuestions invite email := by
  cases isAssessment : invite.assessmentId with
  | none =>
      unfold inviteQuestions at answered ⊢
      simp only [isAssessment] at answered ⊢
      cases fixed : invite.questionId.bind fun id =>
          fetch Question.id id db.questions with
      | none => simp [fixed] at answered
      | some found =>
          simp only [fixed, Except.ok.injEq] at answered
          obtain rfl : question = found := by simpa [← answered] using member
          obtain ⟨id, isId, fetched⟩ := Option.bind_eq_some_iff.mp fixed
          obtain rfl := key_of_fetch fetched
          refine ⟨mem_of_fetch fetched, ?_⟩
          simp [Platform.inviteQuestions, isAssessment, isId]
  | some assessmentId =>
      have resolved := inviteQuestions_resolved isAssessment answered
      obtain ⟨slot, isSlot, here⟩ :=
        exists_left_of_forall₂ resolved member
      refine ⟨here.member, ?_⟩
      simp only [Platform.inviteQuestions, isAssessment, List.mem_map]
      refine ⟨slot, ?_, here.slotQuestion⟩
      rw [(inviteQuestions_drawsOnly invite email db).rest]
      exact List.mem_of_mem_filter isSlot

end AssessmentPlatform
