import AssessmentPlatform.Records.Privacy
import AssessmentPlatform.Records.Resolution
import AssessmentPlatform.Records.Roster
import AssessmentPlatform.Rotation

/-!
# The draws for a slot

Every draw for a slot takes the next variant of the slot's set, counted over the
invites of the assessment, and an erasure renames a draw without giving its turn
back.  So the draws are the rotation of the set, in the order they were made.
-/

namespace AssessmentPlatform

open Rows Rotation

variable {slot other : AssessmentQuestion} {setId email : String}
variable {db after start later : Database} {invite : Invite}

/-! ## What happens to the draws -/

/-- The draws for a slot, over all invites. -/
def Database.drawsFor (db : Database) (slot : AssessmentQuestion) :
    List CandidateSlotVariant :=
  db.slotVariants.filter fun row => row.assessmentQuestionId == slot.id

/-- The identifiers of the variants of a set, in the order they are read. -/
def Database.variantIds (db : Database) (setId : String) : List String :=
  (db.variantsOf setId).map Question.id

/-- A slot of an assessment is resolved for an address, another slot is, or a
candidate is erased, throughout an organisation or on one invite. -/
inductive DrawStep (slot : AssessmentQuestion) (setId : String) :
    Database → Database → Prop where
  | resolved {db : Database} (invite : Invite) (email : String) :
      invite ∈ db.invites → invite.assessmentId = some slot.assessmentId →
      DrawStep slot setId db (resolveSlotVariant db invite slot setId email).1
  | elsewhere {db : Database} (invite : Invite) (other : AssessmentQuestion)
      (otherSet email : String) :
      other.id ≠ slot.id →
      DrawStep slot setId db
        (resolveSlotVariant db invite other otherSet email).1
  | candidateErased {db after : Database} (orgId : Nat) (email : String)
      (now : Time) (pseudonym : String) :
      db.eraseCandidate orgId email now pseudonym = .ok after →
      DrawStep slot setId db after
  | sittingErased {db after : Database} (inviteId : Nat) (email : String)
      (now : Time) (pseudonym : String) :
      db.eraseSitting inviteId email now pseudonym = .ok after →
      DrawStep slot setId db after

/-! ## One resolution -/

/-- What one call of `_resolve_slot_variant` does: it finds the frozen draw,
draws the variant whose turn it is, or refuses. -/
inductive SlotTurn (db : Database) (invite : Invite) (email : String)
    (slot : AssessmentQuestion) (setId : String) : Handled Question → Prop where
  | frozen {row : CandidateSlotVariant} {question : Question} :
      drawOf db invite slot email = some row →
      fetch Question.id row.questionId db.questions = some question →
      SlotTurn db invite email slot setId (db, .ok question)
  | drawn {chosen : Question} :
      itemAt (db.variantsOf setId) (db.drawsFor slot).length = some chosen →
      (addDraw db (newDraw db invite email slot chosen)).Constraints →
      SlotTurn db invite email slot setId
        (addDraw db (newDraw db invite email slot chosen), .ok chosen)
  | refused (refusal : HTTPException) :
      SlotTurn db invite email slot setId (db, .error refusal)

theorem resolveSlotVariant_turn (db : Database) (invite : Invite)
    (slot : AssessmentQuestion) (setId email : String) :
    SlotTurn db invite email slot setId
      (resolveSlotVariant db invite slot setId email) := by
  unfold resolveSlotVariant
  dsimp only
  split
  · next question frozen =>
    obtain ⟨row, found, fetched⟩ := Option.bind_eq_some_iff.mp frozen
    exact .frozen found fetched
  · split
    · exact .refused _
    · next chosen isChosen =>
      split
      · next constraints => exact .drawn isChosen constraints
      · exact .refused _

/-- A frozen draw answers every later call, and nothing is drawn again. -/
theorem resolveSlotVariant_frozen {row : CandidateSlotVariant}
    {question : Question} (found : drawOf db invite slot email = some row)
    (fetched : fetch Question.id row.questionId db.questions = some question) :
    resolveSlotVariant db invite slot setId email = (db, .ok question) := by
  unfold resolveSlotVariant
  simp [found, fetched]

/-! ## The invariant -/

/-- The draws for the slot are the rotation of its set so far. -/
structure Dealt (slot : AssessmentQuestion) (setId : String) (db : Database) :
    Prop where
  constraints : db.Constraints
  dealt :
    (db.drawsFor slot).map CandidateSlotVariant.questionId =
      deal (db.variantIds setId) 0 (db.drawsFor slot).length

/-- What a step leaves: the questions, and the draws but for their addresses. -/
structure DrawsKept (slot : AssessmentQuestion) (db after : Database) :
    Prop where
  questions : after.questions = db.questions
  rows :
    ∀ row ∈ db.drawsFor slot, ∃ kept ∈ after.drawsFor slot,
      kept = { row with candidateEmail := kept.candidateEmail }

theorem DrawsKept.refl (db : Database) : DrawsKept slot db db :=
  ⟨rfl, fun row member => ⟨row, member, rfl⟩⟩

theorem DrawsKept.trans (first : DrawsKept slot db after)
    (second : DrawsKept slot after later) : DrawsKept slot db later := by
  refine ⟨second.questions.trans first.questions, fun row member => ?_⟩
  obtain ⟨kept, isKept, same⟩ := first.rows row member
  obtain ⟨last, isLast, sameLast⟩ := second.rows kept isKept
  refine ⟨last, isLast, ?_⟩
  rw [sameLast, same]

theorem itemAt_map {Item Other : Type} {items : List Item} {turn : Nat}
    {item : Item} (f : Item → Other) (isItem : itemAt items turn = some item) :
    itemAt (items.map f) turn = some (f item) := by
  unfold itemAt at isItem ⊢
  rw [List.length_map, List.getElem?_map, isItem]
  rfl

/-- A draw for the slot is the next of the rotation. -/
theorem Dealt.resolved (dealt : Dealt slot setId db) (invite : Invite)
    (email : String) :
    Dealt slot setId (resolveSlotVariant db invite slot setId email).1 ∧
      DrawsKept slot db (resolveSlotVariant db invite slot setId email).1 := by
  have turn := resolveSlotVariant_turn db invite slot setId email
  generalize resolveSlotVariant db invite slot setId email = handled at turn ⊢
  cases turn with
  | frozen => exact ⟨dealt, .refl db⟩
  | refused => exact ⟨dealt, .refl db⟩
  | @drawn chosen isTurn constraints =>
      have draws :
          (addDraw db (newDraw db invite email slot chosen)).drawsFor slot =
            db.drawsFor slot ++ [newDraw db invite email slot chosen] := by
        simp [Database.drawsFor, addDraw, newDraw]
      have next :
          itemAt (db.variantIds setId) (0 + (db.drawsFor slot).length) =
            some chosen.id := by
        rw [Nat.zero_add]
        exact itemAt_map Question.id isTurn
      refine ⟨⟨constraints, ?_⟩, rfl, ?_⟩
      · rw [draws, List.map_append, List.length_append, dealt.dealt,
          List.length_singleton]
        exact (deal_succ next).symm
      · intro row member
        refine ⟨row, ?_, rfl⟩
        rw [draws]
        exact List.mem_append_left _ member

/-- A draw for another slot is none for this one. -/
theorem Dealt.elsewhere (dealt : Dealt slot setId db) (invite : Invite)
    {otherSet : String} (email : String) (different : other.id ≠ slot.id) :
    Dealt slot setId (resolveSlotVariant db invite other otherSet email).1 ∧
      DrawsKept slot db
        (resolveSlotVariant db invite other otherSet email).1 := by
  have turn := resolveSlotVariant_turn db invite other otherSet email
  generalize resolveSlotVariant db invite other otherSet email = handled
    at turn ⊢
  cases turn with
  | frozen => exact ⟨dealt, .refl db⟩
  | refused => exact ⟨dealt, .refl db⟩
  | @drawn chosen _ constraints =>
      have draws :
          (addDraw db (newDraw db invite email other chosen)).drawsFor slot =
            db.drawsFor slot := by
        apply filter_append_of_forall
        intro row member
        obtain rfl := List.mem_singleton.mp member
        simpa [newDraw] using different
      refine ⟨⟨constraints, ?_⟩, rfl, ?_⟩
      · rw [draws]
        exact dealt.dealt
      · intro row member
        exact ⟨row, draws ▸ member, rfl⟩

/-- An erasure renames draws. -/
theorem Dealt.erased {now : Time} {pseudonym : String} {inviteIds : List Nat}
    {submissionIds : List String} (dealt : Dealt slot setId db)
    (executed : (erase now pseudonym email inviteIds submissionIds db).execute =
      .ok after) :
    Dealt slot setId after ∧ DrawsKept slot db after := by
  obtain ⟨constraints, rfl⟩ := Database.execute_eq_ok.mp executed
  have draws :
      (erase now pseudonym email inviteIds submissionIds db).drawsFor slot =
        updateWhere
          (fun row => inviteIds.contains row.inviteId &&
            row.candidateEmail == email)
          (fun row => { row with candidateEmail := pseudonym })
          (db.drawsFor slot) :=
    filter_updateWhere_comm fun _ _ _ => rfl
  have sameQuestions :
      ((erase now pseudonym email inviteIds submissionIds db).drawsFor slot).map
          CandidateSlotVariant.questionId =
        (db.drawsFor slot).map CandidateSlotVariant.questionId := by
    rw [draws]
    exact map_updateWhere fun _ => rfl
  have sameLength := congrArg List.length sameQuestions
  rw [List.length_map, List.length_map] at sameLength
  refine ⟨⟨constraints, ?_⟩, rfl, ?_⟩
  · rw [sameQuestions, sameLength]
    exact dealt.dealt
  · intro row member
    rw [draws]
    by_cases isErased : inviteIds.contains row.inviteId &&
        row.candidateEmail == email
    · exact ⟨{ row with candidateEmail := pseudonym },
        mem_updateWhere.mpr (Or.inl ⟨row, member, isErased, rfl⟩), rfl⟩
    · exact ⟨row, mem_updateWhere.mpr (Or.inr ⟨member, isErased⟩), rfl⟩

theorem Dealt.step (dealt : Dealt slot setId db)
    (step : DrawStep slot setId db after) :
    Dealt slot setId after ∧ DrawsKept slot db after := by
  cases step with
  | resolved invite email => exact dealt.resolved invite email
  | elsewhere invite other otherSet email different =>
      exact dealt.elsewhere invite email different
  | candidateErased orgId email now pseudonym erased =>
      exact dealt.erased erased
  | sittingErased inviteId email now pseudonym erased =>
      exact dealt.erased erased

theorem Dealt.run (dealt : Dealt slot setId db)
    (reached : Relation.ReflTransGen (DrawStep slot setId) db later) :
    Dealt slot setId later ∧ DrawsKept slot db later := by
  induction reached with
  | refl => exact ⟨dealt, .refl db⟩
  | tail _ step inductionHypothesis =>
      obtain ⟨here, kept⟩ := inductionHypothesis
      obtain ⟨afterwards, keptAfter⟩ := here.step step
      exact ⟨afterwards, kept.trans keptAfter⟩

/-! ## Frozen and balanced -/

theorem variantIds_nodup (constraints : db.Constraints) :
    (db.variantIds setId).Nodup := by
  have keyed : (db.questions.map Question.id).Nodup :=
    constraints.uniqueKeys.question
  have selected :
      ((db.questions.filter fun question =>
        question.variantSetId == some setId).map Question.id).Nodup :=
    keyed.sublist (List.filter_sublist.map _)
  exact ((List.perm_insertionSort _ _).map Question.id).nodup_iff.mpr selected

/-- A draw for the slot is one of the set's variants. -/
theorem Dealt.variant (dealt : Dealt slot setId db)
    {row : CandidateSlotVariant} (member : row ∈ db.drawsFor slot) :
    ∃ question ∈ db.variantsOf setId, question.id = row.questionId := by
  have isDealt : row.questionId ∈
      (db.drawsFor slot).map CandidateSlotVariant.questionId :=
    List.mem_map_of_mem member
  rw [dealt.dealt] at isDealt
  exact List.mem_map.mp (mem_of_mem_deal isDealt)

theorem mem_drawsFor_of_drawOf {row : CandidateSlotVariant}
    (found : drawOf db invite slot email = some row) :
    row ∈ db.drawsFor slot := by
  obtain ⟨member, -, -, isSlot⟩ := drawOf_eq_some found
  exact List.mem_filter.mpr ⟨member, by simpa using isSlot⟩

/-- The draw of a candidate that has not been renamed is the one found. -/
theorem drawOf_of_mem {row : CandidateSlotVariant}
    (constraints : later.Constraints)
    (found : drawOf db invite slot email = some row)
    (member : row ∈ later.slotVariants) :
    drawOf later invite slot email = some row := by
  have matched := List.find?_some found
  refine constraints.uniqueKeys.slotVariantCandidate.find_eq member matched ?_
  intro other otherMatched
  simp only [Bool.and_eq_true, beq_iff_eq] at matched otherMatched
  simp [matched, otherMatched]

/-- From a state without draws for the slot, whatever slots are resolved for
whomever and whoever is erased: a draw stays, with its variant, under the
address of its candidate or a pseudonym, and as long as it is not renamed it is
the one that every resolution answers, a variant of the set, without drawing
again; and no variant of the set has been drawn more than once more often than
another. -/
theorem draws_frozen_balanced
    (constraints : start.Constraints) (undrawn : start.drawsFor slot = [])
    (reached : Relation.ReflTransGen (DrawStep slot setId) start db)
    (continued : Relation.ReflTransGen (DrawStep slot setId) db later) :
    (∀ row ∈ db.drawsFor slot, ∃ kept ∈ later.drawsFor slot,
      kept = { row with candidateEmail := kept.candidateEmail }) ∧
    (∀ invite email row, drawOf db invite slot email = some row →
      row ∈ later.slotVariants →
        drawOf later invite slot email = some row ∧
          ∃ question ∈ later.variantsOf setId, question.id = row.questionId ∧
            resolveSlotVariant later invite slot setId email =
              (later, .ok question)) ∧
    Balanced (later.variantIds setId)
      ((later.drawsFor slot).map CandidateSlotVariant.questionId) := by
  have dealtStart : Dealt slot setId start :=
    ⟨constraints, by rw [undrawn]; rfl⟩
  have dealt := (dealtStart.run reached).1
  obtain ⟨dealtLater, kept⟩ := dealt.run continued
  refine ⟨kept.rows, ?_, ?_⟩
  · intro invite email row found member
    have foundLater := drawOf_of_mem dealtLater.constraints found member
    obtain ⟨question, isVariant, same⟩ :=
      dealtLater.variant (mem_drawsFor_of_drawOf foundLater)
    refine ⟨foundLater, question, isVariant, same, ?_⟩
    apply resolveSlotVariant_frozen foundLater
    rw [← same]
    exact dealtLater.constraints.uniqueKeys.question.fetch_eq
      (mem_variantsOf.mp isVariant).1 rfl
  · rw [dealtLater.dealt]
    exact balanced_deal (variantIds_nodup dealtLater.constraints)

/-! ## A concrete run -/

namespace Scenario

/-- A question of the set `vs`. -/
def variant (id label : String) : Question where
  id := id
  ownerId := none
  orgId := 1
  title := id
  variantSetId := some "vs"
  variantLabel := some label
  durationMinutes := none

/-- The slot that the set `vs` fills. -/
def drawnSlot : AssessmentQuestion :=
  ⟨1, "ab", none, some "vs", 0⟩

/-- An invite to the assessment. -/
def drawnInvite (id : Nat) (token address : String) : Invite where
  id := id
  token := token
  questionId := none
  assessmentId := some "ab"
  variantSetId := none
  createdBy := none
  recipients := [address]
  deliveries := []
  expiresAt := none
  proctored := false
  durationMinutes := none
  status := .active
  createdAt := 0

/-- An assessment with the slot, and two invites to it. -/
def undrawn : Database :=
  { Database.empty with
    organizations := [newOrganization 1 "Acme"]
    variantSets := [⟨"vs", none, 1, "vs"⟩]
    questions := [variant "qa" "A", variant "qb" "B"]
    assessments := [⟨"ab", none, 1, "ab", none, none, false⟩]
    slots := [drawnSlot]
    invites := [drawnInvite 2 "e" "c@x", drawnInvite 3 "f" "d@x"]
    nextId := 4 }

/-- The first candidate has drawn a variant. -/
def drawnOnce : Database :=
  (resolveSlotVariant undrawn (drawnInvite 2 "e" "c@x") drawnSlot "vs"
    "c@x").1

/-- The first candidate has been erased. -/
def drawnErased : Database :=
  ((drawnOnce.eraseSitting 2 "c@x" 1 "erased-t@erased.invalid").toOption).getD
    .empty

/-- The second candidate has drawn one too. -/
def drawnTwice : Database :=
  (resolveSlotVariant drawnErased (drawnInvite 3 "f" "d@x") drawnSlot "vs"
    "d@x").1

end Scenario

open Scenario in
theorem draws_frozen_balanced_erased :
    (drawnTwice.drawsFor drawnSlot).length = 2 ∧
      (∃ kept ∈ drawnTwice.drawsFor drawnSlot,
        kept.candidateEmail = "erased-t@erased.invalid") ∧
      Balanced (drawnTwice.variantIds "vs")
        ((drawnTwice.drawsFor drawnSlot).map
          CandidateSlotVariant.questionId) := by
  have first : DrawStep drawnSlot "vs" undrawn drawnOnce :=
    .resolved _ "c@x" (by decide) rfl
  have erased : DrawStep drawnSlot "vs" drawnOnce drawnErased :=
    .sittingErased 2 "c@x" 1 "erased-t@erased.invalid" (by decide +kernel)
  have second : DrawStep drawnSlot "vs" drawnErased drawnTwice :=
    .resolved _ "d@x" (by decide +kernel) rfl
  have constraints : undrawn.Constraints := by decide +kernel
  have noDraws : undrawn.drawsFor drawnSlot = [] := by decide +kernel
  have holds := draws_frozen_balanced constraints noDraws (.single first)
    ((Relation.ReflTransGen.single erased).tail second)
  exact ⟨by decide +kernel, by decide +kernel, holds.2.2⟩

end AssessmentPlatform
