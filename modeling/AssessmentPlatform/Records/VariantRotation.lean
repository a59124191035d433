import AssessmentPlatform.Records.LibraryCommits
import AssessmentPlatform.Records.Sample
import AssessmentPlatform.Records.SlotDraws

/-!
# The rotation of a variant set

A batch of invites hands the variants of a set out in turn, from the number of
invites that the set has produced.  A pinned recipient takes no turn in the
batch, but the next batch counts the invite: the rotation goes on where it
stood as long as the pins come in whole rounds.
-/

namespace AssessmentPlatform

open Rows Rotation Refusals

variable {deployment : Deployment} {db : Database} {setId : String}
variable {caller : Nat} {variants : List Question}

/-! ## Pins -/

/-- The override of a recipient, as the loop looks it up. -/
def overrideOf (overrides : List (String × String))
    (recipient email : String) : Option String :=
  ((overrides.lookup recipient).filter (· != "")).or (overrides.lookup email)

/-- A recipient of a batch is pinned to a variant. -/
def isPinned (deployment : Deployment) (body : VariantSetInviteCreate)
    (recipient : String) : Bool :=
  (overrideOf body.overrides recipient
    (deployment.auth.normalizeEmail recipient)).isSome

/-- The variants that a batch hands out by rotation. -/
def rotatedOf (deployment : Deployment) (body : VariantSetInviteCreate)
    (recipients : List String) (invites : List Invite) : List String :=
  (recipients.zip invites).filterMap fun (recipient, invite) =>
    if isPinned deployment body recipient then none else invite.questionId

/-- How many of the recipients take a turn. -/
def turnsOf (deployment : Deployment) (body : VariantSetInviteCreate)
    (recipients : List String) : Nat :=
  recipients.countP fun recipient => !isPinned deployment body recipient

/-- How many of the recipients are pinned. -/
def pinsOf (deployment : Deployment) (body : VariantSetInviteCreate)
    (recipients : List String) : Nat :=
  recipients.countP (isPinned deployment body)

theorem turnsOf_add_pinsOf (deployment : Deployment)
    (body : VariantSetInviteCreate) (recipients : List String) :
    turnsOf deployment body recipients + pinsOf deployment body recipients =
      recipients.length := by
  unfold turnsOf pinsOf
  induction recipients with
  | nil => rfl
  | cons recipient rest inductionHypothesis =>
      by_cases pinned : isPinned deployment body recipient
      · simp only [List.countP_cons, pinned, List.length_cons]
        simp only [Bool.not_true, Bool.false_eq_true, if_false, if_true]
        omega
      · simp only [List.countP_cons, pinned, List.length_cons]
        simp only [Bool.not_false, Bool.false_eq_true, if_false, if_true]
        omega

/-! ## One recipient -/

theorem chooseVariant_pinned {overrides : List (String × String)}
    {recipient email : String} {cursor next : Nat} {chosen : Question}
    (pinned : (overrideOf overrides recipient email).isSome)
    (chose : chooseVariant variants overrides recipient email cursor =
      .ok (chosen, next)) :
    next = cursor ∧ ∀ other, chooseVariant variants overrides recipient email
      other = .ok (chosen, other) := by
  obtain ⟨variant, isVariant⟩ := Option.isSome_iff_exists.mp pinned
  unfold overrideOf at isVariant
  unfold chooseVariant at chose ⊢
  simp only [isVariant] at chose ⊢
  cases found : variants.find? fun question => question.id == variant with
  | none => simp [found] at chose
  | some question =>
      simp only [found, pure_eq_ok, Prod.mk.injEq] at chose ⊢
      obtain ⟨rfl, rfl⟩ := chose
      exact ⟨rfl, fun _ => ⟨rfl, trivial⟩⟩

theorem chooseVariant_rotated {overrides : List (String × String)}
    {recipient email : String} {cursor next : Nat} {chosen : Question}
    (free : ¬(overrideOf overrides recipient email).isSome)
    (chose : chooseVariant variants overrides recipient email cursor =
      .ok (chosen, next)) :
    next = cursor + 1 ∧ itemAt variants cursor = some chosen := by
  have none := Option.not_isSome_iff_eq_none.mp free
  unfold overrideOf at none
  unfold chooseVariant at chose
  simp only [none] at chose
  cases turn : variants[cursor % variants.length]? with
  | none => simp [turn] at chose
  | some question =>
      simp only [turn, pure_eq_ok, Prod.mk.injEq] at chose
      obtain ⟨rfl, rfl⟩ := chose
      exact ⟨rfl, turn⟩

/-! ## One batch -/

section Batch

variable {around : Surroundings} {body : VariantSetInviteCreate}
variable {first drawn cursor : Nat} {recipients : List String}
variable {invites : List Invite}

/-- A batch hands out the rotation from its cursor on. -/
theorem variantInvites_rotated
    (minted : variantInvites deployment around caller setId variants body first
      drawn cursor recipients = .ok invites) :
    invites.length = recipients.length ∧
      (∀ invite ∈ invites, invite.variantSetId = some setId) ∧
      rotatedOf deployment body recipients invites =
        deal (variants.map Question.id) cursor
          (turnsOf deployment body recipients) := by
  induction recipients generalizing drawn cursor invites with
  | nil =>
      obtain rfl := pure_eq_ok.mp minted
      exact ⟨rfl, nofun, rfl⟩
  | cons recipient rest inductionHypothesis =>
      simp only [variantInvites, bind_eq_ok, pure_eq_ok] at minted
      obtain ⟨⟨chosen, next⟩, chose, others, mintedRest, rfl⟩ := minted
      obtain ⟨sameLength, ofSet, dealt⟩ := inductionHypothesis mintedRest
      refine ⟨by simp [sameLength], ?_, ?_⟩
      · intro invite member
        rcases List.mem_cons.mp member with rfl | later
        · rfl
        · exact ofSet invite later
      · by_cases pinned : isPinned deployment body recipient
        · obtain ⟨rfl, -⟩ := chooseVariant_pinned pinned chose
          simpa [rotatedOf, turnsOf, pinned] using dealt
        · obtain ⟨rfl, isTurn⟩ := chooseVariant_rotated pinned chose
          have free : isPinned deployment body recipient = false :=
            Bool.eq_false_iff.mpr pinned
          have turns : turnsOf deployment body (recipient :: rest) =
              1 + turnsOf deployment body rest := by
            simp [turnsOf, free, Nat.add_comm]
          have isNext : itemAt (variants.map Question.id) cursor =
              some chosen.id := by
            unfold itemAt at isTurn ⊢
            rw [List.length_map, List.getElem?_map, isTurn]
            rfl
          rw [turns, deal_add, ← dealt]
          simp [rotatedOf, free, deal, isNext]

/-- Where two batches stand at the same place of the round, or hand nothing out
by rotation, the recipients are assigned the same variants. -/
def Alike (deployment : Deployment) (body : VariantSetInviteCreate)
    (recipients : List String) (count cursor other : Nat) : Prop :=
  cursor ≡ other [MOD count] ∨
    ∀ recipient ∈ recipients, isPinned deployment body recipient

/-- The whole list at one cursor, and its first part at a cursor like it: the
first part is assigned the same, and the rest as a batch of its own is, from
where the rotation then stands. -/
theorem variantInvites_split {other : Surroundings}
    {part : VariantSetInviteCreate} {otherCaller : Nat}
    {later laterDrawn standing : Nat}
    {rest : List String} {partInvites : List Invite}
    (same : part.overrides = body.overrides)
    (alike : Alike deployment body recipients variants.length cursor standing)
    (minted : variantInvites deployment around caller setId variants body first
      drawn cursor (recipients ++ rest) = .ok invites)
    (mintedPart : variantInvites deployment other otherCaller setId variants
      part later laterDrawn standing recipients = .ok partInvites) :
    ∃ drawnRest restInvites,
      variantInvites deployment around caller setId variants body first
          drawnRest (cursor + turnsOf deployment body recipients) rest =
        .ok restInvites ∧
      invites.map Invite.questionId =
        partInvites.map Invite.questionId ++
          restInvites.map Invite.questionId := by
  induction recipients generalizing drawn laterDrawn cursor standing invites
      partInvites with
  | nil =>
      obtain rfl := pure_eq_ok.mp mintedPart
      exact ⟨drawn, invites, minted, rfl⟩
  | cons recipient recipients inductionHypothesis =>
      simp only [List.cons_append, variantInvites, bind_eq_ok, pure_eq_ok]
        at minted mintedPart
      obtain ⟨⟨chosen, next⟩, chose, others, mintedRest, rfl⟩ := minted
      obtain ⟨⟨chosenPart, nextPart⟩, chosePart, othersPart, mintedRestPart,
        rfl⟩ := mintedPart
      rw [same] at chosePart
      by_cases pinned : isPinned deployment body recipient
      · obtain ⟨rfl, everywhere⟩ := chooseVariant_pinned pinned chose
        obtain ⟨rfl, rfl⟩ := Prod.mk.inj
          (Except.ok.inj ((everywhere standing).symm.trans chosePart))
        have alikeRest :
            Alike deployment body recipients variants.length next standing :=
          alike.imp_right fun all other member =>
            all other (List.mem_cons_of_mem _ member)
        obtain ⟨drawnRest, restInvites, ranRest, split⟩ :=
          inductionHypothesis alikeRest mintedRest mintedRestPart
        have turns : turnsOf deployment body (recipient :: recipients) =
            turnsOf deployment body recipients := by
          simp [turnsOf, pinned]
        refine ⟨drawnRest, restInvites, turns ▸ ranRest, ?_⟩
        simp [split]
      · obtain ⟨rfl, isTurn⟩ := chooseVariant_rotated pinned chose
        obtain ⟨rfl, isTurnPart⟩ := chooseVariant_rotated pinned chosePart
        have congruent : cursor ≡ standing [MOD variants.length] :=
          alike.resolve_right fun all =>
            pinned (all recipient List.mem_cons_self)
        have sameTurn : chosen = chosenPart := by
          unfold itemAt at isTurn isTurnPart
          rw [show cursor % variants.length = standing % variants.length from
            congruent, isTurnPart] at isTurn
          exact (Option.some.inj isTurn).symm
        obtain ⟨drawnRest, restInvites, ranRest, split⟩ :=
          inductionHypothesis (Or.inl (congruent.add_right 1)) mintedRest
            mintedRestPart
        have turns :
            cursor + turnsOf deployment body (recipient :: recipients) =
              cursor + 1 + turnsOf deployment body recipients := by
          have free : isPinned deployment body recipient = false :=
            Bool.eq_false_iff.mpr pinned
          simp [turnsOf, free]
          omega
        refine ⟨drawnRest, restInvites, turns ▸ ranRest, ?_⟩
        simp [split, sameTurn]

end Batch

/-! ## A sequence of batches -/

/-- A request for invites to a variant set. -/
structure SetBatch where
  around : Surroundings
  caller : Nat
  body : VariantSetInviteCreate

namespace SetBatch

variable (deployment : Deployment) (setId : String) (batch : SetBatch)
variable (db : Database)

/-- What the request comes to. -/
def result : Except HTTPException Database :=
  createVariantSetInvites deployment batch.around db batch.caller setId
    batch.body

/-- The state after the request. -/
def serve : Database :=
  (lastly db (batch.result deployment setId db)).1

/-- The invites that the request makes. -/
def minted : List Invite :=
  (batch.serve deployment setId db).invites.drop db.invites.length

/-- The variants that the request hands out by rotation. -/
def rotated : List String :=
  rotatedOf deployment batch.body batch.body.recipients
    (batch.minted deployment setId db)

/-- The variants that the recipients are assigned. -/
def assigned : List (Option String) :=
  (batch.minted deployment setId db).map Invite.questionId

/-- The recipients that the request pins. -/
def pins : Nat :=
  (batch.body.recipients.zip (batch.minted deployment setId db)).countP
    fun pair => isPinned deployment batch.body pair.1

end SetBatch

section Sequence

variable (deployment : Deployment) (setId : String)

/-- The variants that the rotation hands out over a sequence of batches. -/
def rotatedOver : List SetBatch → Database → List String
  | [], _ => []
  | batch :: rest, db =>
      batch.rotated deployment setId db ++
        rotatedOver rest (batch.serve deployment setId db)

/-- The variants that the recipients of a sequence of batches are assigned. -/
def assignedOver : List SetBatch → Database → List (Option String)
  | [], _ => []
  | batch :: rest, db =>
      batch.assigned deployment setId db ++
        assignedOver rest (batch.serve deployment setId db)

/-- All batches of a sequence succeed. -/
def AllServed : List SetBatch → Database → Prop
  | [], _ => True
  | batch :: rest, db =>
      (batch.result deployment setId db).isOk ∧
        AllServed rest (batch.serve deployment setId db)

/-- Every batch that succeeds pins all its recipients, or comes when whole
rounds of recipients have been pinned. -/
def PinsInRounds : Nat → List SetBatch → Database → Prop
  | _, [], _ => True
  | pinned, batch :: rest, db =>
      ((batch.result deployment setId db).isOk →
        (db.variantsOf setId).length ∣ pinned ∨
          ∀ recipient ∈ batch.body.recipients,
            isPinned deployment batch.body recipient) ∧
      PinsInRounds (pinned + batch.pins deployment setId db) rest
        (batch.serve deployment setId db)

end Sequence

/-! ## The batches of a sequence -/

variable {batch : SetBatch} {after : Database}

/-- The invites that a set has produced. -/
def Database.setInvites (db : Database) (setId : String) : List Invite :=
  db.invites.filter fun row => row.variantSetId == some setId

/-- A batch that succeeds adds what its loop makes, from the number of the
invites that the set has produced. -/
theorem SetBatch.result_eq_ok
    (isResult : batch.result deployment setId db = .ok after) :
    after.Constraints ∧ after.variantsOf setId = db.variantsOf setId ∧
      ∃ caller invites, after.invites = db.invites ++ invites ∧
        variantInvites deployment batch.around caller setId
          (db.variantsOf setId) batch.body db.nextId 0
          (db.setInvites setId).length batch.body.recipients =
            .ok invites := by
  unfold SetBatch.result createVariantSetInvites at isResult
  simp only [throw_bind, bind_eq_ok, ite_throw_eq_ok,
    Database.execute_eq_ok] at isResult
  obtain ⟨_, _, current, _, _, _, _, _, _, _, _, invites, minted, holds,
    rfl⟩ := isResult
  exact ⟨holds, rfl, current.id, invites, rfl, minted⟩

/-- What a batch that succeeds leaves. -/
structure SetBatch.Hands (deployment : Deployment) (setId : String)
    (batch : SetBatch) (db after : Database) : Prop where
  constraints : after.Constraints
  sameVariants : after.variantsOf setId = db.variantsOf setId
  count : (after.setInvites setId).length =
    (db.setInvites setId).length + batch.body.recipients.length
  rotated : batch.rotated deployment setId db =
    deal (db.variantIds setId) (db.setInvites setId).length
      (turnsOf deployment batch.body batch.body.recipients)
  pins : batch.pins deployment setId db =
    pinsOf deployment batch.body batch.body.recipients
  minted : ∃ caller, variantInvites deployment batch.around caller setId
    (db.variantsOf setId) batch.body db.nextId 0
    (db.setInvites setId).length batch.body.recipients =
      .ok (batch.minted deployment setId db)

theorem SetBatch.hands
    (isResult : batch.result deployment setId db = .ok after) :
    batch.serve deployment setId db = after ∧
      batch.Hands deployment setId db after := by
  have served : batch.serve deployment setId db = after := by
    unfold SetBatch.serve lastly
    rw [isResult]
  obtain ⟨holds, sameVariants, caller, invites, added, loop⟩ :=
    SetBatch.result_eq_ok isResult
  obtain ⟨sameLength, ofSet, dealt⟩ := variantInvites_rotated loop
  have minted : batch.minted deployment setId db = invites := by
    unfold SetBatch.minted
    rw [served, added, List.drop_left]
  refine ⟨served, holds, sameVariants, ?_, ?_, ?_, caller, minted ▸ loop⟩
  · have allOfSet : invites.filter (fun row => row.variantSetId == some setId) =
        invites :=
      List.filter_eq_self.mpr fun invite member => by
        simp [ofSet invite member]
    simp only [Database.setInvites, added, List.filter_append, allOfSet,
      List.length_append, sameLength]
  · unfold SetBatch.rotated
    rw [minted, dealt]
    rfl
  · have paired : (batch.body.recipients.zip invites).map Prod.fst =
        batch.body.recipients :=
      List.map_fst_zip sameLength.ge
    have counted : (batch.body.recipients.zip invites).countP
        (isPinned deployment batch.body ∘ Prod.fst) =
          batch.body.recipients.countP (isPinned deployment batch.body) := by
      rw [← List.countP_map, paired]
    unfold SetBatch.pins
    rw [minted]
    exact counted

/-- A batch that is refused leaves the state, and hands nothing out. -/
theorem SetBatch.refused {detail : HTTPException}
    (isResult : batch.result deployment setId db = .error detail) :
    batch.serve deployment setId db = db ∧
      batch.rotated deployment setId db = [] ∧
      batch.pins deployment setId db = 0 := by
  have served : batch.serve deployment setId db = db := by
    unfold SetBatch.serve lastly
    rw [isResult]
  have minted : batch.minted deployment setId db = [] := by
    unfold SetBatch.minted
    rw [served, List.drop_length]
  refine ⟨served, ?_, ?_⟩
  · simp [SetBatch.rotated, rotatedOf, minted]
  · simp [SetBatch.pins, minted]

/-- The turn at which a batch starts counts, where it hands out a turn. -/
theorem SetBatch.Hands.aligned {turns pinned : Nat}
    (hands : batch.Hands deployment setId db after)
    (counted : (db.setInvites setId).length = turns + pinned)
    (inRounds : (db.variantsOf setId).length ∣ pinned ∨
      ∀ recipient ∈ batch.body.recipients,
        isPinned deployment batch.body recipient) :
    batch.rotated deployment setId db =
      deal (db.variantIds setId) turns
        (turnsOf deployment batch.body batch.body.recipients) := by
  rw [hands.rotated, counted]
  rcases inRounds with rounds | allPinned
  · apply deal_congr
    have none : pinned ≡ 0 [MOD (db.variantsOf setId).length] :=
      Nat.modEq_zero_iff_dvd.mpr rounds
    simpa [Database.variantIds] using none.add_left turns
  · have noTurn : turnsOf deployment batch.body batch.body.recipients = 0 := by
      apply List.countP_eq_zero.mpr
      intro recipient member
      simp [allPinned recipient member]
    rw [noTurn, deal_zero, deal_zero]

/-- What the rotation hands out over a sequence of batches goes on where it
stood. -/
theorem rotatedOver_eq_deal {batches : List SetBatch} {turns pinned : Nat}
    (counted : (db.setInvites setId).length = turns + pinned)
    (inRounds : PinsInRounds deployment setId pinned batches db) :
    ∃ count, rotatedOver deployment setId batches db =
      deal (db.variantIds setId) turns count := by
  induction batches generalizing db turns pinned with
  | nil => exact ⟨0, rfl⟩
  | cons batch rest inductionHypothesis =>
      obtain ⟨here, later⟩ := inRounds
      cases isResult : batch.result deployment setId db with
      | error detail =>
          obtain ⟨served, rotated, pins⟩ := SetBatch.refused isResult
          rw [served, pins] at later
          obtain ⟨count, dealt⟩ := inductionHypothesis counted later
          refine ⟨count, ?_⟩
          rw [rotatedOver, rotated, served, List.nil_append, dealt]
      | ok after =>
          obtain ⟨served, hands⟩ := SetBatch.hands isResult
          have rotated := hands.aligned counted (here (by rw [isResult]; rfl))
          rw [served, hands.pins] at later
          have recipients :=
            turnsOf_add_pinsOf deployment batch.body batch.body.recipients
          have countedAfter : (after.setInvites setId).length =
              turns + turnsOf deployment batch.body batch.body.recipients +
                (pinned +
                  pinsOf deployment batch.body batch.body.recipients) := by
            rw [hands.count, counted]
            omega
          obtain ⟨count, dealt⟩ := inductionHypothesis countedAfter later
          have sameIds : after.variantIds setId = db.variantIds setId := by
            unfold Database.variantIds
            rw [hands.sameVariants]
          refine ⟨turnsOf deployment batch.body batch.body.recipients + count,
            ?_⟩
          rw [rotatedOver, rotated, served, dealt, sameIds, deal_add]

/-- Consecutive batches of one list go on as the list itself does. -/
theorem assignedOver_eq_whole {batches : List SetBatch}
    {around : Surroundings} {body : VariantSetInviteCreate}
    {caller first drawn cursor pinned : Nat} {invites : List Invite}
    (sameOverrides : ∀ batch ∈ batches, batch.body.overrides = body.overrides)
    (counted : (db.setInvites setId).length = cursor + pinned)
    (inRounds : PinsInRounds deployment setId pinned batches db)
    (served : AllServed deployment setId batches db)
    (whole : variantInvites deployment around caller setId
      (db.variantsOf setId) body first drawn cursor
      (batches.flatMap fun batch => batch.body.recipients) = .ok invites) :
    invites.map Invite.questionId =
      assignedOver deployment setId batches db := by
  induction batches generalizing db drawn cursor pinned invites with
  | nil =>
      obtain rfl := pure_eq_ok.mp whole
      rfl
  | cons batch rest inductionHypothesis =>
      obtain ⟨here, later⟩ := inRounds
      obtain ⟨isOk, servedRest⟩ := served
      have restOverrides :
          ∀ other ∈ rest, other.body.overrides = body.overrides :=
        fun other member => sameOverrides other (List.mem_cons_of_mem _ member)
      have same := sameOverrides batch List.mem_cons_self
      have samePinned : isPinned deployment batch.body =
          isPinned deployment body := by
        unfold isPinned
        rw [same]
      cases isResult : batch.result deployment setId db with
      | error detail =>
          rw [isResult] at isOk
          cases isOk
      | ok after =>
          obtain ⟨serves, hands⟩ := SetBatch.hands isResult
          rw [serves] at servedRest
          rw [serves, hands.pins] at later
          obtain ⟨partCaller, loop⟩ := hands.minted
          have alike : Alike deployment body batch.body.recipients
              (db.variantsOf setId).length cursor
              (db.setInvites setId).length := by
            rcases here isOk with rounds | allPinned
            · have none : pinned ≡ 0 [MOD (db.variantsOf setId).length] :=
                Nat.modEq_zero_iff_dvd.mpr rounds
              rw [counted]
              exact Or.inl (none.add_left cursor).symm
            · rw [samePinned] at allPinned
              exact Or.inr allPinned
          rw [List.flatMap_cons] at whole
          obtain ⟨drawnRest, restInvites, wholeRest, split⟩ :=
            variantInvites_split same alike whole loop
          rw [← hands.sameVariants] at wholeRest
          have recipients :=
            turnsOf_add_pinsOf deployment body batch.body.recipients
          have countedAfter : (after.setInvites setId).length =
              cursor + turnsOf deployment body batch.body.recipients +
                (pinned +
                  pinsOf deployment batch.body batch.body.recipients) := by
            rw [hands.count, counted, pinsOf, samePinned]
            unfold pinsOf at recipients
            omega
          have assignedRest := inductionHypothesis restOverrides countedAfter
            later servedRest wholeRest
          rw [split, assignedRest, assignedOver, serves]
          rfl

/-- The rotation of a variant set, where pins come in whole rounds: over a
sequence of batches no variant is handed out by rotation more than once more
often than another, and the batches of a list that is split assign what the
whole list is assigned. -/
theorem rotation_fair {batches : List SetBatch} (constraints : db.Constraints)
    (inRounds : PinsInRounds deployment setId 0 batches db) :
    (db.setInvites setId = [] →
      Balanced (db.variantIds setId)
        (rotatedOver deployment setId batches db)) ∧
    ∀ whole : SetBatch,
      (whole.result deployment setId db).isOk →
      AllServed deployment setId batches db →
      (batches.flatMap fun batch => batch.body.recipients) =
        whole.body.recipients →
      (∀ batch ∈ batches, batch.body.overrides = whole.body.overrides) →
      whole.assigned deployment setId db =
        assignedOver deployment setId batches db := by
  constructor
  · intro unused
    have counted : (db.setInvites setId).length = 0 + 0 := by simp [unused]
    obtain ⟨count, dealt⟩ := rotatedOver_eq_deal counted inRounds
    rw [dealt]
    exact balanced_deal (variantIds_nodup constraints)
  · intro whole isOk served recipients overrides
    cases isResult : whole.result deployment setId db with
    | error detail =>
        rw [isResult] at isOk
        cases isOk
    | ok after =>
        obtain ⟨serves, hands⟩ := SetBatch.hands isResult
        obtain ⟨caller, loop⟩ := hands.minted
        rw [← recipients] at loop
        exact assignedOver_eq_whole overrides rfl inRounds served loop

/-! ## Concrete batches -/

namespace Scenario

/-- An organisation with a set of two variants. -/
def rotating : Database :=
  { Database.empty with
    organizations := [newOrganization 1 "Acme"]
    interviewers := [⟨2, "a@x", "pw", "Ann", 0, none⟩]
    memberships := [⟨3, 1, 2, .admin, none⟩]
    variantSets := [⟨"vs", none, 1, "vs"⟩]
    questions := [variant "qa" "A", variant "qb" "B"]
    nextId := 4 }

/-- A batch of the set, for these recipients and with these overrides. -/
def batchOf (tag : Char) (recipients : List String)
    (overrides : List (String × String)) (nonempty : recipients ≠ []) :
    SetBatch where
  around := surroundings 0 tag
  caller := 2
  body := ⟨⟨recipients, nonempty, none⟩, overrides⟩

/-- One recipient is pinned, and the rotation is at the other variant. -/
def onePinned : List SetBatch :=
  [batchOf 'a' ["c@x", "p@x"] [("p@x", "qb")] (by decide),
    batchOf 'b' ["d@x"] [("p@x", "qb")] (by decide)]

/-- The same recipients in one batch. -/
def onePinnedWhole : SetBatch :=
  batchOf 'c' ["c@x", "p@x", "d@x"] [("p@x", "qb")] (by decide)

/-- A round of recipients is pinned. -/
def roundPinned : List SetBatch :=
  [batchOf 'a' ["c@x", "p@x", "q@x"] [("p@x", "qb"), ("q@x", "qb")]
      (by decide),
    batchOf 'b' ["d@x"] [("p@x", "qb"), ("q@x", "qb")] (by decide)]

/-- The same recipients in one batch. -/
def roundPinnedWhole : SetBatch :=
  batchOf 'c' ["c@x", "p@x", "q@x", "d@x"] [("p@x", "qb"), ("q@x", "qb")]
    (by decide)

end Scenario

open Scenario in
theorem rotation_fair_rounds :
    rotatedOver Scenario.deployment "vs" roundPinned rotating = ["qa", "qb"] ∧
      Balanced (rotating.variantIds "vs")
        (rotatedOver Scenario.deployment "vs" roundPinned rotating) ∧
      roundPinnedWhole.assigned Scenario.deployment "vs" rotating =
        assignedOver Scenario.deployment "vs" roundPinned rotating := by
  have constraints : rotating.Constraints := by decide +kernel
  have inRounds :
      PinsInRounds Scenario.deployment "vs" 0 roundPinned rotating :=
    ⟨fun _ => Or.inl (by decide), fun _ => Or.inl (by decide +kernel),
      trivial⟩
  obtain ⟨balanced, split⟩ := rotation_fair constraints inRounds
  refine ⟨by decide +kernel, balanced rfl, split roundPinnedWhole ?_ ?_ ?_ ?_⟩
  · decide +kernel
  · exact ⟨by decide +kernel, by decide +kernel, trivial⟩
  · decide
  · decide

open Scenario in
/-- A pin moves the rotation of the next batch on: the second recipient whom the
rotation serves gets the variant of the first one again, and would have got the
other one in a batch with them. -/
theorem rotation_pin_consumes_turn :
    rotating.Constraints ∧ rotating.setInvites "vs" = [] ∧
      AllServed Scenario.deployment "vs" onePinned rotating ∧
      (onePinnedWhole.result Scenario.deployment "vs" rotating).isOk ∧
      (onePinned.flatMap fun batch => batch.body.recipients) =
        onePinnedWhole.body.recipients ∧
      ¬Balanced (rotating.variantIds "vs")
        (rotatedOver Scenario.deployment "vs" onePinned rotating) ∧
      onePinnedWhole.assigned Scenario.deployment "vs" rotating ≠
        assignedOver Scenario.deployment "vs" onePinned rotating := by
  refine ⟨by decide +kernel, rfl, ⟨by decide +kernel, by decide +kernel,
    trivial⟩, by decide +kernel, by decide, ?_, by decide +kernel⟩
  intro balanced
  have within := balanced "qa" (by decide +kernel) "qb" (by decide +kernel)
  have handed : rotatedOver Scenario.deployment "vs" onePinned rotating =
      ["qa", "qa"] := by
    decide +kernel
  rw [handed] at within
  exact absurd within (by decide)

end AssessmentPlatform
