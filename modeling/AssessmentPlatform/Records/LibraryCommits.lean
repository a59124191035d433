import AssessmentPlatform.Records.Resolution
import AssessmentPlatform.Records.RosterCommits

/-!
# What the library and invite routes commit

The handlers of questions, variant sets, assessments and invites, read
backwards.
-/

namespace AssessmentPlatform

open Rows Refusals

variable {deployment : Deployment} {served : Served} {scope : Option Nat}
variable {db after : Database} {caller : Nat} {org : Membership}
variable {id setId token : String}

/-! ## Questions -/

theorem append_hyphen_ne_empty (front back : String) :
    front ++ "-" ++ back ≠ "" := by
  intro empty
  have lengths := congrArg String.length empty
  simp at lengths

/-- A generated identifier has a hyphen in it. -/
theorem generateId_ne_empty (settings : Accounts.AuthSettings)
    (around : Surroundings) (title : String) (drawn : Nat)
    (exists' : String → Bool) :
    generateId settings around title drawn exists' ≠ "" := by
  unfold generateId
  dsimp only
  cases found : ((List.range 6).map fun attempt =>
      slugify settings title ++ "-" ++ around.suffix drawn attempt).find?
        fun candidate => !exists' candidate with
  | none => exact append_hyphen_ne_empty _ _
  | some candidate =>
      obtain ⟨attempt, _, rfl⟩ :=
        List.mem_map.mp (List.mem_of_find?_eq_some found)
      exact append_hyphen_ne_empty _ _

theorem newQuestionId_ne_empty {around : Surroundings}
    {body : QuestionCreate}
    (drawn : newQuestionId deployment around db body = .ok id) : id ≠ "" := by
  unfold newQuestionId at drawn
  dsimp only at drawn
  split at drawn
  · next given =>
    split at drawn
    · cases drawn
    · obtain rfl := pure_eq_ok.mp drawn
      exact given
  · obtain rfl := pure_eq_ok.mp drawn
    exact generateId_ne_empty _ _ _ _ _

theorem createQuestion_commits {body : QuestionCreate}
    (created :
      createQuestion deployment served.around db caller body = .ok after) :
    MemberCommits deployment served caller db after := by
  unfold createQuestion at created
  simp only [bind_eq_ok, Database.currentMembership_eq_ok] at created
  obtain ⟨current, _, org, ⟨_, seat⟩, id, drawn, _, _, executed⟩ := created
  apply MemberCommits.seated seat
  exact Commits.of_execute executed
    (.questionAdded _ _ rfl rfl (newQuestionId_ne_empty drawn))

theorem updateQuestion_commits {body : QuestionFields}
    (updated : updateQuestion db caller id body = .ok after) :
    MemberCommits deployment served caller db after := by
  unfold updateQuestion at updated
  simp only [bind_eq_ok, Database.currentMembership_eq_ok,
    Database.ownedQuestion_eq_ok] at updated
  obtain ⟨org, ⟨_, seat⟩, question, ⟨fetched, owned⟩, _, _, executed⟩ :=
    updated
  apply MemberCommits.seated seat
  obtain rfl : question.id = id := key_of_fetch fetched
  exact Commits.of_execute executed
    (.questionEdited body.title body.durationMinutes body.testCases.length
      (mem_of_fetch fetched) owned)

theorem archiveQuestion_commits
    (archived : archiveQuestion db caller id = .ok after) :
    MemberCommits deployment served caller db after := by
  unfold archiveQuestion at archived
  simp only [bind_eq_ok, pure_eq_ok] at archived
  obtain ⟨_, _, _, _, rfl⟩ := archived
  exact .refused

theorem deleteQuestion_commits
    (asked : served.request = .member caller (.deleteQuestion id))
    (deleted : deleteQuestion db caller id = .ok after) :
    MemberCommits deployment served caller db after := by
  unfold deleteQuestion at deleted
  simp only [throw_bind, bind_eq_ok, ite_throw_eq_ok,
    Database.currentMembership_eq_ok, Database.ownedQuestion_eq_ok,
    not_not] at deleted
  obtain ⟨org, ⟨_, seat⟩, question, ⟨fetched, owned⟩, unsubmitted, unused,
    unassigned, _, executed⟩ := deleted
  apply MemberCommits.seated seat
  obtain rfl : question.id = id := key_of_fetch fetched
  apply Commits.of_execute executed
  apply Change.questionDeleted (mem_of_fetch fetched) owned
  · intro row member
    simpa using forall_of_filter_length_eq_zero unsubmitted row member
  · intro row member
    rw [List.map_eq_nil_iff, ← List.length_eq_zero_iff] at unused
    simpa using forall_of_filter_length_eq_zero unused row member
  · intro row member
    simpa using forall_of_filter_length_eq_zero unassigned row member
  · exact ⟨caller, asked⟩

/-! ## Variant sets -/

/-- What the loop over the variants of a new set adds. -/
structure AddedVariants (set : VariantSet) (db after : Database)
    (questions : List Question) (testCases : List QuestionTestCase) :
    Prop where
  adds : after =
    { db with
      questions := db.questions ++ questions
      testCases := db.testCases ++ testCases
      nextId := after.nextId }
  nextId : db.nextId ≤ after.nextId
  question : ∀ question ∈ questions, question.orgId = set.orgId ∧
    question.variantSetId = some set.id ∧ question.id ≠ ""
  testCase : ∀ testCase ∈ testCases,
    ∃ question ∈ questions, question.id = testCase.questionId

theorem AddedVariants.cons {set : VariantSet} {questions : List Question}
    {testCases : List QuestionTestCase} {question : Question} {count : Nat}
    (inOrg : question.orgId = set.orgId)
    (inSet : question.variantSetId = some set.id)
    (named : question.id ≠ "")
    (rest : AddedVariants set (addQuestion db question count) after questions
      testCases) :
    AddedVariants set db after (question :: questions)
      (testCaseRows question.id db.nextId count ++ testCases) where
  adds := by
    rw [rest.adds]
    simp [addQuestion]
  nextId := (Nat.le_add_right _ _).trans rest.nextId
  question := by
    intro other member
    rcases List.mem_cons.mp member with rfl | member
    · exact ⟨inOrg, inSet, named⟩
    · exact rest.question other member
  testCase := by
    intro testCase member
    rcases List.mem_append.mp member with member | member
    · obtain ⟨_, _, rfl⟩ := List.mem_map.mp member
      exact ⟨question, List.mem_cons_self, rfl⟩
    · obtain ⟨other, found, named⟩ := rest.testCase testCase member
      exact ⟨other, List.mem_cons_of_mem _ found, named⟩

theorem addVariants_eq_ok {around : Surroundings} {set : VariantSet}
    {variants : List VariantCreate} {index : Nat}
    (added :
      addVariants deployment around set index variants db = .ok after) :
    ∃ questions testCases,
      AddedVariants set db after questions testCases := by
  induction variants generalizing index db with
  | nil =>
      obtain rfl := pure_eq_ok.mp added
      exact ⟨[], [], by simp, le_rfl, by simp, by simp⟩
  | cons variant rest inductionHypothesis =>
      simp only [addVariants, bind_eq_ok] at added
      obtain ⟨_, _, others⟩ := added
      obtain ⟨questions, testCases, rest⟩ := inductionHypothesis others
      exact ⟨_, _, rest.cons rfl rfl (generateId_ne_empty _ _ _ _ _)⟩

theorem createVariantSet_commits {body : VariantSetCreate}
    (created :
      createVariantSet deployment served.around db caller body = .ok after) :
    MemberCommits deployment served caller db after := by
  unfold createVariantSet at created
  simp only [throw_bind, bind_eq_ok, ite_throw_eq_ok,
    Database.currentMembership_eq_ok] at created
  obtain ⟨current, _, org, ⟨_, seat⟩, _, stored, added, executed⟩ := created
  apply MemberCommits.seated seat
  obtain ⟨questions, testCases, variants⟩ := addVariants_eq_ok added
  apply Commits.of_execute executed
  rw [variants.adds]
  exact .setAdded _ questions testCases stored.nextId rfl variants.nextId
    variants.question variants.testCase

/-! ## Assessments -/

theorem membershipRow_eq_ok {slot : AssessmentSlotIn} {index : Nat}
    {row : AssessmentQuestion}
    (checked : membershipRow db org id slot index = .ok row) :
    row.id = db.nextId + index ∧ row.assessmentId = id ∧
      row.signature = slot.stored ∧
      (∀ questionId ∈ row.questionId, ∃ question ∈ db.questions,
        question.id = questionId ∧ question.orgId = org.orgId) ∧
      ∀ setId ∈ row.variantSetId, ∃ set ∈ db.variantSets,
        set.id = setId ∧ set.orgId = org.orgId := by
  unfold membershipRow at checked
  cases target : slot.questionId with
  | some questionId =>
      simp only [target, bind_eq_ok, Database.ownedQuestion_eq_ok,
        pure_eq_ok] at checked
      obtain ⟨question, ⟨fetched, owned⟩, rfl⟩ := checked
      simp only [AssessmentQuestion.signature, AssessmentSlotIn.stored, target,
        true_and]
      refine ⟨?_, by simp⟩
      intro named isNamed
      obtain rfl : questionId = named := by simpa using isNamed
      exact ⟨question, mem_of_fetch fetched, key_of_fetch fetched, owned⟩
  | none =>
      simp only [target, bind_eq_ok, Database.ownedVariantSet_eq_ok,
        pure_eq_ok] at checked
      obtain ⟨set, ⟨fetched, owned⟩, rfl⟩ := checked
      simp only [AssessmentQuestion.signature, AssessmentSlotIn.stored, target,
        true_and]
      refine ⟨by simp, ?_⟩
      intro named isNamed
      obtain rfl : slot.variantSetId.getD "" = named := by simpa using isNamed
      exact ⟨set, mem_of_fetch fetched, key_of_fetch fetched, owned⟩

/-- The rows that `_membership_rows` builds, one for each requested slot. -/
theorem membershipRows_forall₂ {slots : List AssessmentSlotIn} {start : Nat}
    {rows : List AssessmentQuestion}
    (built : List.Forall₂
      (fun (input : AssessmentSlotIn × Nat) row =>
        membershipRow db org id input.1 input.2 = .ok row)
      (slots.zipIdx start) rows) :
    rows.map AssessmentQuestion.signature =
        slots.map AssessmentSlotIn.stored ∧
      rows.map AssessmentQuestion.id =
        List.range' (db.nextId + start) rows.length ∧
      ∀ row ∈ rows, ∃ slot index,
        membershipRow db org id slot index = .ok row := by
  induction slots generalizing start rows with
  | nil =>
      cases built
      exact ⟨rfl, rfl, by simp⟩
  | cons slot rest inductionHypothesis =>
      rw [List.zipIdx_cons] at built
      cases built with
      | cons first others =>
          obtain ⟨isId, _, isStored, _⟩ := membershipRow_eq_ok first
          obtain ⟨stored, ids, each⟩ := inductionHypothesis others
          refine ⟨by simp [isStored, stored], ?_, ?_⟩
          · simp only [List.map_cons, isId, ids, List.length_cons,
              List.range'_succ]
            rfl
          · intro row member
            rcases List.mem_cons.mp member with rfl | member
            · exact ⟨slot, start, first⟩
            · exact each row member

theorem filterMap_fst_stored (slots : List AssessmentSlotIn) :
    (slots.map AssessmentSlotIn.stored).filterMap Prod.fst =
      slots.filterMap AssessmentSlotIn.questionId := by
  rw [List.filterMap_map]
  apply List.filterMap_congr
  intro slot _
  cases target : slot.questionId <;>
    simp [AssessmentSlotIn.stored, target]

theorem filterMap_snd_stored (slots : List AssessmentSlotIn) :
    ((slots.map AssessmentSlotIn.stored).filterMap Prod.snd).Sublist
      (slots.filterMap AssessmentSlotIn.variantSetId) := by
  induction slots with
  | nil => simp
  | cons slot rest inductionHypothesis =>
      have isOne := slot.exactly_one
      cases target : slot.questionId <;> cases set : slot.variantSetId <;>
        simp_all [AssessmentSlotIn.stored, given]

/-- A requested slot is stored as a question or as a set. -/
theorem AssessmentSlotIn.stored_one (slot : AssessmentSlotIn) :
    slot.stored.1.isSome = slot.stored.2.isNone := by
  unfold AssessmentSlotIn.stored
  cases slot.questionId <;> rfl

theorem membershipRows_eq_ok {slots : List AssessmentSlotIn}
    {rows : List AssessmentQuestion} (nonempty : slots ≠ [])
    (built : membershipRows db org id slots = .ok rows) :
    SlotRows db org.orgId id rows ∧
      rows.map AssessmentQuestion.signature =
        slots.map AssessmentSlotIn.stored := by
  unfold membershipRows at built
  simp only [throw_bind, ite_throw_eq_ok, not_not] at built
  obtain ⟨questions, sets, collected⟩ := built
  obtain ⟨stored, ids, each⟩ := membershipRows_forall₂ (mapM_eq_ok collected)
  have fixed : rows.filterMap AssessmentQuestion.questionId =
      (rows.map AssessmentQuestion.signature).filterMap Prod.fst := by
    rw [List.filterMap_map]
    rfl
  have pooled : rows.filterMap AssessmentQuestion.variantSetId =
      (rows.map AssessmentQuestion.signature).filterMap Prod.snd := by
    rw [List.filterMap_map]
    rfl
  refine ⟨?_, stored⟩
  constructor
  · rintro rfl
    exact nonempty (List.map_eq_nil_iff.mp stored.symm)
  · rwa [fixed, stored, filterMap_fst_stored]
  · rw [pooled, stored]
    exact sets.sublist (filterMap_snd_stored slots)
  · intro row member
    obtain ⟨slot, index, isRow⟩ := each row member
    exact (membershipRow_eq_ok isRow).2.1
  · intro row member
    obtain ⟨slot, index, isRow⟩ := each row member
    have isStored := (membershipRow_eq_ok isRow).2.2.1
    have isOne := slot.stored_one
    rwa [← isStored] at isOne
  · intro row member
    obtain ⟨slot, index, isRow⟩ := each row member
    exact (membershipRow_eq_ok isRow).2.2.2.1
  · intro row member
    obtain ⟨slot, index, isRow⟩ := each row member
    exact (membershipRow_eq_ok isRow).2.2.2.2
  · exact ids

theorem createAssessment_commits {body : AssessmentIn}
    (asked : served.request = .member caller (.createAssessment body))
    (created :
      createAssessment deployment served.around db caller body = .ok after) :
    MemberCommits deployment served caller db after := by
  unfold createAssessment at created
  simp only [bind_eq_ok, Database.currentMembership_eq_ok,
    Database.organization_eq_ok] at created
  obtain ⟨current, _, org, ⟨_, seat⟩, organization, fetched, newId, _, rows,
    built, executed⟩ := created
  apply MemberCommits.seated seat
  obtain ⟨slotRows, stored⟩ := membershipRows_eq_ok body.slots_nonempty built
  apply Commits.of_execute executed
  exact .assessmentAdded _ rows rfl slotRows ⟨caller, body, asked, stored⟩
    ⟨organization, mem_of_fetch fetched, key_of_fetch fetched, rfl⟩

theorem updateAssessment_commits {body : AssessmentIn}
    (asked : served.request = .member caller (.updateAssessment id body))
    (updated : updateAssessment db caller id body = .ok after) :
    MemberCommits deployment served caller db after := by
  unfold updateAssessment at updated
  simp only [throw_bind, bind_eq_ok, ite_throw_eq_ok,
    Database.currentMembership_eq_ok, Database.ownedAssessment_eq_ok,
    not_and, Bool.not_eq_true] at updated
  obtain ⟨org, ⟨_, seat⟩, assessment, ⟨fetched, owned⟩, unsent,
    finished⟩ := updated
  apply MemberCommits.seated seat
  obtain rfl : assessment.id = id := key_of_fetch fetched
  have member := mem_of_fetch fetched
  split at finished
  · next changed =>
    simp only [bind_eq_ok] at finished
    obtain ⟨cleared, removed, rows, built, executed⟩ := finished
    obtain ⟨_, rfl⟩ := Database.execute_eq_ok.mp removed
    obtain ⟨slotRows, stored⟩ := membershipRows_eq_ok body.slots_nonempty built
    have uninvited : ∀ invite ∈ db.invites,
        invite.assessmentId ≠ some assessment.id := by
      have none' := unsent changed
      simpa [assessmentHasInvite] using none'
    apply Commits.of_execute executed
    exact .slotsReplaced body.title body.durationMinutes body.proctored rows
      member owned uninvited
      { slotRows with }
      ⟨caller, assessment.id, body, asked, stored⟩
  · exact Commits.of_execute finished
      (.assessmentEdited body.title body.durationMinutes body.proctored member
        owned)

theorem archiveAssessment_commits
    (archived : archiveAssessment db caller id = .ok after) :
    MemberCommits deployment served caller db after := by
  unfold archiveAssessment at archived
  simp only [bind_eq_ok, pure_eq_ok] at archived
  obtain ⟨_, _, _, _, rfl⟩ := archived
  exact .refused

theorem deleteAssessment_commits
    (deleted : deleteAssessment db caller id = .ok after) :
    MemberCommits deployment served caller db after := by
  unfold deleteAssessment at deleted
  simp only [throw_bind, bind_eq_ok, ite_throw_eq_ok,
    Database.currentMembership_eq_ok, Database.ownedAssessment_eq_ok,
    not_not] at deleted
  obtain ⟨org, ⟨_, seat⟩, assessment, ⟨fetched, owned⟩, uninvited,
    executed⟩ := deleted
  apply MemberCommits.seated seat
  obtain rfl : assessment.id = id := key_of_fetch fetched
  apply Commits.of_execute executed
  apply Change.assessmentDeleted (mem_of_fetch fetched) owned
  intro row member
  simpa using forall_of_filter_length_eq_zero uninvited row member

/-! ## Invites -/

theorem createInvite_commits {body : InviteCreate}
    (created :
      createInvite deployment served.around db caller id body = .ok after) :
    MemberCommits deployment served caller db after := by
  unfold createInvite at created
  simp only [bind_eq_ok, Database.currentMembership_eq_ok,
    Database.ownedQuestion_eq_ok] at created
  obtain ⟨_, _, current, _, org, ⟨_, seat⟩, question, ⟨fetched, owned⟩, _,
    _, executed⟩ := created
  apply MemberCommits.seated seat
  obtain rfl : question.id = id := key_of_fetch fetched
  apply Commits.of_execute executed
  apply Change.invitesAdded
  · rfl
  · intro invite isInvite
    obtain rfl := List.mem_singleton.mp isInvite
    refine ⟨rfl, ?_, by simp [newInvite]⟩
    exact .question question (mem_of_fetch fetched) owned rfl rfl rfl

theorem createAssessmentInvite_commits {body : InviteCreate}
    (asked : served.request = .member caller (.createAssessmentInvite id body))
    (created :
      createAssessmentInvite deployment served.around db caller id body =
        .ok after) :
    MemberCommits deployment served caller db after := by
  unfold createAssessmentInvite at created
  simp only [throw_bind, bind_eq_ok, ite_throw_eq_ok,
    Database.currentMembership_eq_ok,
    Database.ownedAssessment_eq_ok] at created
  obtain ⟨_, _, current, _, org, ⟨_, seat⟩, assessment, ⟨fetched, owned⟩,
    slotted, _, _, executed⟩ := created
  apply MemberCommits.seated seat
  obtain rfl : assessment.id = id := key_of_fetch fetched
  apply Commits.of_execute executed
  apply Change.invitesAdded
  · rfl
  · intro invite isInvite
    obtain rfl := List.mem_singleton.mp isInvite
    refine ⟨rfl, ?_, ?_⟩
    · exact .assessment assessment (mem_of_fetch fetched) owned slotted rfl rfl
        rfl
    · intro other isOther
      obtain rfl : assessment.id = other := by simpa using isOther
      exact ⟨caller, body, asked⟩

theorem chooseVariant_eq_ok {variants : List Question} {cursor next : Nat}
    {overrides : List (String × String)} {recipient email : String}
    {chosen : Question}
    (chose :
      chooseVariant variants overrides recipient email cursor =
        .ok (chosen, next)) :
    chosen ∈ variants := by
  unfold chooseVariant at chose
  dsimp only at chose
  split at chose
  · split at chose
    · simp at chose
    · next found =>
      cases pure_eq_ok.mp chose
      exact List.mem_of_find?_eq_some found
  · split at chose
    · simp at chose
    · next found =>
      cases pure_eq_ok.mp chose
      exact List.mem_of_getElem? found

theorem variantInvites_eq_ok {around : Surroundings}
    {variants : List Question} {body : VariantSetInviteCreate}
    {first drawn cursor : Nat} {recipients : List String}
    {invites : List Invite}
    (minted :
      variantInvites deployment around caller setId variants body first drawn
        cursor recipients = .ok invites) :
    invites.map Invite.id = List.range' (first + drawn) invites.length ∧
      ∀ invite ∈ invites, invite.status = .active ∧
        invite.assessmentId = none ∧ invite.variantSetId = some setId ∧
          ∃ chosen ∈ variants, invite.questionId = some chosen.id := by
  induction recipients generalizing drawn cursor invites with
  | nil =>
      obtain rfl := pure_eq_ok.mp minted
      simp
  | cons recipient rest inductionHypothesis =>
      simp only [variantInvites, bind_eq_ok, pure_eq_ok] at minted
      obtain ⟨⟨chosen, next⟩, chose, others, collected, rfl⟩ := minted
      obtain ⟨ids, each⟩ := inductionHypothesis collected
      constructor
      · simp only [List.map_cons, ids, List.length_cons, List.range'_succ]
        rfl
      · intro invite member
        rcases List.mem_cons.mp member with rfl | member
        · exact ⟨rfl, rfl, rfl, chosen, chooseVariant_eq_ok chose, rfl⟩
        · exact each invite member

theorem createVariantSetInvites_commits {body : VariantSetInviteCreate}
    (created :
      createVariantSetInvites deployment served.around db caller setId body =
        .ok after) :
    MemberCommits deployment served caller db after := by
  unfold createVariantSetInvites at created
  simp only [throw_bind, bind_eq_ok, ite_throw_eq_ok,
    Database.currentMembership_eq_ok,
    Database.ownedVariantSet_eq_ok] at created
  obtain ⟨_, _, current, _, org, ⟨_, seat⟩, set, ⟨fetched, owned⟩, _, _, _,
    invites, minted, executed⟩ := created
  apply MemberCommits.seated seat
  obtain rfl : set.id = setId := key_of_fetch fetched
  obtain ⟨ids, each⟩ := variantInvites_eq_ok minted
  apply Commits.of_execute executed
  apply Change.invitesAdded invites ids
  intro invite member
  obtain ⟨active, unassessed, isSet, chosen, isVariant, isChosen⟩ :=
    each invite member
  obtain ⟨isQuestion, inSet⟩ := mem_variantsOf.mp isVariant
  refine ⟨active, ?_, by simp [unassessed]⟩
  exact .variant chosen set isQuestion (mem_of_fetch fetched) owned inSet
    isChosen unassessed isSet

theorem revokeAnyInvite_commits
    (revoked : revokeAnyInvite db caller token = .ok after) :
    MemberCommits deployment served caller db after := by
  unfold revokeAnyInvite at revoked
  simp only [bind_eq_ok, Database.currentMembership_eq_ok] at revoked
  obtain ⟨org, ⟨_, seat⟩, finished⟩ := revoked
  apply MemberCommits.seated seat
  cases sent : fetch Invite.token token db.invites with
  | none => simp [sent] at finished
  | some invite =>
      simp only [sent, ne_eq, ite_throw_eq_ok, not_not] at finished
      obtain ⟨owned, executed⟩ := finished
      exact Commits.of_execute executed
        (.inviteRevoked (mem_of_fetch sent) (Or.inl owned))

theorem revokeInvite_commits
    (revoked : revokeInvite db caller id token = .ok after) :
    MemberCommits deployment served caller db after := by
  unfold revokeInvite at revoked
  simp only [bind_eq_ok, Database.currentMembership_eq_ok,
    Database.ownedQuestion_eq_ok] at revoked
  obtain ⟨org, ⟨_, seat⟩, question, ⟨fetched, owned⟩, finished⟩ := revoked
  apply MemberCommits.seated seat
  obtain rfl : question.id = id := key_of_fetch fetched
  cases sent : fetch Invite.token token db.invites with
  | none => simp [sent] at finished
  | some invite =>
      simp only [sent, ne_eq, ite_throw_eq_ok, not_not] at finished
      obtain ⟨targets, executed⟩ := finished
      exact Commits.of_execute executed
        (.inviteRevoked (mem_of_fetch sent)
          (Or.inr ⟨question, mem_of_fetch fetched, owned, targets⟩))

end AssessmentPlatform
