import AssessmentPlatform.Records.Sample
import AssessmentPlatform.Records.Slices

/-!
# A member's requests stay in the member's organisation

Every transaction on behalf of an organisation leaves the slice of every other
one as it is.
-/

namespace AssessmentPlatform

open Rows Refusals Database

variable {deployment : Deployment} {served : Served} {scope : Option Nat}
variable {db after : Database} {orgId otherId : Nat}

/-! ## One transaction -/

/-- Inserted rows of an organisation are no rows of another one. -/
theorem filter_append_of_org {Row : Type} {column : Row → Nat}
    {rows added : List Row} (isAdded : ∀ row ∈ added, column row = orgId)
    (other : orgId ≠ otherId) :
    (rows ++ added).filter (fun row => column row == otherId) =
      rows.filter fun row => column row == otherId := by
  apply filter_append_of_forall
  intro row member
  rw [isAdded row member]
  exact beq_eq_false_iff_ne.mpr other

/-- A saved row of an organisation is no row of another one. -/
theorem filter_save_of_org {Row Key : Type} [DecidableEq Key]
    {key : Row → Key} {column : Row → Nat} {rows : List Row} {was saved : Row}
    (keyed : Keyed key rows) (member : was ∈ rows)
    (isKey : key was = key saved) (isWas : column was = orgId)
    (isSaved : column saved = orgId) (other : orgId ≠ otherId) :
    (save key saved rows).filter (fun row => column row == otherId) =
      rows.filter fun row => column row == otherId := by
  apply filter_updateWhere
  intro row isRow sameKey
  obtain rfl := keyed.eq isRow member
    ((beq_iff_eq.mp sameKey).trans isKey.symm)
  rw [isWas, isSaved]
  exact ⟨beq_eq_false_iff_ne.mpr other, beq_eq_false_iff_ne.mpr other⟩

theorem filter_deleteWhere_of_org {Row : Type} {column : Row → Nat}
    {matched : Row → Bool} {rows : List Row}
    (isDeleted : ∀ row ∈ rows, matched row → column row = orgId)
    (other : orgId ≠ otherId) :
    (deleteWhere matched rows).filter (fun row => column row == otherId) =
      rows.filter fun row => column row == otherId := by
  apply filter_deleteWhere
  intro row member isMatched
  rw [isDeleted row member isMatched]
  exact beq_eq_false_iff_ne.mpr other

/-- Rows of the other organisations are seen among them. -/
theorem filter_of_others {Row : Type} {column : Row → Nat}
    {rows changed : List Row}
    (same : changed.filter (fun row => column row ≠ orgId) =
      rows.filter fun row => column row ≠ orgId)
    (other : orgId ≠ otherId) :
    changed.filter (fun row => column row == otherId) =
      rows.filter fun row => column row == otherId := by
  have among (rows : List Row) :
      (rows.filter fun row => column row ≠ orgId).filter
          (fun row => column row == otherId) =
        rows.filter fun row => column row == otherId := by
    rw [List.filter_filter]
    apply List.filter_congr
    intro row _
    by_cases isRow : column row = otherId
    · simp [isRow, other.symm]
    · simp [isRow]
  rw [← among changed, same, among]

/-- A row that was not there is nobody's. -/
theorem ownsQuestion_new {id : String}
    (fresh : ∀ question ∈ db.questions, question.id ≠ id) :
    db.ownsQuestion otherId id = false := by
  rw [Bool.eq_false_iff]
  intro owned
  simp only [Database.ownsQuestion, List.any_eq_true, Bool.and_eq_true,
    beq_iff_eq] at owned
  obtain ⟨question, member, isKey, _⟩ := owned
  exact fresh question member isKey

theorem ownsAssessment_new {id : String}
    (fresh : ∀ assessment ∈ db.assessments, assessment.id ≠ id) :
    db.ownsAssessment otherId id = false := by
  rw [Bool.eq_false_iff]
  intro owned
  simp only [Database.ownsAssessment, List.any_eq_true, Bool.and_eq_true,
    beq_iff_eq] at owned
  obtain ⟨assessment, member, isKey, _⟩ := owned
  exact fresh assessment member isKey

/-- What is inserted under a new question is nobody's. -/
theorem filter_append_questions {questions : List Question}
    {added : List QuestionTestCase}
    (keyed : Keyed Question.id (db.questions ++ questions))
    (under : ∀ testCase ∈ added,
      ∃ question ∈ questions, question.id = testCase.questionId) :
    (db.testCases ++ added).filter
        (fun row => db.ownsQuestion otherId row.questionId) =
      db.testCases.filter fun row =>
        db.ownsQuestion otherId row.questionId := by
  apply filter_append_of_forall
  intro testCase member
  obtain ⟨question, isNew, isKey⟩ := under testCase member
  rw [← isKey]
  exact ownsQuestion_new fun old isOld => keyed.ne_of_append isOld isNew

theorem filter_append_assessment {assessment : Assessment}
    {added : List AssessmentQuestion}
    (keyed : Keyed Assessment.id (db.assessments ++ [assessment]))
    (under : ∀ slot ∈ added, slot.assessmentId = assessment.id) :
    (db.slots ++ added).filter
        (fun row => db.ownsAssessment otherId row.assessmentId) =
      db.slots.filter fun row =>
        db.ownsAssessment otherId row.assessmentId := by
  apply filter_append_of_forall
  intro slot member
  rw [under slot member]
  exact ownsAssessment_new fun old isOld =>
    keyed.ne_of_append isOld (List.mem_singleton_self _)

theorem InviteTarget.targets {invite : Invite}
    (target : InviteTarget db orgId invite) (tenancy : Tenancy db) :
    db.targets orgId invite := by
  cases target with
  | question question member isOrg isFor =>
      simp [Database.targets, isFor, ownsQuestion_of_mem member isOrg]
  | variant question set member isSet isOrg isVariant isFor =>
      have inOrg : question.orgId = orgId :=
        (tenancy.questionSet question member set isSet isVariant).trans isOrg
      simp [Database.targets, isFor, ownsQuestion_of_mem member inOrg]
  | assessment assessment member isOrg _ _ isFor =>
      simp [Database.targets, isFor, ownsAssessment_of_mem member isOrg]

/-- The submissions that an erasure selects are the organisation's. -/
theorem ownsSubmission_of_erasable (sound : Sound db) {email id : String}
    (erasable : id ∈ erasableSubmissions db orgId email) :
    db.ownsSubmission orgId id := by
  have keys := sound.constraints.uniqueKeys
  obtain ⟨row, selected, rfl⟩ := List.mem_map.mp erasable
  simp only [List.mem_filter, Bool.and_eq_true, Bool.or_eq_true,
    beq_iff_eq] at selected
  obtain ⟨member, _, owned⟩ := selected
  rw [ownsSubmission_iff_collects keys member]
  rcases owned with onQuestion | onInvite
  · exact (collects_iff sound member).mpr onQuestion
  · cases named : row.inviteId with
    | none => simp [named] at onInvite
    | some inviteId =>
        rw [named, Option.any_some, List.contains_iff_mem,
          mem_orgInviteIds keys] at onInvite
        simp [collects, named, onInvite]

/-- An erasure on the invites of an organisation stays there. -/
theorem sameSlice_erase (sound : Sound db) (other : orgId ≠ otherId)
    {inviteIds : List Nat} {submissionIds : List String}
    (invites : ∀ id ∈ inviteIds, db.ownsInvite orgId id)
    (submissions : ∀ id ∈ submissionIds, db.ownsSubmission orgId id)
    (now : Time) (pseudonym email : String) :
    SameSlice otherId db
      (erase now pseudonym email inviteIds submissionIds db) := by
  have keys := sound.constraints.uniqueKeys
  have onInvite {inviteId : Nat} {address : String}
      (isMatched : inviteIds.contains inviteId && address == email) :
      db.ownsInvite otherId inviteId = false := by
    rw [Bool.and_eq_true, List.contains_iff_mem] at isMatched
    exact ownsInvite_apart sound (invites inviteId isMatched.1) other
  refine { SameSlice.refl otherId db with
    invites := filter_updateWhere ?_
    attempts := filter_updateWhere ?_
    slotVariants := filter_updateWhere ?_
    events := filter_updateWhere ?_
    drafts := filter_deleteWhere ?_
    feedback := filter_deleteWhere ?_
    submissions := filter_updateWhere ?_
    results := filter_updateWhere ?_ }
  · intro row member isMatched
    have owned := invites row.id (List.contains_iff_mem.mp isMatched)
    rw [ownsInvite_iff_targets keys member] at owned
    have notTheirs := targets_apart keys (sound.tenancy.inviteOne row member)
      owned other
    exact ⟨notTheirs, notTheirs⟩
  · intro row _ isMatched
    exact ⟨onInvite isMatched, onInvite isMatched⟩
  · intro row _ isMatched
    exact ⟨onInvite isMatched, onInvite isMatched⟩
  · intro row _ isMatched
    exact ⟨onInvite isMatched, onInvite isMatched⟩
  · intro row _ isMatched
    exact onInvite isMatched
  · intro row member isMatched
    simp only [List.any_eq_true, Bool.and_eq_true, beq_iff_eq,
      List.contains_iff_mem] at isMatched
    obtain ⟨attempt, isAttempt, isKey, listed, _⟩ := isMatched
    rw [beq_eq_false_iff_ne]
    rintro rfl
    have notTheirs :=
      ownsInvite_apart sound (invites attempt.inviteId listed) other
    rw [ownsInvite_of_feedback sound member isAttempt isKey] at notTheirs
    cases notTheirs
  · intro row member isMatched
    have owned := submissions row.id (List.contains_iff_mem.mp isMatched)
    rw [ownsSubmission_iff_collects keys member] at owned
    have notTheirs := collects_apart sound member owned other
    exact ⟨notTheirs, notTheirs⟩
  · intro row _ isMatched
    have notTheirs := ownsSubmission_apart sound
      (submissions row.submissionId (List.contains_iff_mem.mp isMatched)) other
    exact ⟨notTheirs, notTheirs⟩

theorem testCaseRows_question {questionId : String} {first count : Nat}
    {testCase : QuestionTestCase}
    (member : testCase ∈ testCaseRows questionId first count) :
    testCase.questionId = questionId := by
  obtain ⟨index, _, rfl⟩ := List.mem_map.mp member
  rfl

/-- On behalf of an organisation, nothing of another one changes. -/
theorem Change.sameSlice
    (change : Change deployment served (some orgId) db after)
    (sound : Sound db) (next : after.Constraints) (other : orgId ≠ otherId) :
    SameSlice otherId db after := by
  have keys := sound.constraints.uniqueKeys
  have refers := sound.constraints.foreignKeys
  have unique := next.uniqueKeys
  cases change with
  | roleSet role target =>
      obtain ⟨member, isOrg, _⟩ := memberOf_eq_some target
      exact { SameSlice.refl otherId db with
        memberships :=
          filter_save_of_org keys.membership member rfl isOrg isOrg other }
  | memberRemoved target =>
      obtain ⟨member, isOrg, _⟩ := memberOf_eq_some target
      refine { SameSlice.refl otherId db with
        memberships := filter_deleteWhere_of_org ?_ other }
      intro row isRow isMatched
      rw [keys.membership.eq isRow member (beq_iff_eq.mp isMatched)]
      exact isOrg
  | orgInvited invite isKey isOrg =>
      refine { SameSlice.refl otherId db with
        orgInvites := ?_ }
      rw [filter_append_of_org (by simpa using isOrg) other]
      apply filter_deleteWhere_of_org _ other
      intro row _ isMatched
      simp only [Bool.and_eq_true, beq_iff_eq] at isMatched
      exact isMatched.1.1
  | orgInviteRevoked member isOrg =>
      refine { SameSlice.refl otherId db with
        orgInvites := filter_deleteWhere_of_org ?_ other }
      intro row isRow isMatched
      rw [keys.orgInvite.eq isRow member (beq_iff_eq.mp isMatched)]
      exact isOrg
  | settings row assets nextId isRow later kept =>
      refine { SameSlice.refl otherId db with
        organizations := ?_
        assets := ?_ }
      · apply filter_updateWhere
        intro old _ isMatched
        rw [beq_iff_eq.mp isMatched, isRow]
        exact ⟨beq_eq_false_iff_ne.mpr other, beq_eq_false_iff_ne.mpr other⟩
      · exact filter_of_others kept other
  | questionAdded question testCases isOrg =>
      exact { SameSlice.refl otherId db with
        questions := filter_append_of_org (by simpa using isOrg) other
        testCases := filter_append_questions unique.question
          fun testCase member => ⟨question, List.mem_singleton_self _,
            (testCaseRows_question member).symm⟩ }
  | setAdded set questions testCases nextId isOrg later isQuestion under =>
      exact { SameSlice.refl otherId db with
        variantSets := filter_append_of_org (by simpa using isOrg) other
        questions := filter_append_of_org
          (fun question member => (isQuestion question member).1) other
        testCases := filter_append_questions unique.question under }
  | @questionEdited _ _ question title durationMinutes testCases member isOrg =>
      have owned := ownsQuestion_of_mem member isOrg
      refine { SameSlice.refl otherId db with
        questions :=
          filter_save_of_org keys.question member rfl isOrg isOrg other
        testCases := ?_ }
      rw [filter_append_of_forall, filter_deleteWhere]
      · intro row _ isMatched
        rw [beq_iff_eq.mp isMatched]
        exact ownsQuestion_apart keys owned other
      · intro row isRow
        rw [testCaseRows_question isRow]
        exact ownsQuestion_apart keys owned other
  | @questionDeleted _ _ question member isOrg =>
      have owned := ownsQuestion_of_mem member isOrg
      refine { SameSlice.refl otherId db with
        questions := ?_
        testCases := ?_
        invites := ?_
        drafts := ?_ }
      · apply filter_deleteWhere_of_org _ other
        intro row isRow isMatched
        rw [keys.question.eq isRow member (beq_iff_eq.mp isMatched)]
        exact isOrg
      · apply filter_deleteWhere
        intro row _ isMatched
        rw [beq_iff_eq.mp isMatched]
        exact ownsQuestion_apart keys owned other
      · apply filter_deleteWhere
        intro row isRow isMatched
        apply targets_apart keys (sound.tenancy.inviteOne row isRow) _ other
        simp [targets, beq_iff_eq.mp isMatched, owned]
      · apply filter_deleteWhere
        intro row isRow isMatched
        obtain ⟨invite, isInvite, isKey⟩ := refers.draftInvite row isRow _ rfl
        have belongs := sound.tenancy.draft row isRow invite isInvite isKey
          question member (beq_iff_eq.mp isMatched).symm
        rw [isOrg] at belongs
        rw [← isKey]
        exact ownsInvite_apart sound
          (ownsInvite_of_belongs sound isInvite belongs) other
  | assessmentAdded assessment slots isOrg rows =>
      exact { SameSlice.refl otherId db with
        assessments := filter_append_of_org (by simpa using isOrg) other
        slots := filter_append_assessment unique.assessment rows.assessment }
  | assessmentEdited title durationMinutes proctored member isOrg =>
      exact { SameSlice.refl otherId db with
        assessments :=
          filter_save_of_org keys.assessment member rfl isOrg isOrg other }
  | slotsReplaced title durationMinutes proctored slots member isOrg _ rows =>
      have owned := ownsAssessment_of_mem member isOrg
      refine { SameSlice.refl otherId db with
        assessments :=
          filter_save_of_org keys.assessment member rfl isOrg isOrg other
        slots := ?_ }
      rw [filter_append_of_forall, filter_deleteWhere]
      · intro row _ isMatched
        rw [beq_iff_eq.mp isMatched]
        exact ownsAssessment_apart keys owned other
      · intro row isRow
        rw [rows.assessment row isRow]
        exact ownsAssessment_apart keys owned other
  | assessmentDeleted member isOrg =>
      have owned := ownsAssessment_of_mem member isOrg
      refine { SameSlice.refl otherId db with
        assessments := ?_
        slots := ?_ }
      · apply filter_deleteWhere_of_org _ other
        intro row isRow isMatched
        rw [keys.assessment.eq isRow member (beq_iff_eq.mp isMatched)]
        exact isOrg
      · apply filter_deleteWhere
        intro row _ isMatched
        rw [beq_iff_eq.mp isMatched]
        exact ownsAssessment_apart keys owned other
  | invitesAdded invites isKey isInvite =>
      refine { SameSlice.refl otherId db with
        invites := filter_append_of_forall ?_ }
      intro invite member
      have target := (isInvite invite member).2.1
      exact targets_apart keys target.one (target.targets sound.tenancy) other
  | @inviteRevoked _ _ invite member isOrg =>
      have single := sound.tenancy.inviteOne invite member
      have owned : db.targets orgId invite := by
        rcases isOrg with isOrg | ⟨question, isQuestion, isOrg, named⟩
        · exact (targets_iff keys single).mpr isOrg
        · simp [targets, named, ownsQuestion_of_mem isQuestion isOrg]
      have notTheirs := targets_apart keys single owned other
      refine { SameSlice.refl otherId db with
        invites := filter_updateWhere ?_ }
      intro row isRow isMatched
      obtain rfl := keys.invite.eq isRow member (beq_iff_eq.mp isMatched)
      exact ⟨notTheirs, notTheirs⟩
  | submittedDirectly sub member isOrg isQuestion noInvite =>
      have owned := ownsQuestion_of_mem member isOrg
      refine { SameSlice.refl otherId db with
        submissions := filter_append_of_forall ?_ }
      intro row isRow
      obtain rfl := List.mem_singleton.mp isRow
      simp [collects, isQuestion, noInvite,
        ownsQuestion_apart keys owned other]
  | regraded matched change kept within =>
      refine { SameSlice.refl otherId db with
        submissions := filter_updateWhere ?_ }
      intro row isRow isMatched
      have notTheirs : db.collects otherId row = false := by
        apply collects_apart sound isRow _ other
        exact (collects_iff sound isRow).mpr (within orgId rfl row isRow isMatched)
      constructor
      · exact notTheirs
      · unfold collects at notTheirs ⊢
        rw [kept.questionId, kept.inviteId]
        exact notTheirs
  | stamped matched change kept within =>
      refine { SameSlice.refl otherId db with
        attempts := filter_updateWhere ?_ }
      intro row isRow isMatched
      rw [kept.inviteId, and_self]
      obtain ⟨invite, isInvite, isKey⟩ := refers.attemptInvite row isRow _ rfl
      apply ownsInvite_apart sound _ other
      rw [ownsInvite_iff sound, ← isKey, inviteOwner_eq keys isInvite]
      exact within orgId rfl row isRow isMatched invite isInvite isKey
  | metered usage within =>
      exact { SameSlice.refl otherId db with
        usage := filter_of_others (within orgId rfl) other }
  | erased drawn email inviteIds submissionIds asks within =>
      obtain ⟨rfl, rfl⟩ := within orgId rfl
      exact sameSlice_erase sound other
        (fun _ listed => (mem_orgInviteIds keys).mp listed)
        (fun _ selected => ownsSubmission_of_erasable sound selected) _ _ _

/-! ## Requests -/

/-- Transactions on behalf of an organisation leave the other slices. -/
theorem Commits.slice_eq
    (commits : Commits deployment served (some orgId) db after)
    (sound : Sound db) (other : orgId ≠ otherId) :
    after.slice otherId = db.slice otherId := by
  have both : Sound after ∧ after.slice otherId = db.slice otherId := by
    induction commits with
    | refl => exact ⟨sound, rfl⟩
    | tail _ last inductionHypothesis =>
        obtain ⟨here, same⟩ := inductionHypothesis
        have kept := last.change.sameSlice here last.constraints other
        exact ⟨last.change.sound here last.constraints,
          kept.slice_eq.trans same⟩
  exact both.2

variable {caller : Nat} {membership : Membership}

theorem MemberCommits.slice_eq
    (commits : MemberCommits deployment served caller db after)
    (sound : Sound db) (seat : db.membershipFor caller = some membership)
    (other : membership.orgId ≠ otherId) :
    after.slice otherId = db.slice otherId := by
  cases commits with
  | refused => rfl
  | seated isSeat commits =>
      rw [seat] at isSeat
      obtain rfl := Option.some.inj isSeat
      exact commits.slice_eq sound other

theorem Sound.submissionsMatch (sound : Sound db) : SubmissionsMatch db := by
  intro row member inviteId named invite isInvite isKey
  rw [← inviteOwner_eq sound.constraints.uniqueKeys isInvite, isKey]
  exact submission_owner sound member named

/-- An account that leaves with its seat. -/
theorem Database.Left.slice_eq (left : Left db caller after)
    (sound : Sound db) (seat : db.membershipFor caller = some membership)
    (other : membership.orgId ≠ otherId) :
    after.slice otherId = db.slice otherId := by
  cases left with
  | seatless seatless => rfl
  | shared isSeat guarded =>
      have member := mem_of_membershipFor seat
      have isCaller := interviewerId_of_membershipFor seat
      have same : SameSlice otherId db { db with
          memberships := deleteWhere
            (fun row => row.interviewerId == caller) db.memberships } := by
        refine { SameSlice.refl otherId db with
          memberships := filter_deleteWhere_of_org ?_ other }
        intro row isRow isMatched
        rw [sound.constraints.uniqueKeys.membershipInterviewer.eq isRow member
          ((beq_iff_eq.mp isMatched).trans isCaller.symm)]
      exact same.slice_eq
  | last isSeat alone =>
      rw [seat] at isSeat
      obtain rfl := Option.some.inj isSeat
      exact (sameSlice_purged sound other).slice_eq

/-- The requests of an account that is signed in. -/
def ApiRequest.isSignedIn (caller : Nat) : ApiRequest → Prop
  | .account _ => True
  | .member asking _ => asking = caller
  | _ => False

/-- What a request of an account with a seat elsewhere may leave of an
organisation's rows. -/
inductive Leaves (deployment : Deployment) (around : Surroundings)
    (db : Database) (caller otherId : Nat) : ApiRequest → Database → Prop where
  | same {request : ApiRequest} :
      Leaves deployment around db caller otherId request (db.slice otherId)
  | disowned {password : String} :
      Leaves deployment around db caller otherId
        (.member caller (.deleteMe password))
        ((db.slice otherId).disown caller)
  | joined {token : String} {account : Interviewer} {invite : OrgInvite} :
      account ∈ db.interviewers → account.id = caller →
      invite ∈ db.orgInvites → invite.token = token →
      invite.orgId = otherId → invite.acceptedAt = none →
      deployment.auth.normalizeEmail account.email = invite.email →
      Leaves deployment around db caller otherId
        (.member caller (.acceptOrgInvite token))
        { db.slice otherId with
          memberships := (db.slice otherId).memberships ++
            [{ id := db.nextId
               orgId := otherId
               interviewerId := caller
               role := invite.role
               invitedBy := invite.invitedBy }]
          orgInvites :=
            save OrgInvite.id { invite with acceptedAt := some around.now }
              (db.slice otherId).orgInvites }

theorem deleteMe_leaves {password : String} {around : Surroundings}
    (deleted : deleteMe deployment db caller password = .ok after)
    (sound : Sound db) (seat : db.membershipFor caller = some membership)
    (other : membership.orgId ≠ otherId) :
    Leaves deployment around db caller otherId
      (.member caller (.deleteMe password)) (after.slice otherId) := by
  unfold deleteMe at deleted
  simp only [throw_bind, bind_eq_ok, ite_throw_eq_ok,
    Database.currentInterviewer_eq_ok] at deleted
  obtain ⟨current, found, _, purged⟩ := deleted
  have isCaller : current.id = caller := key_of_fetch found
  rw [isCaller] at purged
  obtain ⟨left, leaving, rfl⟩ := purgeAccount_left purged
  have rows : ({ left.disown caller with
      interviewers := deleteWhere (fun row => row.id == caller)
        left.interviewers } : Database).slice otherId =
        (db.slice otherId).disown caller := by
    rw [← leaving.slice_eq sound seat other, ← slice_disown]
    rfl
  rw [rows]
  exact .disowned

/-- A seat in an organisation is nothing to the other ones. -/
theorem slice_joinOrg_of_ne {around : Surroundings} {invite : OrgInvite}
    (keyed : Keyed OrgInvite.id db.orgInvites)
    (member : invite ∈ db.orgInvites) (other : invite.orgId ≠ otherId) :
    (joinOrg around db caller invite).slice otherId = db.slice otherId := by
  have same : SameSlice otherId db (joinOrg around db caller invite) :=
    { SameSlice.refl otherId db with
      memberships :=
        filter_append_of_org (fun _ isSeat => by simp_all) other
      orgInvites := filter_save_of_org keyed member rfl rfl rfl other }
  exact same.slice_eq

theorem slice_joinOrg {around : Surroundings} {invite : OrgInvite}
    (keyed : Keyed OrgInvite.id db.orgInvites)
    (member : invite ∈ db.orgInvites) :
    (joinOrg around db caller invite).slice invite.orgId =
      { db.slice invite.orgId with
        memberships := (db.slice invite.orgId).memberships ++
          [{ id := db.nextId
             orgId := invite.orgId
             interviewerId := caller
             role := invite.role
             invitedBy := invite.invitedBy }]
        orgInvites :=
          save OrgInvite.id { invite with acceptedAt := some around.now }
            (db.slice invite.orgId).orgInvites } := by
  unfold Database.slice joinOrg
  congr 1
  · simp
  · apply filter_updateWhere_comm
    intro row isRow isMatched
    rw [keyed.eq isRow member (beq_iff_eq.mp isMatched)]

theorem openOrgInvite_token {token : String} {around : Surroundings}
    {invite : OrgInvite} (opened : openOrgInvite around db token = .ok invite) :
    invite.token = token := by
  unfold openOrgInvite at opened
  split at opened
  · exact absurd opened throw_ne_ok
  · next row found =>
    simp only [ite_throw_eq_ok, pure_eq_ok] at opened
    obtain ⟨_, rfl⟩ := opened
    exact key_of_fetch found

theorem acceptOrgInvite_leaves {token : String} {around : Surroundings}
    (accepted :
      acceptOrgInvite deployment around db caller token = .ok after)
    (sound : Sound db) (seat : db.membershipFor caller = some membership)
    (other : membership.orgId ≠ otherId) :
    Leaves deployment around db caller otherId
      (.member caller (.acceptOrgInvite token)) (after.slice otherId) := by
  unfold acceptOrgInvite at accepted
  simp only [throw_bind, bind_eq_ok, ite_throw_eq_ok,
    Database.currentInterviewer_eq_ok, not_not] at accepted
  obtain ⟨current, found, invite, opened, addressed, elsewhere, _, _, _,
    finished⟩ := accepted
  obtain ⟨member, pending⟩ := openOrgInvite_eq_ok opened
  have isCaller : current.id = caller := key_of_fetch found
  rw [isCaller, seat] at finished elsewhere
  obtain ⟨left, gaveUp, joined⟩ := bind_eq_ok.mp finished
  obtain ⟨_, rfl⟩ := execute_eq_ok.mp joined
  obtain ⟨rfl, _⟩ := leaveEmptyOrg_eq_ok gaveUp
  have rest := (sameSlice_purged sound other).slice_eq
  have isElsewhere : membership.orgId ≠ invite.orgId := by
    simpa using elsewhere
  have isLeft : invite ∈ (db.purged membership.orgId).orgInvites :=
    mem_deleteWhere.mpr ⟨member, by simpa using isElsewhere.symm⟩
  have keyed : Keyed OrgInvite.id (db.purged membership.orgId).orgInvites :=
    sound.constraints.uniqueKeys.orgInvite.deleteWhere
  by_cases isTheirs : invite.orgId = otherId
  · subst isTheirs
    rw [slice_joinOrg keyed isLeft, rest]
    exact .joined (mem_of_fetch found) isCaller member
      (openOrgInvite_token opened) rfl pending addressed
  · rw [slice_joinOrg_of_ne keyed isLeft isTheirs, rest]
    exact .same

theorem lastly_leaves {request : ApiRequest} {around : Surroundings}
    {handled : Except HTTPException Database}
    (leaves : ∀ after, handled = .ok after →
      Leaves deployment around db caller otherId request
        (after.slice otherId)) :
    Leaves deployment around db caller otherId request
      ((lastly db handled).1.slice otherId) := by
  cases handled with
  | error _ => exact .same
  | ok after => exact leaves after rfl

theorem serveMember_leaves {around : Surroundings} {request : MemberRequest}
    (sound : Sound db) (seat : db.membershipFor caller = some membership)
    (other : membership.orgId ≠ otherId) :
    Leaves deployment around db caller otherId (.member caller request)
      ((serveMember deployment around db caller request).1.slice otherId) := by
  by_cases moves : request.moves
  · cases request with
    | deleteMe password =>
        apply lastly_leaves
        intro after deleted
        exact deleteMe_leaves deleted sound seat other
    | createOrg name =>
        apply lastly_leaves
        intro after created
        unfold createOrg at created
        simp only [throw_bind, bind_eq_ok, ite_throw_eq_ok,
          currentInterviewer_eq_ok] at created
        obtain ⟨current, found, seatless, _⟩ := created
        rw [key_of_fetch found, seat] at seatless
        exact absurd rfl seatless
    | acceptOrgInvite token =>
        apply lastly_leaves
        intro after accepted
        exact acceptOrgInvite_leaves accepted sound seat other
    | _ => cases moves
  · have commits : MemberCommits deployment
        ⟨around, .member caller request, db⟩ caller db
        (serveMember deployment around db caller request).1 :=
      serveMember_commits rfl (by simpa using moves) sound.constraints
        fun _ _ => sound.submissionsMatch
    rw [commits.slice_eq sound seat other]
    exact .same

/-- Tenant isolation: whatever an account with a seat in one organisation asks
for, the rows of every other organisation stay as they are, except that the
account is cut out of them when it is deleted, and that it gets the seat which
an invitation to its address offers when it accepts. -/
theorem tenants_isolated {trace : List Served} (run : Run deployment trace db)
    (seat : db.membershipFor caller = some membership)
    (other : membership.orgId ≠ otherId) (around : Surroundings)
    (request : ApiRequest) (asks : request.isSignedIn caller) :
    Leaves deployment around db caller otherId request
      ((serve deployment around db request).1.slice otherId) := by
  cases request with
  | account asked =>
      apply lastly_leaves
      intro after answered
      unfold serveAccount at answered
      obtain ⟨⟨interviewers, reply⟩, _, executed⟩ := bind_eq_ok.mp answered
      obtain ⟨_, rfl⟩ := execute_eq_ok.mp executed
      exact .same
  | member asking asked =>
      obtain rfl : asking = caller := asks
      exact serveMember_leaves run.sound seat other
  | _ => cases asks

namespace Scenario

/-- Two organisations, the first one with a question. -/
def neighbours : List Asked :=
  [registers, createsQuestion 'b' "qa",
    (surroundings 1 'c',
      .register ⟨"b@x", "long enough pw", "Bob", none, none⟩)]

end Scenario

open Scenario in
/-- Deleting the question of the neighbours does nothing to them. -/
theorem tenants_isolated_neighbours :
    Leaves Scenario.deployment (surroundings 2 'd') (play neighbours).2 9 2
      (.member 9 (.deleteQuestion "qa"))
      ((serve Scenario.deployment (surroundings 2 'd') (play neighbours).2
        (.member 9 (.deleteQuestion "qa"))).1.slice 2) :=
  tenants_isolated (run_play neighbours)
    (by decide : _ = some (⟨11, 10, 9, .admin, none⟩ : Membership))
    (by decide) _ _ rfl

end AssessmentPlatform
