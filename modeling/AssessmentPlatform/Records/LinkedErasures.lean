import AssessmentPlatform.Records.Erasure

/-!
# Which submissions an erasure takes along

`_erase` is told its invites and its submissions apart.  The requests that
erase always pass two lists that fit: the submissions are those that came from
the address by one of the invites.
-/

namespace AssessmentPlatform

open Rows Refusals Database

variable {deployment : Deployment} {served : Served}
variable {db after : Database}

/-! ## Lists that fit -/

/-- The submissions of an erasure are those that came from the address by one
of its invites, and others from the address. -/
structure Linked (db : Database) (email : String) (inviteIds : List Nat)
    (submissionIds : List String) : Prop where
  sentBy : SentBy db email submissionIds
  taken : ∀ row ∈ db.submissions, ∀ inviteId ∈ row.inviteId,
    row.candidateEmail = some email →
      (row.id ∈ submissionIds ↔ inviteId ∈ inviteIds)

/-- What a request that erases does to the tables at a time. -/
inductive LinkedErasure (around : Surroundings) (db : Database) :
    Database → Prop where
  | erased (pseudonym email : String) (inviteIds : List Nat)
      (submissionIds : List String) :
      Linked db email inviteIds submissionIds →
      LinkedErasure around db
        (erase around.now pseudonym email inviteIds submissionIds db)
  | recipientsDropped (matched : Invite → Bool) (change : Invite → Invite) :
      KeepsInvite change →
      LinkedErasure around db { db with
        invites := updateWhere matched change db.invites }

/-- A transaction; one that erases takes lists that fit. -/
structure LinkedChange (deployment : Deployment) (served : Served)
    (db after : Database) : Prop where
  committed : ∃ scope, Committed deployment served scope db after
  linked : served.request.erases → LinkedErasure served.around db after

/-- The lists of `erase_candidate` fit. -/
theorem linked_erasable (sound : Sound db) (orgId : Nat) (email : String) :
    Linked db email (db.orgInviteIds orgId)
      (erasableSubmissions db orgId email) where
  sentBy := sentBy_erasable sound.constraints.uniqueKeys orgId email
  taken row member inviteId named isAddress := by
    have keys := sound.constraints.uniqueKeys
    rw [mem_orgInviteIds keys]
    constructor
    · intro selected
      have owned := ownsSubmission_of_erasable sound selected
      rw [ownsSubmission_iff_collects keys member, collects_iff sound member,
        ← submission_owner sound member named] at owned
      exact (ownsInvite_iff sound).mpr owned
    · intro owned
      apply mem_erasableSubmissions sound member _ isAddress
      rw [collects_iff sound member, ← submission_owner sound member named]
      exact (ownsInvite_iff sound).mp owned

/-- The lists of `erase_sitting` fit. -/
theorem linked_sitting (keys : db.UniqueKeys) (inviteId : Nat)
    (email : String) :
    Linked db email [inviteId]
      ((db.submissions.filter fun row =>
        row.inviteId == some inviteId &&
          row.candidateEmail == some email).map Submission.id) := by
  have selected {row : Submission} (member : row ∈ db.submissions) :
      row.id ∈ (db.submissions.filter fun row =>
          row.inviteId == some inviteId &&
            row.candidateEmail == some email).map Submission.id ↔
        row.inviteId = some inviteId ∧ row.candidateEmail = some email := by
    constructor
    · intro isSelected
      obtain ⟨found, isFound, same⟩ := List.mem_map.mp isSelected
      simp only [List.mem_filter, Bool.and_eq_true, beq_iff_eq] at isFound
      rw [← keys.submission.eq isFound.1 member same]
      exact isFound.2
    · intro matched
      apply List.mem_map_of_mem
      simp [member, matched]
  constructor
  · intro row member isSelected
    exact ((selected member).mp (List.contains_iff_mem.mp isSelected)).2
  · intro row member other named isAddress
    rw [selected member, List.mem_singleton, Option.mem_def.mp named]
    simp [isAddress]

/-! ## The requests that erase -/

theorem LinkedChange.of_execute {scope : Option Nat} {result : Database}
    (executed : after.execute = .ok result)
    (change : Change deployment served scope db after)
    (linked : LinkedErasure served.around db after) :
    LinkedChange deployment served db result := by
  obtain ⟨constraints, rfl⟩ := Database.execute_eq_ok.mp executed
  exact ⟨⟨scope, change, constraints⟩, fun _ => linked⟩

abbrev LinkedChanges (deployment : Deployment) (served : Served) :
    Database → Database → Prop :=
  Relation.ReflTransGen (LinkedChange deployment served)

theorem LinkedChanges.constraints
    (changes : LinkedChanges deployment served db after)
    (constraints : db.Constraints) : after.Constraints := by
  cases changes with
  | refl => exact constraints
  | tail _ last =>
      obtain ⟨_, committed⟩ := last.committed
      exact committed.constraints

theorem eraseCandidateData_linked {caller : Nat} {email : String}
    (sound : Sound db)
    (asked : served.request = .member caller (.eraseCandidateData email))
    (erased : eraseCandidateData deployment served.around caller email db =
      .ok after) : LinkedChange deployment served db after := by
  unfold eraseCandidateData at erased
  simp only [bind_eq_ok, Database.currentMembership_eq_ok] at erased
  obtain ⟨org, _, _, _, executed⟩ := erased
  have change : Change deployment served (some org.orgId) db _ :=
    .erased 0 (deployment.auth.normalizeEmail email) (db.orgInviteIds org.orgId)
      (erasableSubmissions db org.orgId (deployment.auth.normalizeEmail email))
      (asked ▸ trivial) fun orgId isScope => by
        obtain rfl := Option.some.inj isScope
        exact ⟨rfl, rfl⟩
  exact .of_execute executed change
    (.erased _ _ _ _ (linked_erasable sound org.orgId _))

theorem eraseSittings_linked {sittings : List (Nat × String)} {drawn : Nat}
    (constraints : db.Constraints)
    (asked : served.request = .retentionTick)
    (erased : (eraseSittings served.around served.around.now drawn sittings
      db).2 = .ok after) : LinkedChanges deployment served db after := by
  induction sittings generalizing drawn db with
  | nil =>
      obtain rfl := Except.ok.inj erased
      exact .refl
  | cons sitting rest inductionHypothesis =>
      obtain ⟨inviteId, email⟩ := sitting
      unfold eraseSittings at erased
      split at erased
      · cases erased
      · next middle first =>
        have linked := linked_sitting constraints.uniqueKeys inviteId email
        have change (inviteIds : List Nat) (submissionIds : List String) :
            Change deployment served none db
              (erase served.around.now (tombstone (served.around.uuid drawn))
                email inviteIds submissionIds db) :=
          .erased drawn email inviteIds submissionIds (asked ▸ trivial) nofun
        have here : LinkedChange deployment served db middle :=
          .of_execute first (change _ _) (.erased _ _ _ _ linked)
        obtain ⟨_, committed⟩ := here.committed
        exact .head here (inductionHypothesis committed.constraints erased)

theorem purgeExpiredOf_linked {organization : Organization}
    {retentionDays : Int} {drawn : Nat} (constraints : db.Constraints)
    (asked : served.request = .retentionTick)
    (purged : (purgeExpiredOf deployment served.around served.around.now
      organization retentionDays drawn db).2 = .ok after) :
    LinkedChanges deployment served db after := by
  obtain ⟨erased, sittings, executed⟩ := bind_eq_ok.mp purged
  apply (eraseSittings_linked constraints asked sittings).tail
  have keeps : KeepsInvite (keepLiveRecipients deployment erased) :=
    keepsInvite_keepLive erased
  exact .of_execute executed (.recipientsDropped _ _ keeps)
    (.recipientsDropped _ _ keeps)

theorem purgeExpiredLoop_linked {organizations : List Organization}
    {drawn : Nat} (constraints : db.Constraints)
    (asked : served.request = .retentionTick) :
    LinkedChanges deployment served db
      (purgeExpiredLoop deployment served.around served.around.now drawn
        organizations db).1 := by
  induction organizations generalizing drawn db with
  | nil => exact .refl
  | cons organization rest inductionHypothesis =>
      unfold purgeExpiredLoop
      split
      · exact inductionHypothesis constraints
      split
      · exact inductionHypothesis constraints
      dsimp only
      split
      · next after purged =>
        have here := purgeExpiredOf_linked constraints asked purged
        exact here.trans (inductionHypothesis (here.constraints constraints))
      · exact inductionHypothesis constraints

/-! ## Every request -/

theorem serve_linked (sound : Sound served.before) :
    LinkedChanges deployment served served.before
      (served.after deployment) := by
  by_cases isErasing : served.request.erases
  · unfold Served.after
    cases asked : served.request with
    | member caller request =>
        rw [asked] at isErasing
        cases request with
        | eraseCandidateData email =>
            exact lastly_keeps .refl fun _ done =>
              .single (eraseCandidateData_linked sound asked done)
        | _ => cases isErasing
    | retentionTick => exact purgeExpiredLoop_linked sound.constraints asked
    | _ => rw [asked] at isErasing; cases isErasing
  · exact Relation.ReflTransGen.mono
      (fun _ _ committed => ⟨committed, fun yes => absurd yes isErasing⟩) _ _
      (serve_transactions sound.constraints)

theorem LinkedChanges.keeps (holds : Database → Prop)
    (changes : LinkedChanges deployment served db after) (sound : Sound db)
    (kept : ∀ {scope state next}, Change deployment served scope state next →
      (served.request.erases → LinkedErasure served.around state next) →
        Sound state → Sound next → holds state → holds next)
    (start : holds db) : Sound after ∧ holds after := by
  induction changes with
  | refl => exact ⟨sound, start⟩
  | tail _ last inductionHypothesis =>
      obtain ⟨_, committed⟩ := last.committed
      obtain ⟨here, held⟩ := inductionHypothesis
      have next := committed.change.sound here committed.constraints
      exact ⟨next, kept committed.change last.linked here next held⟩

/-- What every transaction keeps, the erasures with lists that fit, holds in
every state of a run. -/
theorem Run.keepsLinked (holds : Database → Prop) {trace : List Served}
    (run : Run deployment trace db) (start : holds .empty)
    (kept : ∀ {served scope state next},
      Change deployment served scope state next →
        (served.request.erases → LinkedErasure served.around state next) →
          Sound state → Sound next → holds state → holds next) :
    holds db := by
  induction run with
  | start => exact start
  | @step trace db around request run inductionHypothesis =>
      have changes : LinkedChanges deployment ⟨around, request, db⟩ db
          (serve deployment around db request).1 :=
        serve_linked run.sound
      exact (changes.keeps holds run.sound kept inductionHypothesis).2

end AssessmentPlatform
