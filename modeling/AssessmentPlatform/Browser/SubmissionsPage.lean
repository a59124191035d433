import AssessmentPlatform.Records.Listings
import AssessmentPlatform.Records.Sample

/-!
# Reading all submissions

The page of submissions, open beside the platform.  Whoever goes through it
page by page to the end has been shown every submission that was there when the
page was opened, whatever the platform served in the meantime.
-/

namespace AssessmentPlatform

open PagedList

variable (deployment : Deployment) (created : CreatedAt)

/-- A page of submissions that a member opened on a state of a run, while the
run goes on: requests are served, and the browser takes its steps. -/
inductive Browsing (orgId viewer limit : Nat) (start : Database) :
    List Served → Database → Visit SubmissionSummaryOut → Prop where
  | opened {trace : List Served} :
      Run deployment trace start →
      Browsing orgId viewer limit start trace start
        (.opened (start.submissionRows created orgId))
  | served {trace : List Served} {db : Database}
      {visit : Visit SubmissionSummaryOut} (around : Surroundings)
      (request : ApiRequest) :
      Browsing orgId viewer limit start trace db visit →
      Browsing orgId viewer limit start (trace ++ [⟨around, request, db⟩])
        (serve deployment around db request).1
        (visit.moved
          ((serve deployment around db request).1.submissionRows created orgId))
  | acted {trace : List Served} {db : Database}
      {visit : Visit SubmissionSummaryOut} (event : Event) :
      Browsing orgId viewer limit start trace db visit →
      visit.Patient event →
      (event = .reads →
        db.listSubmissions created viewer limit visit.screen.offset =
          .ok (page visit.rows limit visit.screen.offset)) →
      Browsing orgId viewer limit start trace db (visit.step limit event)

variable {deployment created} {orgId viewer limit : Nat}
variable {start db after : Database} {trace : List Served} {served : Served}
variable {visit : Visit SubmissionSummaryOut}

/-- A request after which an organisation stands leaves its submissions on the
list. -/
theorem rows_served {around : Surroundings} {request : ApiRequest}
    (sound : Sound db) (old : orgId < db.nextId) :
    orgId < (serve deployment around db request).1.nextId ∧
      ((serve deployment around db request).1.Stands orgId → db.Stands orgId ∧
        ((db.submissionRows created orgId).map SubmissionSummaryOut.id).Sublist
          (((serve deployment around db request).1.submissionRows created
            orgId).map SubmissionSummaryOut.id)) := by
  have transactions : Transactions deployment ⟨around, request, db⟩ db
      (serve deployment around db request).1 :=
    serve_transactions sound.constraints
  have kept := transactions.keeps
    (fun state => Sound state ∧ orgId < state.nextId ∧
      (state.Stands orgId → db.Stands orgId ∧ ∀ questionId id,
        Listed orgId questionId id db → Listed orgId questionId id state))
    sound.constraints
    (by
      rintro scope state next change _ constraints ⟨sound, old, held⟩
      refine ⟨change.sound sound constraints,
        Nat.lt_of_lt_of_le old change.nextId_le, fun stands => ?_⟩
      obtain ⟨stood, listed⟩ := held (change.stands old stands)
      exact ⟨stood, fun questionId id was =>
        change.listed sound stands (listed questionId id was)⟩)
    ⟨sound, old, fun stands => ⟨stands, fun _ _ was => was⟩⟩
  obtain ⟨_, _, later, held⟩ := kept
  refine ⟨later, fun stands => ?_⟩
  obtain ⟨stood, listed⟩ := held stands
  refine ⟨stood, submissionRows_sublist sound.constraints.uniqueKeys ?_⟩
  intro id isListed
  obtain ⟨questionId, was⟩ := listed_iff.mpr isListed
  exact listed_iff.mp ⟨questionId, listed questionId id was⟩

theorem Browsing.run
    (browsing :
      Browsing deployment created orgId viewer limit start trace db visit) :
    Run deployment trace db ∧ visit.rows = db.submissionRows created orgId := by
  induction browsing with
  | opened run => exact ⟨run, rfl⟩
  | served around request _ inductionHypothesis =>
      exact ⟨.step around request inductionHypothesis.1, rfl⟩
  | acted event _ _ _ inductionHypothesis =>
      refine ⟨inductionHypothesis.1, ?_⟩
      rw [← inductionHypothesis.2, Visit.rows_step]

theorem Browsing.covers
    (browsing :
      Browsing deployment created orgId viewer limit start trace db visit)
    (founded : start.Stands orgId) :
    orgId < db.nextId ∧ (db.Stands orgId →
      Covers SubmissionSummaryOut.id limit
        ((start.submissionRows created orgId).map SubmissionSummaryOut.id)
        visit) := by
  induction browsing with
  | opened run =>
      obtain ⟨org, isOrg, rfl⟩ := List.mem_map.mp founded
      exact ⟨run.sound.ids.organization org isOrg, fun _ => covers_opened _⟩
  | served around request earlier inductionHypothesis =>
      obtain ⟨old, covers⟩ := inductionHypothesis
      obtain ⟨run, isRows⟩ := earlier.run
      obtain ⟨later, kept⟩ := rows_served run.sound old
      refine ⟨later, fun stands => ?_⟩
      obtain ⟨stood, grown⟩ := kept stands
      rw [← isRows] at grown
      exact (covers stood).moved grown
  | acted event _ patient _ inductionHypothesis =>
      exact ⟨inductionHypothesis.1, fun stands =>
        (inductionHypothesis.2 stands).step patient⟩

/-- Nobody who waits for each page, and goes on to the end, is left without a
submission that was there when the page was opened; what is shown is still the
organisation's, and no page past the first is empty. -/
theorem submissions_all_shown
    (browsing :
      Browsing deployment created orgId viewer limit start trace db visit)
    (positive : 0 < limit) (founded : start.Stands orgId)
    (stands : db.Stands orgId) :
    (visit.AtEnd limit → ∀ sub ∈ start.orgSubmissions orgId,
      ∃ row ∈ visit.seen, row.id = sub.id) ∧
    (∀ row ∈ visit.seen, ∃ sub ∈ db.orgSubmissions orgId, sub.id = row.id) ∧
    (visit.screen.request = .shown → visit.screen.offset ≠ 0 →
      ∃ items, visit.screen.items = some items ∧ items.isEmpty = false) := by
  have covers := (browsing.covers founded).2 stands
  refine ⟨fun isEnd sub isSub => ?_, fun row isSeen => ?_,
    covers.nonempty positive⟩
  · exact List.mem_map.mp (covers.atEnd positive isEnd sub.id
      (mem_submissionRows.mpr ⟨sub, isSub, rfl⟩))
  · have isRow := covers.known row isSeen
    rw [browsing.run.2] at isRow
    exact mem_submissionRows.mp isRow

/-! ## A visit -/

namespace Scenario

/-- The candidate has submitted both questions. -/
def submittedBoth : List Asked :=
  submitted ++
    [behind "e" 4 'h' (.submit ⟨"Cy", "c@x", "py", "code", some "qb", true⟩)]

/-- A submission of the admin's own. -/
def submitsDirectly : Asked :=
  asks 5 'k' (.createSubmission "qa" "Di" "py" "code")

/-- When the submissions of the scenario came in. -/
def cameIn : CreatedAt where
  submission id := if id = "g" then 3 else if id = "h" then 4 else 5
  feedback _ := 0

end Scenario

open Scenario in
/-- One row a page: the second page shows the first row again, which a newer one
has pushed down, and the third page the row that was there. -/
theorem submissions_all_shown_pushed :
    ∃ trace db visit,
      Browsing Scenario.deployment cameIn 2 1 1 (play submittedBoth).2 trace
        db visit ∧
        visit.seen.map SubmissionSummaryOut.id = ["h", "h", "g"] ∧
          ∀ sub ∈ (play submittedBoth).2.orgSubmissions 2,
            ∃ row ∈ visit.seen, row.id = sub.id := by
  have opened : Browsing Scenario.deployment cameIn 2 1 1
      (play submittedBoth).2 _ _ _ := .opened (run_play submittedBoth)
  have first := ((opened.acted .reads nofun fun _ => by decide +kernel).acted
    .arrives nofun nofun).acted .next (fun _ => by decide +kernel) nofun
  have second := (((first.served submitsDirectly.1 submitsDirectly.2).acted
    .reads nofun fun _ => by decide +kernel).acted .arrives nofun nofun).acted
      .next (fun _ => by decide +kernel) nofun
  have third := (second.acted .reads nofun fun _ => by decide +kernel).acted
    .arrives nofun nofun
  refine ⟨_, _, _, third, by decide +kernel,
    (submissions_all_shown third (by decide) ?_ ?_).1 ?_⟩
  · unfold Database.Stands
    decide +kernel
  · unfold Database.Stands
    decide +kernel
  · unfold Visit.AtEnd
    decide +kernel

end AssessmentPlatform
