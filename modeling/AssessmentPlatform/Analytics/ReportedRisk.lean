import AssessmentPlatform.Analytics.IntegrityRisk
import AssessmentPlatform.Browser.IntegrityCapture
import AssessmentPlatform.Records.Access
import AssessmentPlatform.Records.Retention
import AssessmentPlatform.Records.Sample
import Mathlib.Data.List.Flatten

/-!
# The risk that an interviewer is shown

From the candidate's browser to the score: batches may be lost, may arrive in
any order, and their rows may be purged or erased.  What is left never scores
higher than what the browser saw.
-/

namespace AssessmentPlatform

open Rows Integrity

variable {deployment : Deployment} {served : Served} {scope : Option Nat}
variable {db after base left : Database}

/-! ## What a score depends on -/

/-- What a score depends on in an event: its kind, how long it lasted, and
whether it was blocked. -/
abbrev Signal := String × Option Int × Bool

/-- The signal of a stored event. -/
def IntegrityEvent.signal (event : IntegrityEvent) : Signal :=
  (event.kind, event.durationMs, event.blocked)

/-- The signal of a reported event. -/
def IntegrityEventIn.signal (event : IntegrityEventIn) : Signal :=
  (event.kind, event.durationMs, event.blocked)

/-- The row of a reported event, at no sitting in particular. -/
def IntegrityEventIn.row (event : IntegrityEventIn) : IntegrityEvent where
  id := 0
  inviteId := 0
  candidateEmail := ""
  questionId := none
  kind := event.kind
  offsetMs := event.offsetMs
  durationMs := event.durationMs
  size := event.size
  blocked := event.blocked

/-- The score of what was reported, or seen. -/
def reportedScore (events : List IntegrityEventIn) : Nat :=
  (riskScore (events.map IntegrityEventIn.row)).1

theorem totalPoints_congr {events other : List IntegrityEvent}
    (same : events.map IntegrityEvent.signal =
      other.map IntegrityEvent.signal) :
    totalPoints events = totalPoints other := by
  have counts (holds : Signal → Bool) :
      events.countP (fun event => holds event.signal) =
        other.countP fun event => holds event.signal := by
    have mapped (rows : List IntegrityEvent) :
        rows.countP (fun event => holds event.signal) =
          (rows.map IntegrityEvent.signal).countP holds := by
      rw [List.countP_map]
      rfl
    rw [mapped, mapped, same]
  have away (rows : List IntegrityEvent) :
      awayMs rows =
        (((rows.map IntegrityEvent.signal).filter (·.1 == "focus_loss")).map
          fun signal => signal.2.1.getD 0).sum := by
    unfold awayMs
    rw [List.filter_map, List.map_map]
    rfl
  have pastes : events.countP isBlockedPaste = other.countP isBlockedPaste :=
    counts fun signal => signal.1 == "paste_external" && signal.2.2
  have kinds (kind : String) :
      events.countP (isKind kind) = other.countP (isKind kind) :=
    counts fun signal => signal.1 == kind
  simp only [totalPoints, pastes, kinds, away, same]

/-- More events do not score less. -/
theorem totalPoints_append_le {events : List IntegrityEvent}
    (more : List IntegrityEvent)
    (nonneg : ∀ event ∈ more, ∀ ms ∈ event.durationMs, 0 ≤ ms) :
    totalPoints events ≤ totalPoints (more ++ events) := by
  induction more with
  | nil => exact le_rfl
  | cons event rest inductionHypothesis =>
      obtain ⟨first, others⟩ := List.forall_mem_cons.mp nonneg
      exact (inductionHypothesis others).trans (totalPoints_cons_le first)

/-- What arrived of what was reported does not score more. -/
theorem reportedScore_mono {arrived events : List IntegrityEventIn}
    (subperm : arrived.Subperm events)
    (valid : ∀ event ∈ events, Capture.validEvent event = true) :
    reportedScore arrived ≤ reportedScore events := by
  obtain ⟨picked, same, sublist⟩ := subperm
  obtain ⟨rest, perm⟩ := sublist.exists_perm_append
  have nonneg : ∀ event ∈ rest.map IntegrityEventIn.row,
      ∀ ms ∈ event.durationMs, 0 ≤ ms := by
    intro row member ms isMs
    obtain ⟨event, inRest, rfl⟩ := List.mem_map.mp member
    have isValid := valid event (perm.mem_iff.mpr
      (List.mem_append_right _ inRest))
    simp only [Capture.validEvent, Bool.and_eq_true, Option.all_eq_true,
      decide_eq_true_eq] at isValid
    exact isValid.1.2 ms isMs
  have all : (rest ++ arrived).Perm events :=
    List.perm_append_comm.trans
      ((same.symm.append_right rest).trans perm.symm)
  have points := totalPoints_perm (all.map IntegrityEventIn.row)
  have more : totalPoints (arrived.map IntegrityEventIn.row) ≤
      totalPoints (rest.map IntegrityEventIn.row ++
        arrived.map IntegrityEventIn.row) :=
    totalPoints_append_le _ nonneg
  rw [← List.map_append, ← points] at more
  unfold reportedScore
  rw [riskScore_eq, riskScore_eq]
  exact min_le_min_right 100 more

/-! ## What reaches the store -/

/-- The rows of a sitting. -/
def Database.sittingEvents (db : Database) (inviteId : Nat) (email : String) :
    List IntegrityEvent :=
  db.events.filter fun row =>
    row.inviteId == inviteId && row.candidateEmail == email

/-- What a request reports for a sitting. -/
def Served.reports (deployment : Deployment) (inviteId : Nat) (email : String)
    (served : Served) : List IntegrityEventIn :=
  match served.request with
  | .candidate token (.events body) =>
      if (fetch Invite.token token served.before.invites).any
            (fun invite => invite.id == inviteId) &&
          deployment.auth.normalizeEmail body.candidateEmail == email then
        body.events
      else []
  | _ => []

variable {inviteId : Nat} {email : String}

/-- A state keeps what another one stored for a sitting, or loses some of
it. -/
def KeepsEvents (inviteId : Nat) (email : String) (db after : Database) :
    Prop :=
  (after.sittingEvents inviteId email).Sublist
    (db.sittingEvents inviteId email)

theorem keepsEvents_of_sublist (fewer : after.events.Sublist db.events) :
    KeepsEvents inviteId email db after :=
  fewer.filter _

theorem Enters.keepsEvents {account : Interviewer} {gaveUp : Option Nat}
    (enters : Enters db account gaveUp base) :
    KeepsEvents inviteId email db base := by
  cases enters with
  | newcomer => exact .refl _
  | seatless => exact .refl _
  | leaving _ _ gaveUp =>
      obtain ⟨rfl, _⟩ := leaveEmptyOrg_eq_ok gaveUp
      exact keepsEvents_of_sublist List.filter_sublist

theorem Database.Left.keepsEvents {interviewerId : Nat}
    (leaving : Database.Left db interviewerId left) :
    KeepsEvents inviteId email db left := by
  cases leaving with
  | seatless => exact .refl _
  | shared => exact .refl _
  | last => exact keepsEvents_of_sublist List.filter_sublist

/-- The signals that a request has added for a sitting, if it has. -/
def Reported (deployment : Deployment) (served : Served) (inviteId : Nat)
    (email : String) (state : Database) : Prop :=
  served.before.nextId ≤ state.nextId ∧
    (KeepsEvents inviteId email served.before state ∨
      served.before.nextId < state.nextId ∧
        ((state.sittingEvents inviteId email).map
            IntegrityEvent.signal).Sublist
          ((served.before.sittingEvents inviteId email).map
              IntegrityEvent.signal ++
            (served.reports deployment inviteId email).map
              IntegrityEventIn.signal))

theorem Reported.keeps (reported : Reported deployment served inviteId email db)
    (keeps : KeepsEvents inviteId email db after)
    (later : db.nextId ≤ after.nextId) :
    Reported deployment served inviteId email after := by
  refine ⟨reported.1.trans later, ?_⟩
  rcases reported.2 with kept | ⟨less, added⟩
  · exact .inl (keeps.trans kept)
  · exact .inr ⟨less.trans_le later, (keeps.map _).trans added⟩

theorem eventRows_filter {invite : Invite} {address : String}
    (questionId : Option String) (elapsed : Int) (first : Nat)
    (events : List IntegrityEventIn) :
    ((eventRows invite address questionId elapsed first events).filter
        fun row => row.inviteId == inviteId && row.candidateEmail == email) =
      if invite.id == inviteId && address == email then
        eventRows invite address questionId elapsed first events
      else [] := by
  have all : ∀ row ∈ eventRows invite address questionId elapsed first events,
      (row.inviteId == inviteId && row.candidateEmail == email) =
        (invite.id == inviteId && address == email) := by
    intro row member
    obtain ⟨⟨event, index⟩, _, rfl⟩ := List.mem_map.mp member
    rfl
  split
  · next mine =>
    exact List.filter_eq_self.mpr fun row member => (all row member).trans mine
  · next other =>
    rw [List.filter_eq_nil_iff]
    intro row member isMine
    exact other ((all row member).symm.trans isMine)

theorem eventRows_signal {invite : Invite} {address : String}
    (questionId : Option String) (elapsed : Int) (first : Nat)
    (events : List IntegrityEventIn) :
    (eventRows invite address questionId elapsed first events).map
        IntegrityEvent.signal = events.map IntegrityEventIn.signal := by
  have signals : (eventRows invite address questionId elapsed first events).map
      IntegrityEvent.signal =
        (events.zipIdx.map Prod.fst).map IntegrityEventIn.signal := by
    simp only [eventRows, List.map_map]
    rfl
  rw [signals, List.zipIdx_map_fst]

theorem Change.reported (change : Change deployment served scope db after)
    (standing : ¬IsPseudonym email)
    (reported : Reported deployment served inviteId email db) :
    Reported deployment served inviteId email after := by
  have later := change.nextId_le
  cases change with
  | founded _ enters =>
      have keeps : KeepsEvents inviteId email db _ := enters.keepsEvents
      exact reported.keeps keeps later
  | joined enters =>
      have keeps : KeepsEvents inviteId email db _ := enters.keepsEvents
      exact reported.keeps keeps later
  | accountDeleted deleted =>
      obtain ⟨left, leaving, rfl⟩ := Database.purgeAccount_left deleted
      have keeps : KeepsEvents inviteId email db left := leaving.keepsEvents
      exact reported.keeps keeps later
  | erased drawn address inviteIds submissionIds =>
      refine reported.keeps ?_ later
      have erased : (erase served.around.now
          (tombstone (served.around.uuid drawn)) address inviteIds
          submissionIds db).sittingEvents inviteId email =
            (db.sittingEvents inviteId email).filter fun row =>
              !(inviteIds.contains row.inviteId &&
                row.candidateEmail == address) := by
        refine filter_updateWhere_drop fun row _ _ => ?_
        have other : tombstone (served.around.uuid drawn) ≠ email :=
          fun same => standing ⟨_, same.symm⟩
        simp [other]
      rw [KeepsEvents, erased]
      exact List.filter_sublist
  | @eventsRecorded _ invite address token body elapsed asked isBefore found
      gate =>
      subst isBefore
      have isAddress :
          deployment.auth.normalizeEmail body.candidateEmail = address := by
        obtain ⟨request, isRequest, isEmail⟩ := gate.asked
        rw [asked] at isRequest
        cases isRequest
        exact isEmail
      have isReport : served.reports deployment inviteId email =
          if invite.id == inviteId && address == email then body.events
          else [] := by
        simp [Served.reports, asked, found, isAddress]
      by_cases empty : body.events = []
      · refine reported.keeps (keepsEvents_of_sublist ?_) later
        simp [empty, eventRows]
      · have less : 0 < body.events.length := List.length_pos_iff.mpr empty
        refine ⟨later, .inr ⟨Nat.lt_add_of_pos_right less, ?_⟩⟩
        rw [Database.sittingEvents, List.filter_append, eventRows_filter,
          List.map_append, isReport]
        split
        · rw [eventRows_signal]
          exact List.Sublist.refl _
        · exact List.Sublist.refl _
  | _ => exact reported.keeps (List.Sublist.refl _) later

/-- What is stored of a sitting was reported for it, each event at most once
and in the order of the requests. -/
theorem Run.reported {trace : List Served} (run : Run deployment trace db)
    (standing : ¬IsPseudonym email) :
    ((db.sittingEvents inviteId email).map IntegrityEvent.signal).Sublist
      ((trace.flatMap (Served.reports deployment inviteId email)).map
        IntegrityEventIn.signal) := by
  induction run with
  | start => exact List.Sublist.refl _
  | @step trace db around request run inductionHypothesis =>
      have transactions : Transactions deployment ⟨around, request, db⟩ db
          (serve deployment around db request).1 :=
        serve_transactions run.constraints
      have reported := (transactions.keeps
        (Reported deployment ⟨around, request, db⟩ inviteId email)
        run.constraints (fun change _ _ => change.reported standing)
        ⟨Nat.le_refl _, .inl (List.Sublist.refl _)⟩).2
      rw [List.flatMap_append, List.map_append]
      simp only [List.flatMap_cons, List.flatMap_nil, List.append_nil]
      rcases reported.2 with kept | ⟨_, added⟩
      · exact ((kept.map _).trans inductionHypothesis).trans
          (List.sublist_append_left _ _)
      · exact added.trans (inductionHypothesis.append_right _)

/-! ## From the browser to the score -/

/-- One page load of the sitting, and what happens on it. -/
structure Load where
  setting : Capture.Setting
  events : List (Int × Capture.Event)
  clock : events.Pairwise fun earlier later => earlier.1 ≤ later.1

/-- The hook at the end of a page load. -/
def Load.hook (load : Load) : Capture.Hook :=
  Capture.run load.setting load.events

theorem Load.captured (load : Load) : Capture.Captured load.hook :=
  Capture.captured_run load.setting load.events

/-- Each page load sees the devtools once at most. -/
theorem countP_devtools_le (loads : List Load) :
    (loads.flatMap fun load => load.hook.observed).countP
        (·.kind == "devtools") ≤ loads.length := by
  induction loads with
  | nil => exact le_rfl
  | cons load rest inductionHypothesis =>
      have once := load.captured.devtools
      have atMost : load.hook.devtoolsReported.toNat ≤ 1 := Bool.toNat_le _
      rw [List.flatMap_cons, List.countP_append, List.length_cons]
      omega

/-- Whatever is lost between the browser and the database, purged or erased, an
interviewer is shown no higher risk than what the candidate's pages have seen
amounts to, and no more devtools signals than there were page loads. -/
theorem stored_risk_le {trace : List Served} (run : Run deployment trace db)
    (loads : List Load) (inviteId : Nat) (email : String)
    (standing : ¬IsPseudonym email)
    (delivered :
      (trace.flatMap (Served.reports deployment inviteId email)).Subperm
        (loads.flatMap fun load => load.hook.sent)) :
    (riskScore (db.sittingEvents inviteId email)).1 ≤
        reportedScore (loads.flatMap fun load => load.hook.observed) ∧
      (db.sittingEvents inviteId email).countP (isKind "devtools") ≤
        loads.length := by
  obtain ⟨arrived, isPart, same⟩ :=
    List.sublist_map_iff.mp (run.reported standing)
  have allSent : (loads.flatMap fun load => load.hook.sent).Sublist
      (loads.flatMap fun load => load.hook.observed) :=
    List.Sublist.flatMap_right loads fun load _ =>
      (List.sublist_append_left _ _).trans load.captured.accounted.sublist
  have seen : arrived.Subperm
      (loads.flatMap fun load => load.hook.observed) :=
    (isPart.subperm.trans delivered).trans allSent.subperm
  have valid : ∀ event ∈ loads.flatMap (fun load => load.hook.observed),
      Capture.validEvent event = true := by
    intro event member
    obtain ⟨load, _, observed⟩ := List.mem_flatMap.mp member
    exact (Capture.valid_run load.setting load.clock).1 event observed
  have asRows : (arrived.map IntegrityEventIn.row).map IntegrityEvent.signal =
      arrived.map IntegrityEventIn.signal := by
    rw [List.map_map]
    rfl
  constructor
  · refine le_trans (le_of_eq ?_) (reportedScore_mono seen valid)
    unfold reportedScore
    rw [riskScore_eq, riskScore_eq,
      totalPoints_congr (same.trans asRows.symm)]
  · have counts : (db.sittingEvents inviteId email).countP
        (isKind "devtools") = arrived.countP (·.kind == "devtools") := by
      have counted := congrArg
        (List.countP fun signal : Signal => signal.1 == "devtools") same
      rw [List.countP_map, List.countP_map] at counted
      exact counted
    rw [counts]
    exact (seen.countP_le _).trans (countP_devtools_le loads)

namespace Scenario

/-- The page of `Capture.docked`. -/
def dockedLoad : Load where
  setting := ⟨"c@x", true⟩
  events := Capture.docked
  clock := by decide

/-- The candidate's browser posts what it has seen. -/
def posts : Asked :=
  behind "e" 3 'h' (.events ⟨"c@x", none, dockedLoad.hook.sent⟩)

end Scenario

open Scenario in
/-- The devtools and a blocked paste. -/
theorem stored_risk_le_docked :
    (riskScore ((play (prepared ++ [invites, starts, posts])).2.sittingEvents
      16 "c@x")).1 ≤ 45 := by
  have standing : ¬IsPseudonym "c@x" := by
    intro ⟨drawn, same⟩
    have lengths := congrArg String.length same
    simp only [tombstone, tombstoneOf, tombstoneDomain, String.length_append]
      at lengths
    have short : "c@x".length = 3 := rfl
    have long : "erased-".length = 7 := rfl
    omega
  have delivered : (play (prepared ++ [invites, starts, posts])).1.flatMap
      (Served.reports deployment 16 "c@x") =
        [dockedLoad].flatMap fun load => load.hook.sent := by
    decide +kernel
  have bound := (stored_risk_le
    (run_play (prepared ++ [invites, starts, posts])) [dockedLoad] 16 "c@x"
    standing (delivered ▸ List.Subperm.refl _)).1
  have score : reportedScore
      ([dockedLoad].flatMap fun load => load.hook.observed) = 45 := by
    rw [reportedScore, riskScore_eq]
    decide +kernel
  exact score ▸ bound

end AssessmentPlatform
