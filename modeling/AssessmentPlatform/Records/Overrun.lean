import AssessmentPlatform.Records.Metering
import AssessmentPlatform.Records.Sample

/-!
# Overruns across months

With enforcement off, what goes past the allowance of a month is written down
as it happens, and the next month begins with it.
-/

namespace AssessmentPlatform

open Rows

/-- `remaining`, of a monthly metric: what the allowance still offers. -/
def remaining (org : Organization) (metric : Metric) (row : OrgUsage) : Int :=
  max 0 (allowance org metric row - row.used metric)

/-! ## The ledger -/

namespace Ledger

/-- The overrun that a month has recorded. -/
def overBy (ledger : Ledger) (orgId : Nat) (period : Period)
    (metric : Metric) : Int :=
  ((ledger (orgId, period)).map fun row => row.overBy metric).getD 0

/-- A ledger whose months begin with what the months before went over. -/
structure Settled (ledger : Ledger) (latest : Nat) : Prop where
  keyed : ledger.Keyed
  reached : ∀ orgId period row, ledger (orgId, period) = some row →
    period.index ≤ latest
  month : ∀ orgId period row, ledger (orgId, period) = some row →
    (previousPeriod period).index + 1 = period.index
  nonneg : ∀ orgId period row metric, ledger (orgId, period) = some row →
    0 ≤ row.overBy metric
  carried : ∀ orgId period row metric, ledger (orgId, period) = some row →
    row.carried metric = ledger.overBy orgId (previousPeriod period) metric

variable {ledger : Ledger} {latest orgId : Nat} {period : Period}
variable {delta : UsageDelta}

theorem over_of_some {row : OrgUsage} {metric : Metric}
    (stored : ledger (orgId, period) = some row) :
    ledger.overBy orgId period metric = row.overBy metric := by
  rw [overBy, stored]
  rfl

theorem Settled.over_nonneg (settled : ledger.Settled latest) (orgId : Nat)
    (period : Period) (metric : Metric) :
    0 ≤ ledger.overBy orgId period metric := by
  cases stored : ledger (orgId, period) with
  | none => simp [overBy, stored]
  | some row =>
      rw [over_of_some stored]
      exact settled.nonneg orgId period row metric stored

/-- A month that is not stored reads as one that begins with the debt. -/
theorem Settled.carried_row (settled : ledger.Settled latest) (orgId : Nat)
    (period : Period) (metric : Metric) :
    (ledger.row orgId period).carried metric =
      ledger.overBy orgId (previousPeriod period) metric := by
  cases stored : ledger (orgId, period) with
  | some row =>
      rw [row_of_some stored]
      exact settled.carried orgId period row metric stored
  | none =>
      have nonneg := settled.over_nonneg orgId (previousPeriod period) metric
      rw [row_of_none stored]
      cases previous : ledger (orgId, previousPeriod period) with
      | none => cases metric <;> simp [overBy, previous] <;> rfl
      | some row =>
          rw [over_of_some previous] at nonneg ⊢
          cases metric
          · change (if row.sittingsOver > 0 then row.sittingsOver else 0) =
              row.sittingsOver
            have : 0 ≤ row.sittingsOver := nonneg
            split <;> omega
          · change (if row.draftsOver > 0 then row.draftsOver else 0) =
              row.draftsOver
            have : 0 ≤ row.draftsOver := nonneg
            split <;> omega

theorem Settled.mono (settled : ledger.Settled latest) {later : Nat}
    (isLater : latest ≤ later) : ledger.Settled later :=
  { settled with
    reached := fun orgId period row found =>
      (settled.reached orgId period row found).trans isLater }

theorem settled_empty : Settled (fun _ => none) 0 := by
  constructor <;> intro _ _ _ <;> simp

/-- A month that is not stored has no overrun yet. -/
theorem over_row (ledger : Ledger) (orgId : Nat) (period : Period)
    (metric : Metric) :
    (ledger.row orgId period).overBy metric =
      ledger.overBy orgId period metric := by
  cases stored : ledger (orgId, period) with
  | some row => rw [row_of_some stored, over_of_some stored]
  | none =>
      rw [row_of_none stored, overBy, stored]
      cases metric <;> rfl

/-- Store what an event adds to a month. -/
def bump (ledger : Ledger) (orgId : Nat) (period : Period)
    (delta : UsageDelta) : Ledger :=
  ledger.put ((ledger.row orgId period).add delta)

theorem bump_empty (ledger : Ledger) (orgId : Nat) (period : Period) :
    ledger.bump orgId period {} = ledger.put (ledger.row orgId period) := by
  simp [bump, OrgUsage.add]

section Bump

variable (keyed : ledger.Keyed) (orgId : Nat) (period : Period)
variable (delta : UsageDelta)

include keyed

theorem Keyed.bump_self :
    ledger.bump orgId period delta (orgId, period) =
      some ((ledger.row orgId period).add delta) :=
  put_self (keyed.key_row orgId period)

theorem Keyed.bump_of_ne {key : Nat × Period} (apart : key ≠ (orgId, period)) :
    ledger.bump orgId period delta key = ledger key := by
  have isKey : ((ledger.row orgId period).add delta).key = (orgId, period) :=
    keyed.key_row orgId period
  exact put_of_ne (isKey.symm ▸ apart)

/-- What an event of a month does to the overruns. -/
theorem Keyed.over_bump (other : Nat) (later : Period) (metric : Metric) :
    (ledger.bump orgId period delta).overBy other later metric =
      ledger.overBy other later metric +
        if (other, later) = (orgId, period) then delta.overBy metric else 0 := by
  by_cases here : (other, later) = (orgId, period)
  · obtain ⟨rfl, rfl⟩ := Prod.mk.inj here
    rw [if_pos rfl, over_of_some (keyed.bump_self other later delta), over_add,
      over_row]
  · rw [if_neg here, Int.add_zero, overBy,
      keyed.bump_of_ne orgId period delta here, overBy]

end Bump

/-- An event of the month that has been reached, or of a later one, keeps what
earlier months have been settled with. -/
theorem Settled.bump (settled : ledger.Settled latest)
    (reached : latest ≤ period.index)
    (month : (previousPeriod period).index + 1 = period.index)
    (nonneg : ∀ metric, 0 ≤ delta.overBy metric) :
    (ledger.bump orgId period delta).Settled period.index := by
  have keyed := settled.keyed
  have stored {other : Nat} {later : Period} {row : OrgUsage}
      (found : ledger.bump orgId period delta (other, later) = some row) :
      ((other, later) = (orgId, period) ∧
          row = (ledger.row orgId period).add delta) ∨
        ledger (other, later) = some row := by
    by_cases here : (other, later) = (orgId, period)
    · rw [here, keyed.bump_self] at found
      exact Or.inl ⟨here, (Option.some.inj found).symm⟩
    · rw [keyed.bump_of_ne orgId period delta here] at found
      exact Or.inr found
  have before {other : Nat} {later : Period} {metric : Metric}
      (notLater : later.index ≤ period.index)
      (isMonth : (previousPeriod later).index + 1 = later.index) :
      (ledger.bump orgId period delta).overBy other (previousPeriod later)
        metric = ledger.overBy other (previousPeriod later) metric := by
    have apart : (other, previousPeriod later) ≠ (orgId, period) := by
      intro same
      have samePeriod : previousPeriod later = period := (Prod.mk.inj same).2
      rw [samePeriod] at isMonth
      omega
    rw [keyed.over_bump, if_neg apart, Int.add_zero]
  constructor
  · exact keyed.put _
  · intro other later row found
    rcases stored found with ⟨here, -⟩ | old
    · rw [(Prod.mk.inj here).2]
    · exact (settled.reached other later row old).trans reached
  · intro other later row found
    rcases stored found with ⟨here, -⟩ | old
    · rw [(Prod.mk.inj here).2]
      exact month
    · exact settled.month other later row old
  · intro other later row metric found
    rcases stored found with ⟨-, rfl⟩ | old
    · rw [over_add, over_row]
      have earlier := settled.over_nonneg orgId period metric
      have added := nonneg metric
      omega
    · exact settled.nonneg other later row metric old
  · intro other later row metric found
    rcases stored found with ⟨here, rfl⟩ | old
    · obtain ⟨rfl, rfl⟩ := Prod.mk.inj here
      rw [before le_rfl month, carried_add, settled.carried_row]
    · have notLater := (settled.reached other later row old).trans reached
      rw [before notLater (settled.month other later row old)]
      exact settled.carried other later row metric old

end Ledger

/-! ## Events -/

namespace MeterEvent

variable {deployment : Deployment} {event : MeterEvent} {ledger : Ledger}

/-- Events that hand nothing back. -/
def Forward (event : MeterEvent) : Prop :=
  ∀ metric amount, event.metered ≠ .release metric amount

/-- What an event adds to the row of its month, with enforcement off. -/
def delta (event : MeterEvent) (row : OrgUsage) : UsageDelta :=
  match event.metered with
  | .consume metric amount =>
      if amount ≤ 0 then {}
      else
        .ofMetric metric amount (excess (row.used metric) amount
          (allowance event.organization metric row))
  | .release _ _ => {}
  | .record judgeCostUsd draftCostUsd => costs judgeCostUsd draftCostUsd

theorem delta_over_nonneg (row : OrgUsage) (metric : Metric) :
    0 ≤ (event.delta row).overBy metric := by
  unfold delta
  cases event.metered with
  | consume claimed amount =>
      dsimp only
      split
      · cases metric <;> exact le_rfl
      · rw [over_ofMetric]
        unfold excess
        split <;> omega
  | release => cases metric <;> exact le_rfl
  | record => cases metric <;> exact le_rfl

/-- With enforcement off, an event adds to its month or does nothing. -/
theorem apply_forward (unenforced : deployment.billingEnforced = false)
    (forward : event.Forward) :
    event.apply deployment ledger =
      ledger.record event.organization.id (event.month deployment)
        (event.delta
          (ledger.row event.organization.id (event.month deployment))) := by
  cases isMetered : event.metered with
  | consume metric amount =>
      have isDelta (row : OrgUsage) : event.delta row =
          if amount ≤ 0 then {}
          else
            .ofMetric metric amount (excess (row.used metric) amount
              (allowance event.organization metric row)) := by
        rw [delta, isMetered]
      simp only [apply, isMetered, isDelta, Ledger.consume, unenforced]
      by_cases idle : amount ≤ 0
      · simp only [if_pos idle]
        exact (if_pos rfl).symm
      · simp only [if_neg idle]
        exact (if_neg (ofMetric_ne_empty (not_le.mp idle) _ _)).symm
  | release metric amount => exact absurd isMetered (forward metric amount)
  | record =>
      rw [apply, delta, isMetered]

theorem record_eq_bump (ledger : Ledger) (orgId : Nat) (period : Period)
    (delta : UsageDelta) :
    ledger.record orgId period delta =
      if delta = {} then ledger else ledger.bump orgId period delta :=
  rfl

end MeterEvent

/-! ## Months of one plan -/

section Closed

variable {event : MeterEvent} {metric : Metric} {organization : Organization}

/-- What a month went over is what it used past an allowance. -/
def Closed (organization : Organization) (metric : Metric)
    (row : OrgUsage) : Prop :=
  row.overBy metric =
    max 0 (row.used metric - allowance organization metric row)

theorem closed_fresh (organization : Organization) (metric : Metric)
    (orgId : Nat) (period : Period) (carried : Carried) :
    Closed organization metric (freshUsage orgId period carried) := by
  have nonneg := allowance_nonneg organization metric
    (freshUsage orgId period carried)
  have used : (freshUsage orgId period carried).used metric = 0 := by
    cases metric <;> rfl
  have overBy : (freshUsage orgId period carried).overBy metric = 0 := by
    cases metric <;> rfl
  unfold Closed
  omega

/-- A claim under the same entitlement goes over by what passes it. -/
theorem closed_add {row : OrgUsage} (closed : Closed organization metric row)
    (steady : ∀ amount, event.metered = .consume metric amount →
      (planFor event.organization).limit metric =
        (planFor organization).limit metric) :
    Closed organization metric (row.add (event.delta row)) := by
  have kept : allowance organization metric (row.add (event.delta row)) =
      allowance organization metric row := by
    rw [allowance, allowance, carried_add]
  have nonneg := allowance_nonneg organization metric row
  unfold Closed at closed ⊢
  rw [kept, used_add, over_add, MeterEvent.delta]
  cases isMetered : event.metered with
  | consume claimed amount =>
      by_cases idle : amount ≤ 0
      · simp only [if_pos idle]
        cases metric <;> simpa [UsageDelta.used, UsageDelta.overBy] using closed
      · simp only [if_neg idle, used_ofMetric, over_ofMetric]
        by_cases same : claimed = metric
        · subst same
          have limits := steady amount isMetered
          have allowances : allowance event.organization claimed row =
              allowance organization claimed row := by
            rw [allowance, allowance, limits]
          rw [if_pos rfl, if_pos rfl, allowances, excess]
          omega
        · rw [if_neg same, if_neg same, Int.add_zero, Int.add_zero]
          exact closed
  | release =>
      cases metric <;> simpa [UsageDelta.used, UsageDelta.overBy] using closed
  | record =>
      cases metric <;>
        simpa [costs, UsageDelta.used, UsageDelta.overBy] using closed

end Closed

/-! ## Events across months -/

namespace ClockedEvent

variable {deployment : Deployment} {event : ClockedEvent} {ledger : Ledger}
variable {latest orgId : Nat} {period : Period} {metric : Metric}

/-- The ledger once an event has made sure of the month that it measures. -/
def opened (event : ClockedEvent) (deployment : Deployment)
    (ledger : Ledger) : Ledger :=
  match event.metered with
  | .consume _ amount =>
      if amount ≤ 0 then ledger
      else ledger.bump event.organization.id (event.month deployment) {}
  | .release .. | .record .. => ledger

/-- What an event adds to the month that it counts in, with enforcement off: as
much as it is past the allowance of the month that it measures. -/
def added (event : ClockedEvent) (deployment : Deployment)
    (ledger : Ledger) : UsageDelta :=
  event.delta (ledger.row event.organization.id (event.month deployment))

/-- The allowance offers a claim as much in the month that the claim counts in
as in the month that it is measured in. -/
def SameRoom (event : ClockedEvent) (deployment : Deployment)
    (ledger : Ledger) : Prop :=
  ∀ metric amount, event.metered = .consume metric amount → 0 < amount →
    let room (period : Period) : Int :=
      remaining event.organization metric
        (ledger.row event.organization.id period)
    min amount (room (event.month deployment)) =
      min amount (room (event.counted deployment))

/-- What an event adds to the overrun of a metric: what it claims past the
allowance in force in the month that it counts in. -/
def beyond (event : ClockedEvent) (deployment : Deployment) (ledger : Ledger)
    (orgId : Nat) (period : Period) (metric : Metric) : Int :=
  if (orgId, period) =
      (event.organization.id, event.counted deployment) then
    (event.delta (ledger.row orgId period)).overBy metric
  else 0

/-- An event that claims nothing past the allowance in force. -/
def Entitled (event : ClockedEvent) (deployment : Deployment)
    (ledger : Ledger) : Prop :=
  ∀ metric amount, event.metered = .consume metric amount →
    let row := ledger.row event.organization.id (event.counted deployment)
    row.used metric + amount ≤ allowance event.organization metric row

theorem delta_eq_consume {row : OrgUsage} {amount : Int}
    (isMetered : event.metered = .consume metric amount)
    (positive : 0 < amount) :
    event.delta row =
      .ofMetric metric amount (excess (row.used metric) amount
        (allowance event.organization metric row)) := by
  rw [MeterEvent.delta, isMetered]
  exact if_neg (not_le.mpr positive)

theorem delta_eq_empty {row : OrgUsage} {amount : Int}
    (isMetered : event.metered = .consume metric amount)
    (idle : amount ≤ 0) : event.delta row = {} := by
  rw [MeterEvent.delta, isMetered]
  exact if_pos idle

/-- What a claim goes past an allowance by is what the allowance has no room
for. -/
theorem excess_eq_iff {organization : Organization} {first second : OrgUsage}
    {amount : Int} (positive : 0 < amount) :
    excess (first.used metric) amount (allowance organization metric first) =
        excess (second.used metric) amount
          (allowance organization metric second) ↔
      min amount (remaining organization metric first) =
        min amount (remaining organization metric second) := by
  unfold excess remaining
  omega

/-- An event with the same room in both months adds what it claims past the
month that it counts in. -/
theorem SameRoom.added_eq (sameRoom : event.SameRoom deployment ledger) :
    event.added deployment ledger =
      event.delta
        (ledger.row event.organization.id (event.counted deployment)) := by
  unfold added
  cases isMetered : event.metered with
  | consume metric amount =>
      by_cases idle : amount ≤ 0
      · rw [delta_eq_empty isMetered idle, delta_eq_empty isMetered idle]
      · have positive := not_le.mp idle
        rw [delta_eq_consume isMetered positive,
          delta_eq_consume isMetered positive]
        congr 1
        exact (excess_eq_iff positive).mpr
          (sameRoom metric amount isMetered positive)
  | release => simp only [MeterEvent.delta, isMetered]
  | record => simp only [MeterEvent.delta, isMetered]

theorem sameRoom_of_over
    (same : ∀ metric, (event.added deployment ledger).overBy metric =
      (event.delta (ledger.row event.organization.id
        (event.counted deployment))).overBy metric) :
    event.SameRoom deployment ledger := by
  intro metric amount isMetered positive
  have agrees := same metric
  rw [added, delta_eq_consume isMetered positive,
    delta_eq_consume isMetered positive, over_ofMetric, over_ofMetric,
    if_pos rfl, if_pos rfl] at agrees
  exact (excess_eq_iff positive).mp agrees

/-- With enforcement off, an event makes sure of the month that it measures and
adds to the month that it counts in. -/
theorem apply_forward (unenforced : deployment.billingEnforced = false)
    (forward : event.Forward) :
    event.apply deployment ledger =
      (event.opened deployment ledger).record event.organization.id
        (event.counted deployment) (event.added deployment ledger) := by
  unfold apply opened added
  cases isMetered : event.metered with
  | consume metric amount =>
      by_cases idle : amount ≤ 0
      · rw [delta_eq_empty isMetered idle]
        simp only [Ledger.consumeAcross, if_pos idle]
        exact (if_pos rfl).symm
      · rw [delta_eq_consume isMetered (not_le.mp idle)]
        simp only [Ledger.consumeAcross, if_neg idle, unenforced,
          Ledger.bump_empty]
        rfl
  | release metric amount => exact absurd isMetered (forward metric amount)
  | record =>
      have counted : event.counted deployment = event.month deployment := by
        rw [ClockedEvent.counted, recordedAt, isMetered, ← event.month_eq]
      rw [counted, MeterEvent.delta, isMetered]

theorem keyed_opened (keyed : ledger.Keyed) :
    (event.opened deployment ledger).Keyed := by
  unfold opened
  split
  · split
    · exact keyed
    · exact keyed.put _
  · exact keyed
  · exact keyed

/-- Making sure of a month changes no row that a month shows. -/
theorem row_opened (keyed : ledger.Keyed) (orgId : Nat) (period : Period) :
    (event.opened deployment ledger).row orgId period =
      ledger.row orgId period := by
  unfold opened
  split
  · split
    · rfl
    · rw [Ledger.bump_empty]
      exact keyed.row_put_row _ _ _ _
  · rfl
  · rfl

theorem over_opened (keyed : ledger.Keyed) (orgId : Nat) (period : Period)
    (metric : Metric) :
    (event.opened deployment ledger).overBy orgId period metric =
      ledger.overBy orgId period metric := by
  rw [← Ledger.over_row, row_opened keyed, Ledger.over_row]

theorem opened_of_ne (keyed : ledger.Keyed) {key : Nat × Period}
    (apart : key ≠ (event.organization.id, event.month deployment)) :
    event.opened deployment ledger key = ledger key := by
  unfold opened
  cases event.metered with
  | consume metric amount =>
      dsimp only
      split
      · rfl
      · exact keyed.bump_of_ne _ _ _ apart
  | release => rfl
  | record => rfl

theorem keyed_apply (unenforced : deployment.billingEnforced = false)
    (forward : event.Forward) (keyed : ledger.Keyed) :
    (event.apply deployment ledger).Keyed := by
  rw [apply_forward unenforced forward, MeterEvent.record_eq_bump]
  split
  · exact keyed_opened keyed
  · exact (keyed_opened keyed).put _

/-- What an event does to the overruns. -/
theorem over_apply (unenforced : deployment.billingEnforced = false)
    (forward : event.Forward) (keyed : ledger.Keyed) (orgId : Nat)
    (period : Period) (metric : Metric) :
    (event.apply deployment ledger).overBy orgId period metric =
      ledger.overBy orgId period metric +
        if (orgId, period) =
            (event.organization.id, event.counted deployment) then
          (event.added deployment ledger).overBy metric
        else 0 := by
  rw [apply_forward unenforced forward, MeterEvent.record_eq_bump]
  split
  · next idle =>
    rw [over_opened keyed, idle]
    cases metric <;> simp [UsageDelta.overBy]
  · rw [(keyed_opened keyed).over_bump, over_opened keyed]

/-- An event adds what it claims past the allowance in force exactly if both
its months have the same room for it. -/
theorem over_apply_iff (unenforced : deployment.billingEnforced = false)
    (forward : event.Forward) (keyed : ledger.Keyed) :
    (∀ orgId period metric,
      (event.apply deployment ledger).overBy orgId period metric =
        ledger.overBy orgId period metric +
          event.beyond deployment ledger orgId period metric) ↔
      event.SameRoom deployment ledger := by
  constructor
  · intro accounted
    apply sameRoom_of_over
    intro metric
    have here := accounted event.organization.id (event.counted deployment)
      metric
    rw [over_apply unenforced forward keyed, if_pos rfl, beyond,
      if_pos rfl] at here
    exact Int.add_left_cancel here
  · intro sameRoom orgId period metric
    rw [over_apply unenforced forward keyed, sameRoom.added_eq, beyond]
    split
    · next here =>
      obtain ⟨rfl, rfl⟩ := Prod.mk.inj here
      rfl
    · rfl

theorem Entitled.beyond_eq (entitled : event.Entitled deployment ledger)
    (orgId : Nat) (period : Period) (metric : Metric) :
    event.beyond deployment ledger orgId period metric = 0 := by
  unfold beyond
  by_cases here : (orgId, period) =
      (event.organization.id, event.counted deployment)
  · obtain ⟨rfl, rfl⟩ := Prod.mk.inj here
    rw [if_pos rfl, MeterEvent.delta]
    cases isMetered : event.metered with
    | consume claimed amount =>
        have fits := entitled claimed amount isMetered
        dsimp only at fits ⊢
        split
        · cases metric <;> rfl
        · rw [over_ofMetric, excess]
          split <;> omega
    | release => cases metric <;> rfl
    | record => cases metric <;> rfl
  · rw [if_neg here]

/-! ## Runs of events -/

variable {events : List ClockedEvent} {organization : Organization}

/-- Events one after the other: each begins once the one before is recorded. -/
def Chronological (events : List ClockedEvent) : Prop :=
  events.Pairwise fun earlier later =>
    earlier.recordedAt ≤ later.around.now

/-- A predicate of every event of a run, in the ledger that it finds. -/
def Throughout (deployment : Deployment) (events : List ClockedEvent)
    (ledger : Ledger) (holds : ClockedEvent → Ledger → Prop) : Prop :=
  ∀ before event rest, events = before ++ event :: rest →
    holds event (applyAll deployment before ledger)

theorem Throughout.tail {holds : ClockedEvent → Ledger → Prop}
    {rest : List ClockedEvent}
    (throughout : Throughout deployment (event :: rest) ledger holds) :
    Throughout deployment rest (event.apply deployment ledger) holds := by
  intro before later after split
  exact throughout (event :: before) later after (congrArg _ split)

theorem month_le_counted (calendar : Calendar deployment.periodKey)
    (event : ClockedEvent) :
    (event.month deployment).index ≤ (event.counted deployment).index :=
  calendar.ordered _ _ event.around_le_recordedAt

theorem settled_apply (calendar : Calendar deployment.periodKey)
    (unenforced : deployment.billingEnforced = false)
    (forward : event.Forward) (settled : ledger.Settled latest)
    (reached : latest ≤ (event.month deployment).index) :
    (event.apply deployment ledger).Settled
      (event.counted deployment).index := by
  have later := month_le_counted calendar event
  have isMonth (now : Time) :
      (previousPeriod (deployment.periodKey now)).index + 1 =
        (deployment.periodKey now).index :=
    index_previousPeriod (calendar.year now) (calendar.first now)
  have settledOpened : (event.opened deployment ledger).Settled
      (event.month deployment).index := by
    unfold opened
    split
    · split
      · exact settled.mono reached
      · exact settled.bump reached (isMonth _)
          fun metric => by cases metric <;> exact le_rfl
    · exact settled.mono reached
    · exact settled.mono reached
  rw [apply_forward unenforced forward, MeterEvent.record_eq_bump]
  split
  · exact settledOpened.mono later
  · exact settledOpened.bump later (isMonth _)
      fun metric => MeterEvent.delta_over_nonneg _ metric

/-- Every run of events settles each month with the month before. -/
theorem settled_applyAll (calendar : Calendar deployment.periodKey)
    (unenforced : deployment.billingEnforced = false)
    (forward : ∀ event ∈ events, event.Forward)
    (chronological : Chronological events)
    (settled : ledger.Settled latest)
    (reached : ∀ event ∈ events, latest ≤ (event.month deployment).index) :
    ∃ last, (applyAll deployment events ledger).Settled last := by
  induction events generalizing ledger latest with
  | nil => exact ⟨latest, settled⟩
  | cons event rest inductionHypothesis =>
      obtain ⟨first, others⟩ := List.pairwise_cons.mp chronological
      have next := settled_apply calendar unenforced
        (forward event List.mem_cons_self) settled
        (reached event List.mem_cons_self)
      exact inductionHypothesis
        (fun other member => forward other (List.mem_cons_of_mem _ member))
        others next
        fun other member => calendar.ordered _ _ (first other member)

/-- The row that an event leaves in a month: the one that it finds, one that
the month begins with, or, in the month that it counts in, one with what it
adds. -/
theorem row_apply (unenforced : deployment.billingEnforced = false)
    (forward : event.Forward) (keyed : ledger.Keyed) {row : OrgUsage}
    (stored : event.apply deployment ledger (orgId, period) = some row) :
    row = ledger.row orgId period ∨
      (orgId, period) = (event.organization.id, event.counted deployment) ∧
        row = (ledger.row orgId period).add
          (event.added deployment ledger) := by
  have shown {found : OrgUsage}
      (isFound : event.opened deployment ledger (orgId, period) =
        some found) : found = ledger.row orgId period := by
    rw [← row_opened keyed orgId period, Ledger.row_of_some isFound]
  rw [apply_forward unenforced forward, MeterEvent.record_eq_bump] at stored
  split at stored
  · exact Or.inl (shown stored)
  · by_cases here : (orgId, period) =
        (event.organization.id, event.counted deployment)
    · obtain ⟨rfl, rfl⟩ := Prod.mk.inj here
      rw [(keyed_opened keyed).bump_self, row_opened keyed] at stored
      exact Or.inr ⟨rfl, (Option.some.inj stored).symm⟩
    · rw [(keyed_opened keyed).bump_of_ne _ _ _ here] at stored
      exact Or.inl (shown stored)

/-- In a month of one plan, what went over is what was used past the
allowance, as long as claims find the same room in both their months. -/
theorem closed_applyAll (unenforced : deployment.billingEnforced = false)
    (forward : ∀ event ∈ events, event.Forward) (keyed : ledger.Keyed)
    (sameRoom : Throughout deployment events ledger
      fun event ledger => event.SameRoom deployment ledger)
    (steady : ∀ event ∈ events, event.organization.id = orgId →
      event.counted deployment = period →
        (planFor event.organization).limit metric =
          (planFor organization).limit metric)
    (closed : Closed organization metric (ledger.row orgId period)) :
    ∀ row, applyAll deployment events ledger (orgId, period) = some row →
      Closed organization metric row := by
  induction events generalizing ledger with
  | nil =>
      intro row stored
      rw [← Ledger.row_of_some stored]
      exact closed
  | cons event rest inductionHypothesis =>
      have isForward := forward event List.mem_cons_self
      apply inductionHypothesis
        (fun other member => forward other (List.mem_cons_of_mem _ member))
        (keyed_apply unenforced isForward keyed) sameRoom.tail
        (fun other member => steady other (List.mem_cons_of_mem _ member))
      cases stored : event.apply deployment ledger (orgId, period) with
      | none =>
          rw [Ledger.row_of_none stored]
          exact closed_fresh _ _ _ _ _
      | some row =>
          rw [Ledger.row_of_some stored]
          rcases row_apply unenforced isForward keyed stored with
            rfl | ⟨here, rfl⟩
          · exact closed
          · obtain ⟨rfl, rfl⟩ := Prod.mk.inj here
            have room : event.SameRoom deployment ledger :=
              sameRoom [] event rest rfl
            rw [room.added_eq]
            exact closed_add closed fun _ _ =>
              steady event List.mem_cons_self rfl rfl

/-! ## Months that are not stored yet -/

/-- Events of other months that have been reached leave what a month begins
with. -/
theorem unopened_applyAll (calendar : Calendar deployment.periodKey)
    (unenforced : deployment.billingEnforced = false)
    (forward : ∀ event ∈ events, event.Forward) (keyed : ledger.Keyed)
    (month : (previousPeriod period).index + 1 = period.index)
    (reached : ∀ event ∈ events,
      period.index ≤ (event.month deployment).index)
    (apart : ∀ event ∈ events, event.organization.id = orgId →
      event.month deployment ≠ period ∧ event.counted deployment ≠ period) :
    (applyAll deployment events ledger) (orgId, period) =
        ledger (orgId, period) ∧
      (applyAll deployment events ledger).row orgId period =
        ledger.row orgId period := by
  induction events generalizing ledger with
  | nil => exact ⟨rfl, rfl⟩
  | cons event rest inductionHypothesis =>
      have isForward := forward event List.mem_cons_self
      have isReached := reached event List.mem_cons_self
      have later := month_le_counted calendar event
      have isApart := apart event List.mem_cons_self
      have kept {key : Nat × Period}
          (measured : key ≠ (event.organization.id, event.month deployment))
          (counts : key ≠
            (event.organization.id, event.counted deployment)) :
          event.apply deployment ledger key = ledger key := by
        rw [apply_forward unenforced isForward, MeterEvent.record_eq_bump]
        split
        · exact opened_of_ne keyed measured
        · rw [(keyed_opened keyed).bump_of_ne _ _ _ counts,
            opened_of_ne keyed measured]
      have here : event.apply deployment ledger (orgId, period) =
          ledger (orgId, period) := by
        apply kept
        · intro same
          obtain ⟨sameOrg, samePeriod⟩ := Prod.mk.inj same
          exact (isApart sameOrg.symm).1 samePeriod.symm
        · intro same
          obtain ⟨sameOrg, samePeriod⟩ := Prod.mk.inj same
          exact (isApart sameOrg.symm).2 samePeriod.symm
      have previous : event.apply deployment ledger
          (orgId, previousPeriod period) =
            ledger (orgId, previousPeriod period) := by
        apply kept
        · intro same
          have samePeriod := (Prod.mk.inj same).2
          rw [samePeriod] at month
          omega
        · intro same
          have samePeriod := (Prod.mk.inj same).2
          rw [samePeriod] at month
          omega
      obtain ⟨stored, row⟩ := inductionHypothesis
        (fun other member => forward other (List.mem_cons_of_mem _ member))
        (keyed_apply unenforced isForward keyed)
        (fun other member => reached other (List.mem_cons_of_mem _ member))
        fun other member => apart other (List.mem_cons_of_mem _ member)
      refine ⟨stored.trans here, row.trans ?_⟩
      unfold Ledger.row
      rw [here, previous]

end ClockedEvent

/-! ## The accounting -/

open ClockedEvent

variable {deployment : Deployment} {db : Database}
variable {events : List ClockedEvent}

/-- With enforcement off, whatever is claimed and recorded, one event at a time
and over whatever months.  As long as the clock of no claim turns from a month
to one with other room for the claim, the overrun of a month of one plan is what
was used past the allowance.  A month begins with the overrun of the month
before, and so does what is shown before it is stored.  An event adds to the
overrun what it claims past the allowance in force exactly if both its months
have the same room for it, and then adds nothing for what it is entitled to,
whatever the plan is later. -/
theorem overruns_accounted (calendar : Calendar deployment.periodKey)
    (unenforced : deployment.billingEnforced = false)
    (constraints : db.Constraints) (unmetered : db.usage = [])
    (isOrg : ∀ event ∈ events, db.HasOrganization event.organization.id)
    (forward : ∀ event ∈ events, event.Forward)
    (chronological : Chronological events) :
    ((∀ before event rest, events = before ++ event :: rest →
        event.SameRoom deployment (serveAll deployment before db).ledger) →
      ∀ orgId period metric organization,
        (∀ event ∈ events, event.organization.id = orgId →
          event.counted deployment = period →
            (planFor event.organization).limit metric =
              (planFor organization).limit metric) →
        ∀ row, (serveAll deployment events db).usageOf orgId period =
            some row →
          row.overBy metric =
            max 0 (row.used metric - allowance organization metric row)) ∧
    (∀ orgId period row metric,
      (serveAll deployment events db).usageOf orgId period = some row →
        row.carried metric =
          (serveAll deployment events db).ledger.overBy orgId
            (previousPeriod period) metric ∧
        ∀ organization, 0 ≤ allowance organization metric row) ∧
    (∀ around orgId, db.HasOrganization orgId →
      (serveAll deployment events db).usageOf orgId
        (deployment.periodKey around.now) = none →
      ∀ more, (∀ event ∈ more, db.HasOrganization event.organization.id) →
        (∀ event ∈ more, event.Forward) →
        (∀ event ∈ more, around.now ≤ event.around.now) →
        (∀ event ∈ more, event.organization.id = orgId →
          event.month deployment ≠ deployment.periodKey around.now ∧
            event.counted deployment ≠ deployment.periodKey around.now) →
        (runProgram deployment around
            (ensureRow orgId (deployment.periodKey around.now))
            (serveAll deployment (events ++ more) db)).2.usageOf orgId
              (deployment.periodKey around.now) =
          some (runProgram deployment around
            (usage orgId (deployment.periodKey around.now))
            (serveAll deployment events db)).1.1) ∧
    ∀ before event rest, events = before ++ event :: rest →
      ((∀ orgId period metric,
          (event.serve deployment
              (serveAll deployment before db)).ledger.overBy orgId period
                metric =
            (serveAll deployment before db).ledger.overBy orgId period metric +
              event.beyond deployment (serveAll deployment before db).ledger
                orgId period metric) ↔
        event.SameRoom deployment (serveAll deployment before db).ledger) ∧
      (event.SameRoom deployment (serveAll deployment before db).ledger →
        event.Entitled deployment (serveAll deployment before db).ledger →
          ∀ orgId period metric,
            (event.serve deployment
                (serveAll deployment before db)).ledger.overBy orgId period
                  metric =
              (serveAll deployment before db).ledger.overBy orgId period
                metric) := by
  have empty : db.ledger = fun _ => none := by
    funext key
    rw [Database.ledger, unmetered]
    rfl
  have meters : Database.Meters db (serveAll deployment events db) _ :=
    serveAll_meters constraints isOrg
  have keyed := db.ledger_keyed
  have served {before : List ClockedEvent} {event : ClockedEvent}
      {rest : List ClockedEvent} (split : events = before ++ event :: rest) :
      Database.Meters db (serveAll deployment before db)
          (applyAll deployment before db.ledger) ∧
        Database.Meters (serveAll deployment before db)
          (event.serve deployment (serveAll deployment before db))
          (event.apply deployment (serveAll deployment before db).ledger) := by
    have earlier : Database.Meters db (serveAll deployment before db) _ :=
      serveAll_meters constraints fun other isBefore => by
        apply isOrg other
        rw [split]
        exact List.mem_append_left _ isBefore
    refine ⟨earlier, serve_meters earlier.constraints ?_⟩
    apply earlier.hasOrganization
    apply isOrg event
    rw [split]
    exact List.mem_append_right _ List.mem_cons_self
  refine ⟨?_, ?_, ?_, ?_⟩
  · intro sameRoom orgId period metric organization steady row stored
    rw [Database.usageOf_eq_ledger, meters.ledger] at stored
    apply closed_applyAll unenforced forward keyed _ steady _ row stored
    · intro before event rest split
      rw [← (served split).1.ledger]
      exact sameRoom before event rest split
    · rw [empty, Ledger.row_of_none rfl]
      exact closed_fresh _ _ _ _ _
  · intro orgId period row metric stored
    rw [Database.usageOf_eq_ledger, meters.ledger] at stored
    obtain ⟨last, settled⟩ := settled_applyAll calendar unenforced forward
      chronological Ledger.settled_empty fun _ _ => Nat.zero_le _
    rw [meters.ledger]
    rw [empty] at stored ⊢
    exact ⟨settled.carried orgId period row metric stored,
      fun organization => allowance_nonneg organization metric row⟩
  · intro around orgId known absent more isOrgMore forwardMore later apart
    have moreMeters : Database.Meters (serveAll deployment events db)
        (serveAll deployment more (serveAll deployment events db)) _ :=
      serveAll_meters meters.constraints fun event member =>
        meters.hasOrganization (isOrgMore event member)
    obtain ⟨stored, row⟩ := unopened_applyAll calendar unenforced forwardMore
      (Database.ledger_keyed _)
      (index_previousPeriod (calendar.year around.now)
        (calendar.first around.now))
      (fun event member => calendar.ordered _ _ (later event member)) apart
    rw [← moreMeters.ledger] at stored row
    obtain ⟨isShown, -⟩ := Moves.usage (deployment.periodKey around.now)
      (serveAll deployment events db) meters.constraints
      (meters.hasOrganization known) rfl
    obtain ⟨-, openedMeters⟩ := Moves.ensureRow (stored.trans absent)
      _ moreMeters.constraints
      (moreMeters.hasOrganization (meters.hasOrganization known)) rfl
    rw [serveAll_append, isShown, Database.usageOf_eq_ledger,
      openedMeters.ledger, row]
    exact Ledger.put_self (Ledger.Keyed.key_row (Database.ledger_keyed _) _ _)
  · intro before event rest split
    have isForward := forward event
      (split ▸ List.mem_append_right _ List.mem_cons_self)
    have exactly := over_apply_iff unenforced isForward
      (Database.ledger_keyed (serveAll deployment before db))
    rw [(served split).2.ledger]
    refine ⟨exactly, ?_⟩
    intro sameRoom entitled orgId period metric
    rw [exactly.mpr sameRoom, entitled.beyond_eq, Int.add_zero]

/-! ## Concrete runs -/

namespace Scenario

/-- The deployment in the first two months of a year. -/
def monthly : Deployment :=
  { Scenario.deployment with
    periodKey := fun now => ⟨2026, if now < 100 then 1 else 2⟩ }

theorem calendar_monthly : Calendar monthly.periodKey where
  year _ := show 1 ≤ 2026 by decide
  first now := by
    change 1 ≤ if now < 100 then 1 else 2
    split <;> decide
  ordered earlier later isEarlier := by
    change 12 * 2026 + (if earlier < 100 then 1 else 2) ≤
      12 * 2026 + if later < 100 then 1 else 2
    split
    · split <;> decide
    · next late =>
      rw [if_neg fun early => late (lt_of_le_of_lt isEarlier early)]

/-- The organisation 1, on a plan. -/
def onPlan (plan : String) : Organization where
  id := 1
  name := "org"
  logoSha := none
  plan := plan
  planStatus := "active"
  stripeCustomerId := none
  stripeSubscriptionId := none
  currentPeriodEnd := none
  retentionDays := none

/-- Nothing but the organisation. -/
def founded : Database :=
  { Database.empty with organizations := [onPlan "free"] }

/-- An event of the organisation. -/
def meters (now : Time) (plan : String) (metered : Metered) : MeterEvent :=
  ⟨surroundings now 'm', onPlan plan, metered⟩

/-- Twelve sittings on the free plan, an upgrade and a draft, and the costs of
a call of the agent in the next month. -/
def overrunning : List ClockedEvent :=
  [(meters 1 "free" (.consume .sittings 12)).still,
    (meters 2 "starter" (.consume .drafts 1)).still,
    (meters 100 "starter" (.record (.finite 1) 0)).still]

/-- A clock that moves on after the first reading. -/
def turning (first later : Time) (reading : Nat) : Time :=
  if reading = 0 then first else later

theorem turning_le {first later : Time} (isLater : first ≤ later)
    {reading next : Nat} (follows : reading ≤ next) :
    turning first later reading ≤ turning first later next := by
  unfold turning
  split
  · split
    · exact Int.le_refl first
    · exact isLater
  · rw [if_neg (by omega)]

/-- One more sitting on the free plan, as the month turns. -/
def turn : ClockedEvent where
  toMeterEvent := meters 99 "free" (.consume .sittings 1)
  clock := turning 99 100
  starts := rfl
  advances := turning_le (by decide)

/-- The ten sittings of the free plan, and one more as the month turns. -/
def turningRun : List ClockedEvent :=
  [(meters 1 "free" (.consume .sittings 10)).still, turn]

end Scenario

open Scenario in
theorem overruns_accounted_upgrade :
    ∃ row, (serveAll monthly overrunning founded).usageOf 1 ⟨2026, 2⟩ =
        some row ∧
      row.carried .sittings = 2 ∧
      (serveAll monthly overrunning founded).ledger.overBy 1 ⟨2026, 1⟩
        .sittings = 2 := by
  have isOrg : ∀ event ∈ overrunning,
      founded.HasOrganization event.organization.id := by
    have same : ∀ event ∈ overrunning, event.organization.id = 1 := by
      decide
    intro event member
    exact ⟨onPlan "free", List.mem_cons_self, (same event member).symm⟩
  have forward : ∀ event ∈ overrunning, event.Forward := by
    intro event member metric amount isRelease
    simp only [overrunning, List.mem_cons, List.not_mem_nil, or_false]
      at member
    rcases member with rfl | rfl | rfl <;> cases isRelease
  have chronological : Chronological overrunning := by
    unfold Chronological
    decide
  obtain ⟨-, carries, -, -⟩ := overruns_accounted calendar_monthly rfl
    (by decide) rfl isOrg forward chronological
  have overBy : (serveAll monthly overrunning founded).ledger.overBy 1 ⟨2026, 1⟩
      .sittings = 2 := by
    decide +kernel
  have opened : ((serveAll monthly overrunning founded).usageOf 1
      ⟨2026, 2⟩).isSome := by
    decide +kernel
  obtain ⟨row, stored⟩ := Option.isSome_iff_exists.mp opened
  exact ⟨row, stored, (carries 1 _ row .sittings stored).1.trans overBy, overBy⟩

open Scenario in
/-- On the free plan all along: a sitting that is claimed as January turns is
measured against the ten of January and counted as the first of February, which
is charged with an overrun and hands it on to March. -/
theorem overruns_turn :
    Chronological turningRun ∧
      (∀ event ∈ turningRun, event.organization = onPlan "free") ∧
      ∃ row, (serveAll monthly turningRun founded).usageOf 1 ⟨2026, 2⟩ =
          some row ∧
        row.used .sittings = 1 ∧ allowance (onPlan "free") .sittings row = 10 ∧
        row.overBy .sittings = 1 ∧
        row.overBy .sittings ≠
          max 0 (row.used .sittings -
            allowance (onPlan "free") .sittings row) ∧
        ((serveAll monthly turningRun founded).ledger.row 1
          ⟨2026, 3⟩).carried .sittings = 1 := by
  have opened : ((serveAll monthly turningRun founded).usageOf 1
      ⟨2026, 2⟩).isSome := by
    decide +kernel
  have shows : ∀ row ∈ (serveAll monthly turningRun founded).usageOf 1
      ⟨2026, 2⟩, row.used .sittings = 1 ∧
        allowance (onPlan "free") .sittings row = 10 ∧
        row.overBy .sittings = 1 := by
    decide +kernel
  have carried : ((serveAll monthly turningRun founded).ledger.row 1
      ⟨2026, 3⟩).carried .sittings = 1 := by
    decide +kernel
  obtain ⟨row, stored⟩ := Option.isSome_iff_exists.mp opened
  obtain ⟨used, allowed, overBy⟩ := shows row stored
  refine ⟨?_, ?_, row, stored, used, allowed, overBy, ?_, carried⟩
  · unfold Chronological
    decide
  · intro event member
    simp only [turningRun, List.mem_cons, List.not_mem_nil, or_false]
      at member
    rcases member with rfl | rfl <;> rfl
  · rw [overBy, used, allowed]
    decide

end AssessmentPlatform
