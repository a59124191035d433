import AssessmentPlatform.Records.Overrun
import AssessmentPlatform.Grading.Budget

/-!
# Claims that are handed back

When handing a claim back leaves the ledger that the same events leave without
the claim.
-/

namespace AssessmentPlatform

open Rows

/-! ## Rows -/

namespace OrgUsage

variable (row : OrgUsage) (delta : UsageDelta) (metric other : Metric)
variable (value later amount : Int)

/-- The row with more units of a metric on the counter. -/
def ahead : OrgUsage :=
  row.setUsed (row.used metric + amount) metric

theorem setUsed_key : (row.setUsed value metric).key = row.key := by
  cases metric <;> rfl

theorem setUsed_used : row.setUsed (row.used metric) metric = row := by
  cases metric <;> rfl

theorem setUsed_setUsed :
    (row.setUsed value metric).setUsed later metric =
      row.setUsed later metric := by
  cases metric <;> rfl

theorem setUsed_comm (different : other ≠ metric) :
    (row.setUsed value metric).setUsed later other =
      (row.setUsed later other).setUsed value metric := by
  cases metric <;> cases other <;> first | rfl | exact absurd rfl different

theorem over_setUsed :
    (row.setUsed value metric).overBy other = row.overBy other := by
  cases metric <;> cases other <;> rfl

theorem ahead_key : (row.ahead metric amount).key = row.key :=
  setUsed_key row metric _

theorem used_ahead_self :
    (row.ahead metric amount).used metric = row.used metric + amount :=
  used_setUsed_self row _ metric

theorem used_ahead_of_ne (different : other ≠ metric) :
    (row.ahead metric amount).used other = row.used other :=
  used_setUsed_of_ne row _ different

theorem carried_ahead :
    (row.ahead metric amount).carried other = row.carried other :=
  carried_setUsed row _ metric other

theorem ahead_add :
    (row.ahead metric amount).add delta =
      (row.add delta).ahead metric amount := by
  cases metric
  · change { row.add delta with
        sittings := row.sittings + amount + delta.sittings } =
      { row.add delta with
        sittings := row.sittings + delta.sittings + amount }
    rw [Int.add_right_comm]
  · change { row.add delta with
        drafts := row.drafts + amount + delta.drafts } =
      { row.add delta with
        drafts := row.drafts + delta.drafts + amount }
    rw [Int.add_right_comm]

theorem ahead_setUsed_self :
    (row.ahead metric amount).setUsed (value + amount) metric =
      (row.setUsed value metric).ahead metric amount := by
  rw [ahead, setUsed_setUsed, ahead, used_setUsed_self, setUsed_setUsed]

theorem ahead_setUsed_of_ne (different : other ≠ metric) :
    (row.ahead metric amount).setUsed value other =
      (row.setUsed value other).ahead metric amount := by
  rw [ahead, setUsed_comm _ _ _ _ _ different, ahead,
    used_setUsed_of_ne _ _ different.symm]

theorem allowance_ahead (organization : Organization) :
    allowance organization other (row.ahead metric amount) =
      allowance organization other row := by
  rw [allowance, allowance, carried_ahead]

end OrgUsage

theorem carriedOf_ahead (row : OrgUsage) (metric : Metric) (amount : Int) :
    carriedOf (some (row.ahead metric amount)) = carriedOf (some row) := by
  cases metric <;> rfl

/-- A month comes right after the one before it. -/
theorem previousPeriod_ne {period : Period}
    (month : (previousPeriod period).index + 1 = period.index) :
    previousPeriod period ≠ period := by
  intro same
  rw [same] at month
  omega

/-! ## What an event writes -/

namespace MeterEvent

variable (deployment : Deployment) (event : MeterEvent) (ledger : Ledger)

/-- The key of the row that an event is about. -/
def key : Nat × Period :=
  (event.organization.id, event.month deployment)

/-- The row that an event writes, from the row that is stored and the one that
is shown. -/
def written (enforced : Bool) (stored : Option OrgUsage) (row : OrgUsage) :
    Option OrgUsage :=
  match event.metered with
  | .consume metric amount =>
      let limit := allowance event.organization metric row
      if amount ≤ 0 then none
      else if !enforced then
        some (row.add (.ofMetric metric amount
          (excess (row.used metric) amount limit)))
      else if row.used metric + amount ≤ limit then
        some (row.setUsed (row.used metric + amount) metric)
      else some row
  | .release metric amount =>
      stored.map fun row =>
        row.setUsed (max 0 (row.used metric - amount)) metric
  | .record judgeCostUsd draftCostUsd =>
      if costs judgeCostUsd draftCostUsd = {} then none
      else some (row.add (costs judgeCostUsd draftCostUsd))

variable {deployment event ledger}

/-- The row that an event finds. -/
abbrev shown (event : MeterEvent) (deployment : Deployment)
    (ledger : Ledger) : OrgUsage :=
  ledger.row event.organization.id (event.month deployment)

theorem apply_eq_written :
    event.apply deployment ledger =
      match event.written deployment.billingEnforced
          (ledger (event.key deployment)) (event.shown deployment ledger) with
      | none => ledger
      | some row => ledger.put row := by
  unfold apply written
  cases event.metered with
  | consume metric amount =>
      dsimp only
      unfold Ledger.consume
      split
      · rfl
      · dsimp only
        split
        · rfl
        · split <;> rfl
  | release metric amount =>
      dsimp only [key]
      unfold Ledger.release
      cases ledger (event.organization.id, event.month deployment) <;> rfl
  | record =>
      dsimp only
      unfold Ledger.record
      split <;> rfl

theorem written_key {enforced : Bool} {stored : Option OrgUsage}
    {row new : OrgUsage} (same : ∀ old, stored = some old → old = row)
    (writes : event.written enforced stored row = some new) :
    new.key = row.key := by
  unfold written at writes
  cases isMetered : event.metered with
  | consume metric amount =>
      rw [isMetered] at writes
      dsimp only at writes
      split at writes
      · cases writes
      · split at writes
        · rw [← Option.some.inj writes]
          rfl
        · split at writes
          · rw [← Option.some.inj writes]
            exact row.setUsed_key metric _
          · rw [← Option.some.inj writes]
  | release metric amount =>
      rw [isMetered] at writes
      obtain ⟨old, isStored, rfl⟩ := Option.map_eq_some_iff.mp writes
      rw [same old isStored]
      exact row.setUsed_key metric _
  | record =>
      rw [isMetered] at writes
      dsimp only at writes
      split at writes
      · cases writes
      · rw [← Option.some.inj writes]
        rfl

theorem shown_of_stored {row : OrgUsage}
    (stored : ledger (event.key deployment) = some row) :
    row = event.shown deployment ledger :=
  (Ledger.row_of_some stored).symm

/-- Away from its key an event changes nothing. -/
theorem apply_of_key_ne (keyed : ledger.Keyed) {key : Nat × Period}
    (apart : key ≠ event.key deployment) :
    event.apply deployment ledger key = ledger key := by
  rw [apply_eq_written]
  split
  · rfl
  · next row writes =>
    have isKey : row.key = event.key deployment := by
      rw [written_key (fun _ stored => shown_of_stored stored) writes]
      exact keyed.key_row _ _
    exact Ledger.put_of_ne (isKey.symm ▸ apart)

/-- At its key an event leaves what it writes, if it writes anything. -/
theorem apply_at_key (keyed : ledger.Keyed) :
    event.apply deployment ledger (event.key deployment) =
      (event.written deployment.billingEnforced
        (ledger (event.key deployment)) (event.shown deployment ledger)).or
          (ledger (event.key deployment)) := by
  rw [apply_eq_written]
  split
  · next nothing => rw [nothing, Option.none_or]
  · next row writes =>
    have isKey : row.key = event.key deployment := by
      rw [written_key (fun _ stored => shown_of_stored stored) writes]
      exact keyed.key_row _ _
    rw [writes, Option.some_or]
    exact Ledger.put_self isKey

theorem keyed_of_apply (keyed : ledger.Keyed) :
    (event.apply deployment ledger).Keyed := by
  rw [apply_eq_written]
  split
  · exact keyed
  · exact keyed.put _

end MeterEvent

/-! ## With and without the claim -/

/-- Two ledgers that differ by one claim in one month. -/
structure Ledger.Ahead (orgId : Nat) (period : Period) (metric : Metric)
    (amount : Int) (ledger ahead : Ledger) : Prop where
  keyed : ledger.Keyed
  keyedAhead : ahead.Keyed
  here : ahead (orgId, period) =
    some ((ledger.row orgId period).ahead metric amount)
  elsewhere : ∀ key, key ≠ (orgId, period) → ahead key = ledger key

namespace Ledger.Ahead

variable {orgId : Nat} {period : Period} {metric : Metric} {amount : Int}
variable {ledger ahead : Ledger}

theorem row_here (differ : Ahead orgId period metric amount ledger ahead) :
    ahead.row orgId period =
      (ledger.row orgId period).ahead metric amount :=
  row_of_some differ.here

/-- The month after begins with the same figures. -/
theorem carriedOf_eq (differ : Ahead orgId period metric amount ledger ahead)
    (key : Nat × Period) :
    carriedOf (ahead key) = carriedOf (ledger key) := by
  by_cases here : key = (orgId, period)
  · rw [here, differ.here, carriedOf_ahead]
    cases stored : ledger (orgId, period) with
    | some row => rw [row_of_some stored]
    | none => rw [row_of_none stored]; rfl
  · rw [differ.elsewhere key here]

theorem row_elsewhere
    (differ : Ahead orgId period metric amount ledger ahead) (other : Nat)
    (later : Period) (apart : (other, later) ≠ (orgId, period)) :
    ahead.row other later = ledger.row other later := by
  unfold row
  rw [differ.elsewhere _ apart, differ.carriedOf_eq]

end Ledger.Ahead

namespace MeterEvent

variable {deployment : Deployment} {event : MeterEvent}
variable {orgId : Nat} {period : Period} {metric : Metric} {amount : Int}
variable {ledger ahead : Ledger}

/-- An event that a claim in a month does not disturb: its own claim falls on
the same side of the allowance either way, and what it hands back is on the
counter either way. -/
def Undisturbed (deployment : Deployment) (orgId : Nat) (period : Period)
    (metric : Metric) (amount : Int) (event : MeterEvent)
    (ledger : Ledger) : Prop :=
  event.key deployment = (orgId, period) →
    match event.metered with
    | .consume claimed more =>
        let row := event.shown deployment ledger
        let limit := allowance event.organization metric row
        claimed = metric → 0 < more →
          row.used metric + amount + more ≤ limit ∨
            if deployment.billingEnforced then limit < row.used metric + more
            else limit ≤ row.used metric
    | .release claimed less =>
        0 ≤ less ∧ (claimed = metric →
          less ≤ (event.shown deployment ledger).used metric)
    | .record _ _ => True

/-- What an event writes is ahead by the claim, if the claim does not disturb
it. -/
theorem Undisturbed.written
    (undisturbed : event.Undisturbed deployment orgId period metric amount
      ledger)
    (nonneg : 0 ≤ amount)
    (isKey : event.key deployment = (orgId, period)) :
    (event.written deployment.billingEnforced
        (some ((event.shown deployment ledger).ahead metric amount))
        ((event.shown deployment ledger).ahead metric amount)).getD
          ((event.shown deployment ledger).ahead metric amount) =
      ((event.written deployment.billingEnforced
        (ledger (event.key deployment)) (event.shown deployment ledger)).getD
          (event.shown deployment ledger)).ahead metric amount := by
  have isUndisturbed := undisturbed isKey
  have fresh (absent : ledger (event.key deployment) = none)
      (metric : Metric) :
      (event.shown deployment ledger).used metric = 0 := by
    rw [shown, Ledger.row_of_none absent]
    cases metric <;> rfl
  have stored (row : OrgUsage)
      (found : ledger (event.key deployment) = some row) :
      row = event.shown deployment ledger :=
    shown_of_stored found
  generalize event.shown deployment ledger = row at *
  generalize ledger (event.key deployment) = found at *
  unfold MeterEvent.written
  cases isMetered : event.metered with
  | consume claimed more =>
      rw [isMetered] at isUndisturbed
      dsimp only at isUndisturbed ⊢
      rw [row.allowance_ahead]
      by_cases idle : more ≤ 0
      · rw [if_pos idle, if_pos idle]
        rfl
      · rw [if_neg idle, if_neg idle]
        have positive := not_le.mp idle
        by_cases same : claimed = metric
        · subst same
          have fits := isUndisturbed rfl positive
          rw [row.used_ahead_self]
          cases enforced : deployment.billingEnforced with
          | false =>
              rw [enforced] at fits
              have alike : excess (row.used claimed + amount) more
                  (allowance event.organization claimed row) =
                    excess (row.used claimed) more
                      (allowance event.organization claimed row) := by
                unfold excess
                simp only [Bool.false_eq_true, if_false] at fits
                omega
              simp only [Bool.not_false, if_true, Option.getD_some]
              rw [alike, row.ahead_add]
          | true =>
              rw [enforced] at fits
              simp only [if_true] at fits
              simp only [Bool.not_true, Bool.false_eq_true, if_false]
              by_cases granted : row.used claimed + more ≤
                  allowance event.organization claimed row
              · have both : row.used claimed + amount + more ≤
                    allowance event.organization claimed row := by
                  omega
                rw [if_pos both, if_pos granted, Option.getD_some,
                  Option.getD_some, Int.add_right_comm,
                  row.ahead_setUsed_self]
              · have neither : ¬row.used claimed + amount + more ≤
                    allowance event.organization claimed row := by
                  omega
                rw [if_neg neither, if_neg granted, Option.getD_some,
                  Option.getD_some]
        · rw [row.used_ahead_of_ne metric claimed amount same]
          split
          · rw [Option.getD_some, Option.getD_some, row.ahead_add]
          · split
            · rw [Option.getD_some, Option.getD_some,
                row.ahead_setUsed_of_ne metric claimed _ amount same]
            · rfl
  | release claimed less =>
      rw [isMetered] at isUndisturbed
      obtain ⟨lessNonneg, reaches⟩ := isUndisturbed
      have written : (found.map fun row =>
          row.setUsed (max 0 (row.used claimed - less)) claimed).getD row =
            row.setUsed (max 0 (row.used claimed - less)) claimed := by
        cases found with
        | some old =>
            rw [stored old rfl, Option.map_some, Option.getD_some]
        | none =>
            have nothing : max 0 (row.used claimed - less) =
                row.used claimed := by
              rw [fresh rfl claimed]
              omega
            rw [nothing, row.setUsed_used, Option.map_none, Option.getD_none]
      dsimp only
      rw [written, Option.map_some, Option.getD_some]
      by_cases same : claimed = metric
      · subst same
        have within := reaches rfl
        have apart : max 0 (row.used claimed + amount - less) =
            max 0 (row.used claimed - less) + amount := by
          omega
        rw [row.used_ahead_self, apart, row.ahead_setUsed_self]
      · rw [row.used_ahead_of_ne metric claimed amount same,
          row.ahead_setUsed_of_ne metric claimed _ amount same]
  | record =>
      dsimp only
      split
      · rfl
      · rw [Option.getD_some, Option.getD_some, row.ahead_add]

/-! ## Runs with and without the claim -/

/-- The row that a month shows after an event about it. -/
theorem row_apply_key (keyed : ledger.Keyed)
    (isKey : event.key deployment = (orgId, period))
    (month : (previousPeriod period).index + 1 = period.index) :
    (event.apply deployment ledger).row orgId period =
      (event.written deployment.billingEnforced (ledger (orgId, period))
        (ledger.row orgId period)).getD (ledger.row orgId period) := by
  have atKey : event.apply deployment ledger (event.key deployment) = _ :=
    apply_at_key keyed
  have sameOrg : event.organization.id = orgId := congrArg Prod.fst isKey
  have samePeriod : event.month deployment = period :=
    congrArg Prod.snd isKey
  have previous : event.apply deployment ledger
      (orgId, previousPeriod period) =
        ledger (orgId, previousPeriod period) := by
    apply apply_of_key_ne keyed
    rw [isKey]
    exact fun same => previousPeriod_ne month (congrArg Prod.snd same)
  rw [isKey, shown, sameOrg, samePeriod] at atKey
  rw [Ledger.row, atKey, previous]
  cases event.written deployment.billingEnforced (ledger (orgId, period))
      (ledger.row orgId period) with
  | some row => rfl
  | none => rfl

/-- A month shows the same row after an event about another one. -/
theorem row_apply_of_key_ne (keyed : ledger.Keyed)
    (apart : (orgId, period) ≠ event.key deployment)
    (previous : (orgId, previousPeriod period) ≠ event.key deployment) :
    (event.apply deployment ledger).row orgId period =
      ledger.row orgId period := by
  unfold Ledger.row
  rw [apply_of_key_ne keyed apart, apply_of_key_ne keyed previous]

/-- An event that the claim does not disturb leaves ledgers that differ by the
claim. -/
theorem ahead_apply
    (differ : Ledger.Ahead orgId period metric amount ledger ahead)
    (undisturbed : event.Undisturbed deployment orgId period metric amount
      ledger)
    (nonneg : 0 ≤ amount)
    (month : (previousPeriod period).index + 1 = period.index)
    (reached : period.index ≤ (event.month deployment).index) :
    Ledger.Ahead orgId period metric amount (event.apply deployment ledger)
      (event.apply deployment ahead) := by
  have keyed := differ.keyed
  have keyedAhead := differ.keyedAhead
  by_cases isKey : event.key deployment = (orgId, period)
  · have sameOrg : event.organization.id = orgId := congrArg Prod.fst isKey
    have samePeriod : event.month deployment = period :=
      congrArg Prod.snd isKey
    have shownHere : event.shown deployment ledger =
        ledger.row orgId period := by
      rw [shown, sameOrg, samePeriod]
    have shownAhead : event.shown deployment ahead =
        (ledger.row orgId period).ahead metric amount := by
      rw [shown, sameOrg, samePeriod, differ.row_here]
    have writes := undisturbed.written nonneg isKey
    rw [shownHere, isKey] at writes
    constructor
    · exact keyed_of_apply keyed
    · exact keyed_of_apply keyedAhead
    · rw [← isKey, apply_at_key keyedAhead, isKey, shownAhead, differ.here,
        row_apply_key keyed isKey month, ← writes]
      cases event.written deployment.billingEnforced _ _ with
      | some row => rfl
      | none => rfl
    · intro key apart
      have away : key ≠ event.key deployment := isKey ▸ apart
      rw [apply_of_key_ne keyedAhead away, apply_of_key_ne keyed away,
        differ.elsewhere key apart]
  · have away : (orgId, period) ≠ event.key deployment := Ne.symm isKey
    have previous :
        (orgId, previousPeriod period) ≠ event.key deployment := by
      intro same
      have samePeriod : previousPeriod period = event.month deployment :=
        congrArg Prod.snd same
      rw [samePeriod] at month
      omega
    constructor
    · exact keyed_of_apply keyed
    · exact keyed_of_apply keyedAhead
    · rw [apply_of_key_ne keyedAhead away, differ.here,
        row_apply_of_key_ne keyed away previous]
    · intro key apart
      by_cases atKey : key = event.key deployment
      · have shownAlike : event.shown deployment ahead =
            event.shown deployment ledger := by
          apply differ.row_elsewhere
          exact isKey
        rw [atKey, apply_at_key keyedAhead, apply_at_key keyed, shownAlike,
          differ.elsewhere _ isKey]
      · rw [apply_of_key_ne keyedAhead atKey, apply_of_key_ne keyed atKey,
          differ.elsewhere key apart]

/-- Every event in between is undisturbed by a claim. -/
def AllUndisturbed (deployment : Deployment) (orgId : Nat) (period : Period)
    (metric : Metric) (amount : Int) : List MeterEvent → Ledger → Prop
  | [], _ => True
  | event :: rest, ledger =>
      event.Undisturbed deployment orgId period metric amount ledger ∧
        AllUndisturbed deployment orgId period metric amount rest
          (event.apply deployment ledger)

theorem ahead_applyAll {events : List MeterEvent}
    (differ : Ledger.Ahead orgId period metric amount ledger ahead)
    (undisturbed : AllUndisturbed deployment orgId period metric amount events
      ledger)
    (nonneg : 0 ≤ amount)
    (month : (previousPeriod period).index + 1 = period.index)
    (reached : ∀ event ∈ events,
      period.index ≤ (event.month deployment).index) :
    Ledger.Ahead orgId period metric amount
      (applyAll deployment events ledger)
      (applyAll deployment events ahead) := by
  induction events generalizing ledger ahead with
  | nil => exact differ
  | cons event rest inductionHypothesis =>
      obtain ⟨first, others⟩ := undisturbed
      exact inductionHypothesis
        (ahead_apply differ first nonneg month
          (reached event List.mem_cons_self))
        others fun other member => reached other (List.mem_cons_of_mem _ member)

end MeterEvent

/-! ## The claim and the hand-back -/

namespace Ledger

variable {orgId : Nat} {period : Period} {metric : Metric} {amount : Int}
variable {ledger ahead : Ledger}

theorem Ahead.zero_row
    (same : Ahead orgId period metric 0 ledger ahead) (other : Nat)
    (later : Period) : ahead.row other later = ledger.row other later := by
  by_cases here : (other, later) = (orgId, period)
  · obtain ⟨rfl, rfl⟩ := Prod.mk.inj here
    rw [same.row_here, OrgUsage.ahead, Int.add_zero, OrgUsage.setUsed_used]
  · exact same.row_elsewhere other later here

/-- A claim within the allowance puts the ledger ahead by its amount. -/
theorem Ahead.claim {organization : Organization} {enforced : Bool}
    (keyed : ledger.Keyed) (positive : 0 < amount)
    (entitled : (ledger.row organization.id period).used metric + amount ≤
      allowance organization metric (ledger.row organization.id period)) :
    Ahead organization.id period metric amount ledger
      (ledger.consume enforced organization metric amount period).2 := by
  have isAhead :
      (ledger.consume enforced organization metric amount period).2 =
        ledger.put
          ((ledger.row organization.id period).ahead metric amount) := by
    have within : excess
        ((ledger.row organization.id period).used metric) amount
        (allowance organization metric
          (ledger.row organization.id period)) = 0 := by
      unfold excess
      omega
    unfold consume
    rw [if_neg (not_le.mpr positive)]
    dsimp only
    rw [within, if_pos entitled]
    cases enforced with
    | false => cases metric <;> simp [OrgUsage.add, OrgUsage.ahead,
        OrgUsage.setUsed, OrgUsage.used, UsageDelta.ofMetric]
    | true => rfl
  have isKey : ((ledger.row organization.id period).ahead metric
      amount).key = (organization.id, period) :=
    (OrgUsage.ahead_key _ metric amount).trans (keyed.key_row _ _)
  rw [isAhead]
  constructor
  · exact keyed
  · exact keyed.put _
  · exact put_self isKey
  · intro key apart
    exact put_of_ne (isKey.symm ▸ apart)

/-- Handing it back in its month leaves the ledger without it. -/
theorem Ahead.handBack
    (differ : Ahead orgId period metric amount ledger ahead)
    (nonneg : 0 ≤ (ledger.row orgId period).used metric) :
    Ahead orgId period metric 0 ledger
      (ahead.release orgId metric amount period) := by
  have isKey : (ledger.row orgId period).key = (orgId, period) :=
    differ.keyed.key_row _ _
  have back : ((ledger.row orgId period).ahead metric amount).setUsed
      (max 0 (((ledger.row orgId period).ahead metric amount).used metric -
        amount)) metric = ledger.row orgId period := by
    rw [OrgUsage.used_ahead_self, Int.add_sub_cancel, max_eq_right nonneg,
      OrgUsage.ahead, OrgUsage.setUsed_setUsed, OrgUsage.setUsed_used]
  have released : ahead.release orgId metric amount period =
      ahead.put (ledger.row orgId period) := by
    rw [release, differ.here]
    dsimp only
    rw [back]
  rw [released]
  constructor
  · exact differ.keyed
  · exact differ.keyedAhead.put _
  · rw [put_self isKey, OrgUsage.ahead, Int.add_zero,
      OrgUsage.setUsed_used]
  · intro key apart
    rw [put_of_ne (isKey.symm ▸ apart), differ.elsewhere key apart]

/-- Handing it back in another month does not. -/
theorem Ahead.handBack_elsewhere
    (differ : Ahead orgId period metric amount ledger ahead)
    (positive : 0 < amount) {later : Period} (apart : later ≠ period) :
    (ahead.release orgId metric amount later).row orgId period ≠
      ledger.row orgId period := by
  have kept : ahead.release orgId metric amount later (orgId, period) =
      ahead (orgId, period) := by
    unfold release
    cases stored : ahead (orgId, later) with
    | none => rfl
    | some row =>
        have isKey : row.key = (orgId, later) :=
          Prod.mk.injEq .. ▸ differ.keyedAhead orgId later row stored
        apply put_of_ne
        rw [OrgUsage.setUsed_key, isKey]
        exact fun same => apart (congrArg Prod.snd same).symm
  rw [row_of_some (kept.trans differ.here)]
  intro same
  have used := congrArg (fun row : OrgUsage => row.used metric) same
  rw [OrgUsage.used_ahead_self] at used
  omega

/-! ## Counters -/

/-- Counters are not negative. -/
def Counts (ledger : Ledger) : Prop :=
  ∀ orgId period row metric, ledger (orgId, period) = some row →
    0 ≤ row.used metric

theorem Counts.row (counts : ledger.Counts) (orgId : Nat)
    (period : Period) (metric : Metric) :
    0 ≤ (ledger.row orgId period).used metric := by
  cases stored : ledger (orgId, period) with
  | some row =>
      rw [row_of_some stored]
      exact counts orgId period row metric stored
  | none =>
      rw [row_of_none stored]
      cases metric <;> exact le_rfl

end Ledger

namespace MeterEvent

variable {deployment : Deployment} {event : MeterEvent} {ledger : Ledger}
variable {orgId : Nat} {period : Period} {metric : Metric} {amount : Int}

theorem written_counts {enforced : Bool} {stored : Option OrgUsage}
    {row new : OrgUsage} (same : ∀ old, stored = some old → old = row)
    (counts : ∀ metric, 0 ≤ row.used metric)
    (writes : event.written enforced stored row = some new)
    (metric : Metric) : 0 ≤ new.used metric := by
  have nonneg := counts metric
  have set (value : Int) (claimed : Metric) (isNonneg : 0 ≤ value) :
      0 ≤ (row.setUsed value claimed).used metric := by
    by_cases same : metric = claimed
    · subst same
      rw [OrgUsage.used_setUsed_self]
      exact isNonneg
    · rw [OrgUsage.used_setUsed_of_ne _ _ same]
      exact nonneg
  unfold written at writes
  cases isMetered : event.metered with
  | consume claimed more =>
      rw [isMetered] at writes
      dsimp only at writes
      split at writes
      · cases writes
      · next positive =>
        have claims := counts claimed
        split at writes
        · rw [← Option.some.inj writes, used_add, used_ofMetric]
          split <;> omega
        · split at writes
          · rw [← Option.some.inj writes]
            apply set
            omega
          · rw [← Option.some.inj writes]
            exact nonneg
  | release claimed less =>
      rw [isMetered] at writes
      obtain ⟨old, isStored, rfl⟩ := Option.map_eq_some_iff.mp writes
      rw [same old isStored]
      exact set _ _ (le_max_left 0 _)
  | record =>
      rw [isMetered] at writes
      dsimp only at writes
      split at writes
      · cases writes
      · rw [← Option.some.inj writes, used_add]
        cases metric <;> simpa [costs, UsageDelta.used] using nonneg

theorem counts_apply (keyed : ledger.Keyed) (counts : ledger.Counts) :
    (event.apply deployment ledger).Counts := by
  intro orgId period row metric stored
  by_cases atKey : (orgId, period) = event.key deployment
  · rw [atKey, apply_at_key keyed] at stored
    rcases Option.or_eq_some_iff.mp stored with writes | ⟨-, old⟩
    · apply written_counts (fun _ found => shown_of_stored found) _ writes
      exact fun metric => counts.row _ _ metric
    · exact counts _ _ row metric old
  · rw [apply_of_key_ne keyed atKey] at stored
    exact counts orgId period row metric stored

theorem keyed_applyAll {events : List MeterEvent} (keyed : ledger.Keyed) :
    (applyAll deployment events ledger).Keyed := by
  induction events generalizing ledger with
  | nil => exact keyed
  | cons event rest inductionHypothesis =>
      exact inductionHypothesis (keyed_of_apply keyed)

theorem counts_applyAll {events : List MeterEvent} (keyed : ledger.Keyed)
    (counts : ledger.Counts) :
    (applyAll deployment events ledger).Counts := by
  induction events generalizing ledger with
  | nil => exact counts
  | cons event rest inductionHypothesis =>
      exact inductionHypothesis (keyed_of_apply keyed)
        (counts_apply keyed counts)

/-! ## Overruns that a claim leaves -/

/-- With enforcement off, the row that a month shows after an event that hands
nothing back. -/
theorem row_apply_forward (unenforced : deployment.billingEnforced = false)
    (forward : event.Forward) (keyed : ledger.Keyed)
    (month : (previousPeriod period).index + 1 = period.index)
    (reached : period.index ≤ (event.month deployment).index) :
    (event.apply deployment ledger).row orgId period =
      if event.key deployment = (orgId, period) then
        (ledger.row orgId period).add (event.delta (ledger.row orgId period))
      else ledger.row orgId period := by
  split
  · next isKey =>
    have sameOrg : event.organization.id = orgId := congrArg Prod.fst isKey
    have samePeriod : event.month deployment = period :=
      congrArg Prod.snd isKey
    rw [apply_forward unenforced forward, record_eq_bump, sameOrg, samePeriod]
    split
    · next idle =>
      rw [idle]
      simp [OrgUsage.add]
    · exact Ledger.row_of_some (keyed.bump_self orgId period _)
  · next apart =>
    apply row_apply_of_key_ne keyed (Ne.symm apart)
    intro same
    have samePeriod : previousPeriod period = event.month deployment :=
      congrArg Prod.snd same
    rw [samePeriod] at month
    omega

/-- A row that is ahead of another one by a claim, and by an overrun. -/
structure Leads (metric : Metric) (amount overrun : Int)
    (row ahead : OrgUsage) : Prop where
  used : ahead.used metric = row.used metric + amount
  carried : ahead.carried metric = row.carried metric
  overBy : ahead.overBy metric = row.overBy metric + overrun

variable {overrun : Int} {ahead : Ledger}

/-- An event only adds to the overrun that a claim leaves, and adds nothing
only if it is not disturbed. -/
theorem leads_apply (unenforced : deployment.billingEnforced = false)
    (forward : event.Forward) (keyed : ledger.Keyed)
    (keyedAhead : ahead.Keyed) (positive : 0 < amount)
    (month : (previousPeriod period).index + 1 = period.index)
    (reached : period.index ≤ (event.month deployment).index)
    (leads : Leads metric amount overrun (ledger.row orgId period)
      (ahead.row orgId period)) :
    ∃ later, overrun ≤ later ∧
      Leads metric amount later
        ((event.apply deployment ledger).row orgId period)
        ((event.apply deployment ahead).row orgId period) ∧
      (later = overrun → event.Undisturbed deployment orgId period metric
        amount ledger) := by
  rw [row_apply_forward unenforced forward keyed month reached,
    row_apply_forward unenforced forward keyedAhead month reached]
  by_cases isKey : event.key deployment = (orgId, period)
  · rw [if_pos isKey, if_pos isKey]
    have sameOrg : event.organization.id = orgId := congrArg Prod.fst isKey
    have samePeriod : event.month deployment = period :=
      congrArg Prod.snd isKey
    have shownHere : event.shown deployment ledger =
        ledger.row orgId period := by
      rw [shown, sameOrg, samePeriod]
    unfold Undisturbed
    rw [shownHere]
    generalize ledger.row orgId period = row at leads ⊢
    generalize ahead.row orgId period = rowAhead at leads ⊢
    have steady (delta deltaAhead : UsageDelta)
        (used : deltaAhead.used metric = delta.used metric) :
        Leads metric amount
          (overrun + (deltaAhead.overBy metric - delta.overBy metric))
          (row.add delta) (rowAhead.add deltaAhead) := by
      constructor
      · rw [used_add, used_add, used, leads.used]
        exact Int.add_right_comm _ _ _
      · rw [carried_add, carried_add, leads.carried]
      · rw [over_add, over_add, leads.overBy]
        omega
    have added := steady (event.delta row) (event.delta rowAhead)
    unfold delta at added ⊢
    cases isMetered : event.metered with
    | consume claimed more =>
        rw [isMetered] at added
        dsimp only at added ⊢
        by_cases idle : more ≤ 0
        · rw [if_pos idle, if_pos idle] at added ⊢
          refine ⟨_, ?_, added rfl, fun _ _ _ positive => ?_⟩
          · omega
          · exact absurd idle (not_le.mpr positive)
        · rw [if_neg idle, if_neg idle] at added ⊢
          refine ⟨_, ?_, added ?_, ?_⟩
          · rw [over_ofMetric, over_ofMetric]
            split
            · next same =>
              subst same
              have allowances : allowance event.organization claimed
                  rowAhead = allowance event.organization claimed row := by
                rw [allowance, allowance, leads.carried]
              rw [leads.used, allowances]
              unfold excess
              omega
            · omega
          · rw [used_ofMetric, used_ofMetric]
          · intro kept _ same _
            subst same
            have allowances : allowance event.organization claimed
                rowAhead = allowance event.organization claimed row := by
              rw [allowance, allowance, leads.carried]
            rw [over_ofMetric, over_ofMetric, if_pos rfl, if_pos rfl,
              leads.used, allowances] at kept
            unfold excess at kept
            rw [unenforced]
            simp only [Bool.false_eq_true, if_false]
            omega
    | release claimed less => exact absurd isMetered (forward claimed less)
    | record =>
        rw [isMetered] at added
        dsimp only at added ⊢
        refine ⟨_, ?_, added rfl, fun _ _ => trivial⟩
        omega
  · rw [if_neg isKey, if_neg isKey]
    exact ⟨overrun, le_rfl, leads, fun _ here => absurd here isKey⟩

theorem leads_applyAll {events : List MeterEvent}
    (unenforced : deployment.billingEnforced = false)
    (forward : ∀ event ∈ events, event.Forward) (keyed : ledger.Keyed)
    (keyedAhead : ahead.Keyed) (positive : 0 < amount)
    (month : (previousPeriod period).index + 1 = period.index)
    (reached : ∀ event ∈ events,
      period.index ≤ (event.month deployment).index)
    (leads : Leads metric amount overrun (ledger.row orgId period)
      (ahead.row orgId period)) :
    ∃ later, overrun ≤ later ∧
      Leads metric amount later
        ((applyAll deployment events ledger).row orgId period)
        ((applyAll deployment events ahead).row orgId period) ∧
      (later = overrun → AllUndisturbed deployment orgId period metric
        amount events ledger) := by
  induction events generalizing ledger ahead overrun with
  | nil => exact ⟨overrun, le_rfl, leads, fun _ => trivial⟩
  | cons event rest inductionHypothesis =>
      obtain ⟨middle, grows, differ, first⟩ := leads_apply unenforced
        (forward event List.mem_cons_self) keyed keyedAhead positive month
        (reached event List.mem_cons_self) leads
      obtain ⟨last, growsMore, differLast, others⟩ := inductionHypothesis
        (fun other member => forward other (List.mem_cons_of_mem _ member))
        (keyed_of_apply keyed) (keyed_of_apply keyedAhead)
        (fun other member => reached other (List.mem_cons_of_mem _ member))
        differ
      refine ⟨last, grows.trans growsMore, differLast, ?_⟩
      intro same
      exact ⟨first (by omega), others (by omega)⟩

end MeterEvent

/-! ## The law -/

open MeterEvent

namespace Ledger

variable {ledger : Ledger} {orgId : Nat} {period later : Period}
variable {metric other : Metric} {amount : Int}

/-- Handing back leaves every overrun. -/
theorem Keyed.over_release (keyed : ledger.Keyed) (wantedOrg : Nat)
    (wanted : Period) :
    (ledger.release orgId metric amount later).overBy wantedOrg wanted other =
      ledger.overBy wantedOrg wanted other := by
  unfold release
  cases stored : ledger (orgId, later) with
  | none => rfl
  | some row =>
      obtain ⟨sameOrg, samePeriod⟩ := keyed orgId later row stored
      have isKey : row.key = (orgId, later) := by
        rw [OrgUsage.key, sameOrg, samePeriod]
      dsimp only
      unfold overBy
      by_cases here : (wantedOrg, wanted) = (orgId, later)
      · rw [here, put_self ((row.setUsed_key metric _).trans isKey), stored]
        exact row.over_setUsed metric other _
      · have apart : (wantedOrg, wanted) ≠ (row.setUsed
            (max 0 (row.used metric - amount)) metric).key := by
          rw [row.setUsed_key, isKey]
          exact here
        rw [put_of_ne apart]

/-- Handing back nothing, or less than nothing, without a claim. -/
theorem release_idle (keyed : ledger.Keyed) (counts : ledger.Counts)
    (idle : amount ≤ 0) :
    (∀ other later,
      (ledger.release orgId metric amount period).row other later =
        ledger.row other later) ↔
      amount = 0 ∨ ledger (orgId, period) = none := by
  unfold release
  cases stored : ledger (orgId, period) with
  | none => simp
  | some row =>
      obtain ⟨sameOrg, samePeriod⟩ := keyed orgId period row stored
      have isKey : row.key = (orgId, period) := by
        rw [OrgUsage.key, sameOrg, samePeriod]
      have nonneg := counts orgId period row metric stored
      constructor
      · intro same
        have here : (ledger.put _).row orgId period = _ := same orgId period
        rw [row_of_some (put_self ((row.setUsed_key metric _).trans isKey)),
          row_of_some stored] at here
        have used := congrArg (fun row : OrgUsage => row.used metric) here
        rw [OrgUsage.used_setUsed_self] at used
        left
        omega
      · rintro (rfl | absent)
        · have unchanged : row.setUsed (max 0 (row.used metric - 0)) metric =
              row := by
            rw [Int.sub_zero, max_eq_right nonneg, row.setUsed_used]
          have kept : ledger.put row = ledger := by
            rw [put, isKey, ← stored, Function.update_eq_self]
          intro other later
          dsimp only
          rw [unchanged, kept]
        · cases absent

end Ledger

variable {deployment : Deployment} {db : Database}
variable {claim handBack : MeterEvent} {between : List MeterEvent}
variable {metric : Metric} {amount : Int}

/-- Every row is the one that the events in between alone leave. -/
def Undone (deployment : Deployment) (claim handBack : MeterEvent)
    (between : List MeterEvent) (db : Database) : Prop :=
  ∀ orgId period,
    (serveAll deployment (claim :: (between ++ [handBack])) db).ledger.row
        orgId period =
      (serveAll deployment between db).ledger.row orgId period

/-- An event that claims nothing past the allowance in force. -/
def MeterEvent.Entitled (event : MeterEvent) (deployment : Deployment)
    (ledger : Ledger) : Prop :=
  ∀ metric amount, event.metered = .consume metric amount →
    let row := ledger.row event.organization.id (event.month deployment)
    row.used metric + amount ≤ allowance event.organization metric row

/-- A claim that leaves no overrun, and disturbs none of the events that
follow. -/
structure QuietClaim (deployment : Deployment) (metric : Metric) (amount : Int)
    (claim : MeterEvent) (between : List MeterEvent) (db : Database) :
    Prop where
  entitled : deployment.billingEnforced = false →
    claim.Entitled deployment db.ledger
  undisturbed : ∀ before event after, between = before ++ event :: after →
    event.Undisturbed deployment claim.organization.id
      (claim.month deployment) metric amount
      (serveAll deployment before db).ledger

/-- The same condition, on ledgers. -/
theorem allUndisturbed_iff {orgId : Nat} {period : Period}
    {events : List MeterEvent} (constraints : db.Constraints)
    (isOrg : ∀ event ∈ events, db.HasOrganization event.organization.id) :
    AllUndisturbed deployment orgId period metric amount events db.ledger ↔
      ∀ before event after, events = before ++ event :: after →
        event.Undisturbed deployment orgId period metric amount
          (serveAll deployment before db).ledger := by
  induction events generalizing db with
  | nil => simp [AllUndisturbed]
  | cons event rest inductionHypothesis =>
      have first : Database.Meters db (event.serve deployment db) _ :=
        serve_meters constraints (isOrg event List.mem_cons_self)
      have others := inductionHypothesis first.constraints
        fun other member => first.hasOrganization
          (isOrg other (List.mem_cons_of_mem _ member))
      rw [first.ledger] at others
      unfold AllUndisturbed
      rw [others]
      constructor
      · rintro ⟨here, after⟩ before other last split
        cases before with
        | nil =>
            obtain ⟨rfl, -⟩ := List.cons.inj split
            exact here
        | cons head before =>
            obtain ⟨rfl, rfl⟩ := List.cons.inj split
            exact after before other last rfl
      · intro all
        constructor
        · exact all [] event rest rfl
        · intro before other last split
          exact all (event :: before) other last (by rw [split]; rfl)

/-- The law on ledgers. -/
theorem undone_iff (constraints : db.Constraints)
    (isOrg : db.HasOrganization claim.organization.id)
    (isOrgBetween : ∀ event ∈ between,
      db.HasOrganization event.organization.id)
    (isHandBack : handBack.metered = .release metric amount)
    (sameOrg : handBack.organization.id = claim.organization.id) :
    Undone deployment claim handBack between db ↔
      ∀ orgId period,
        ((applyAll deployment between
            (claim.apply deployment db.ledger)).release claim.organization.id
              metric amount (handBack.month deployment)).row orgId period =
          (applyAll deployment between db.ledger).row orgId period := by
  have alone : Database.Meters db (serveAll deployment between db) _ :=
    serveAll_meters constraints isOrgBetween
  have claimed : Database.Meters db (claim.serve deployment db) _ :=
    serve_meters constraints isOrg
  have followed : Database.Meters (claim.serve deployment db)
      (serveAll deployment between (claim.serve deployment db)) _ :=
    serveAll_meters claimed.constraints fun event member =>
      claimed.hasOrganization (isOrgBetween event member)
  have isOrgBack : db.HasOrganization handBack.organization.id :=
    sameOrg.symm ▸ isOrg
  have handedBack : Database.Meters
      (serveAll deployment between (claim.serve deployment db))
      (handBack.serve deployment
        (serveAll deployment between (claim.serve deployment db))) _ :=
    serve_meters followed.constraints
      (followed.hasOrganization (claimed.hasOrganization isOrgBack))
  have whole : serveAll deployment (claim :: (between ++ [handBack])) db =
      handBack.serve deployment
        (serveAll deployment between (claim.serve deployment db)) :=
    serveAll_append between [handBack] (claim.serve deployment db)
  unfold Undone
  rw [whole, handedBack.ledger, followed.ledger, claimed.ledger,
    alone.ledger, apply, isHandBack, sameOrg]

/-- With enforcement on, a claim that is granted is within the allowance. -/
theorem entitled_of_granted (constraints : db.Constraints)
    (isOrg : db.HasOrganization claim.organization.id)
    (isClaim : claim.metered = .consume metric amount)
    (positive : 0 < amount) (enforced : deployment.billingEnforced = true)
    (granted : (runProgram deployment claim.around
      (consume (db.platform deployment) claim.organization metric amount)
      db).1 = .granted) :
    claim.Entitled deployment db.ledger := by
  obtain ⟨answer, -⟩ := Moves.consume metric amount db.ledger_keyed rfl db
    constraints isOrg rfl
  rw [answer] at granted
  change (db.ledger.consume deployment.billingEnforced claim.organization
    metric amount (claim.month deployment)).1 = _ at granted
  unfold Ledger.consume at granted
  rw [if_neg (not_le.mpr positive), enforced] at granted
  intro claimed more isMetered
  obtain ⟨rfl, rfl⟩ := Metered.consume.inj (isClaim.symm.trans isMetered)
  by_contra exceeds
  simp only [Bool.not_true, Bool.false_eq_true, if_false, if_neg exceeds]
    at granted
  cases granted

/-- With enforcement off, and no claim handed back in between, a claim that is
undone was a quiet one. -/
theorem quiet_of_undone {returned : Period}
    (calendar : Calendar deployment.periodKey) (constraints : db.Constraints)
    (isOrgBetween : ∀ event ∈ between,
      db.HasOrganization event.organization.id)
    (isClaim : claim.metered = .consume metric amount)
    (later : ∀ event ∈ between, claim.around.now ≤ event.around.now)
    (positive : 0 < amount) (unenforced : deployment.billingEnforced = false)
    (forward : ∀ event ∈ between, event.Forward)
    (undone : ∀ orgId period,
      ((applyAll deployment between
          (db.ledger.consume deployment.billingEnforced claim.organization
            metric amount (claim.month deployment)).2).release
              claim.organization.id metric amount returned).row orgId period =
        (applyAll deployment between db.ledger).row orgId period) :
    QuietClaim deployment metric amount claim between db := by
  have keyed := db.ledger_keyed
  generalize isRow : db.ledger.row claim.organization.id
    (claim.month deployment) = row at *
  generalize isLimit : allowance claim.organization metric row = limit
  have isClaimed : (db.ledger.consume deployment.billingEnforced
      claim.organization metric amount (claim.month deployment)).2 =
        db.ledger.put (row.add (.ofMetric metric amount
          (excess (row.used metric) amount limit))) := by
    rw [Ledger.consume, if_neg (not_le.mpr positive), unenforced, isRow]
    dsimp only
    rw [isLimit]
    rfl
  rw [isClaimed] at undone
  have isKey : row.key = (claim.organization.id, claim.month deployment) := by
    rw [← isRow]
    exact keyed.key_row _ _
  have leads : Leads metric amount
      (excess (row.used metric) amount limit)
      (db.ledger.row claim.organization.id (claim.month deployment))
      ((db.ledger.put (row.add (.ofMetric metric amount
        (excess (row.used metric) amount limit)))).row
          claim.organization.id (claim.month deployment)) := by
    have stored : (db.ledger.put (row.add (.ofMetric metric amount
        (excess (row.used metric) amount limit))))
          (claim.organization.id, claim.month deployment) = some _ :=
      Ledger.put_self isKey
    rw [isRow, Ledger.row_of_some stored]
    constructor
    · rw [used_add, used_ofMetric, if_pos rfl]
    · rw [carried_add]
    · rw [over_add, over_ofMetric, if_pos rfl]
  have month : (previousPeriod (claim.month deployment)).index + 1 =
      (claim.month deployment).index :=
    index_previousPeriod (calendar.year _) (calendar.first _)
  obtain ⟨last, grows, differ, undisturbed⟩ := leads_applyAll unenforced
    forward keyed (keyed.put _) positive month
    (fun event member => calendar.ordered _ _ (later event member)) leads
  have keyedAfter : (applyAll deployment between
      (db.ledger.put (row.add (.ofMetric metric amount
        (excess (row.used metric) amount limit))))).Keyed :=
    keyed_applyAll (keyed.put _)
  have sameOver := congrArg (fun row : OrgUsage => row.overBy metric)
    (undone claim.organization.id (claim.month deployment))
  rw [Ledger.over_row, keyedAfter.over_release, ← Ledger.over_row,
    differ.overBy] at sameOver
  have nonneg : 0 ≤ excess (row.used metric) amount limit := by
    unfold excess
    omega
  constructor
  · intro _ claimed more isMetered
    obtain ⟨rfl, rfl⟩ := Metered.consume.inj (isClaim.symm.trans isMetered)
    have none : excess (row.used metric) amount limit = 0 := by
      omega
    unfold excess at none
    dsimp only
    rw [isRow, isLimit]
    omega
  · exact (allUndisturbed_iff constraints isOrgBetween).mp
      (undisturbed (by omega))

/-- When a claim that is granted and handed back leaves every row as it is
without the two, whatever is metered in between: with a quiet claim, exactly
when it is handed back in its month; and with enforcement off and no other claim
handed back, only then. Nothing is claimed with an amount that is not positive,
but a negative one is added when it is handed back. -/
theorem release_undoes (calendar : Calendar deployment.periodKey)
    (constraints : db.Constraints) (counts : db.ledger.Counts)
    (isOrg : db.HasOrganization claim.organization.id)
    (isOrgBetween : ∀ event ∈ between,
      db.HasOrganization event.organization.id)
    (isClaim : claim.metered = .consume metric amount)
    (isHandBack : handBack.metered = .release metric amount)
    (sameOrg : handBack.organization.id = claim.organization.id)
    (later : ∀ event ∈ between, claim.around.now ≤ event.around.now)
    (granted : (runProgram deployment claim.around
      (consume (db.platform deployment) claim.organization metric amount)
      db).1 = .granted) :
    (amount ≤ 0 →
      (Undone deployment claim handBack between db ↔
        amount = 0 ∨ (serveAll deployment between db).usageOf
          claim.organization.id (handBack.month deployment) = none)) ∧
    (0 < amount → QuietClaim deployment metric amount claim between db →
      (Undone deployment claim handBack between db ↔
        handBack.month deployment = claim.month deployment)) ∧
    (0 < amount → deployment.billingEnforced = false →
      (∀ event ∈ between, event.Forward) →
      (Undone deployment claim handBack between db ↔
        handBack.month deployment = claim.month deployment ∧
          QuietClaim deployment metric amount claim between db)) := by
  have keyed := db.ledger_keyed
  have alone : Database.Meters db (serveAll deployment between db) _ :=
    serveAll_meters constraints isOrgBetween
  have month := index_previousPeriod (calendar.year claim.around.now)
    (calendar.first claim.around.now)
  have reached : ∀ event ∈ between,
      (claim.month deployment).index ≤ (event.month deployment).index :=
    fun event member => calendar.ordered _ _ (later event member)
  have countsAfter : (applyAll deployment between db.ledger).Counts :=
    counts_applyAll keyed counts
  have claims : claim.apply deployment db.ledger =
      (db.ledger.consume deployment.billingEnforced claim.organization metric
        amount (claim.month deployment)).2 := by
    rw [apply, isClaim]
  have law : Undone deployment claim handBack between db ↔ _ :=
    undone_iff constraints isOrg isOrgBetween isHandBack sameOrg
  rw [law, claims]
  have quietUndone (positive : 0 < amount)
      (quiet : QuietClaim deployment metric amount claim between db) :
      (∀ orgId period,
        ((applyAll deployment between
            (db.ledger.consume deployment.billingEnforced claim.organization
              metric amount (claim.month deployment)).2).release
                claim.organization.id metric amount
                (handBack.month deployment)).row orgId period =
          (applyAll deployment between db.ledger).row orgId period) ↔
        handBack.month deployment = claim.month deployment := by
    have entitled : claim.Entitled deployment db.ledger := by
      cases enforced : deployment.billingEnforced with
      | false => exact quiet.entitled enforced
      | true =>
          exact entitled_of_granted constraints isOrg isClaim positive enforced
            granted
    have differ : Ledger.Ahead claim.organization.id (claim.month deployment)
        metric amount (applyAll deployment between db.ledger)
        (applyAll deployment between (db.ledger.consume
          deployment.billingEnforced claim.organization metric amount
          (claim.month deployment)).2) := ahead_applyAll
      (Ledger.Ahead.claim keyed positive (entitled metric amount isClaim))
      ((allUndisturbed_iff constraints isOrgBetween).mpr quiet.undisturbed)
      positive.le month reached
    constructor
    · intro undone
      by_contra apart
      exact differ.handBack_elsewhere positive apart (undone _ _)
    · intro same
      rw [same]
      exact (differ.handBack (countsAfter.row _ _ _)).zero_row
  refine ⟨?_, ?_, ?_⟩
  · intro idle
    have nothing : (db.ledger.consume deployment.billingEnforced
        claim.organization metric amount (claim.month deployment)).2 =
          db.ledger := by
      rw [Ledger.consume, if_pos idle]
    rw [nothing, Database.usageOf_eq_ledger, alone.ledger]
    exact Ledger.release_idle (alone.ledger ▸ Database.ledger_keyed _)
      countsAfter idle
  · exact quietUndone
  · intro positive unenforced forward
    constructor
    · intro undone
      have quiet := quiet_of_undone calendar constraints isOrgBetween isClaim
        later positive unenforced forward undone
      exact ⟨(quietUndone positive quiet).mp undone, quiet⟩
    · rintro ⟨same, quiet⟩
      exact (quietUndone positive quiet).mpr same

/-! ## Concrete runs -/

namespace Scenario

/-- A draft is claimed. -/
def drafts (now : Time) : MeterEvent :=
  meters now "free" (.consume .drafts 1)

/-- A draft is handed back. -/
def handsBack (now : Time) : MeterEvent :=
  meters now "free" (.release .drafts 1)

/-- The drafts of the free plan are used up. -/
def usedUp : Database :=
  serveAll monthly [meters 0 "free" (.consume .drafts 5)] founded

end Scenario

open Scenario in
theorem release_undoes_draft :
    Undone monthly (drafts 1) (handsBack 3)
      [meters 2 "free" (.consume .sittings 2)] founded := by
  have isOrg : founded.HasOrganization 1 :=
    ⟨onPlan "free", List.mem_cons_self, rfl⟩
  have empty : founded.ledger = fun _ => none := rfl
  have quiet : QuietClaim monthly .drafts 1 (drafts 1)
      [meters 2 "free" (.consume .sittings 2)] founded := by
    constructor
    · intro _ metric amount isMetered
      obtain ⟨rfl, rfl⟩ := Metered.consume.inj isMetered
      decide +kernel
    · intro before event after split _
      cases before with
      | nil =>
          obtain ⟨rfl, -⟩ := List.cons.inj split
          exact fun same => nomatch same
      | cons head before =>
          obtain ⟨-, none⟩ := List.cons.inj split
          exact absurd none.symm
            (List.append_ne_nil_of_right_ne_nil before (List.cons_ne_nil _ _))
  have counts : founded.ledger.Counts := by
    intro orgId period row metric stored
    rw [empty] at stored
    cases stored
  have isOrgBetween : ∀ event ∈ [meters 2 "free" (.consume .sittings 2)],
      founded.HasOrganization event.organization.id := by
    intro event member
    obtain rfl := List.mem_singleton.mp member
    exact isOrg
  have later : ∀ event ∈ [meters 2 "free" (.consume .sittings 2)],
      (drafts 1).around.now ≤ event.around.now := by
    intro event member
    obtain rfl := List.mem_singleton.mp member
    decide
  have isClaim : (drafts 1).metered = .consume .drafts 1 := rfl
  have isHandBack : (handsBack 3).metered = .release .drafts 1 := rfl
  obtain ⟨-, law, -⟩ := release_undoes calendar_monthly (by decide) counts
    isOrg isOrgBetween isClaim isHandBack rfl later (by decide +kernel)
  exact (law (by decide) quiet).mpr (by decide)

open Scenario in
/-- A draft past the allowance leaves its overrun when it is handed back, and a
draft of January that is handed back in February is taken off February. -/
theorem release_leaves_overrun :
    ((runProgram monthly (drafts 1).around
        (consume (usedUp.platform monthly) (onPlan "free") .drafts 1)
        usedUp).1 = .granted ∧
      ¬Undone monthly (drafts 1) (handsBack 2) [] usedUp) ∧
    (runProgram monthly (drafts 1).around
        (consume (founded.platform monthly) (onPlan "free") .drafts 1)
        founded).1 = .granted ∧
      ¬Undone monthly (drafts 1) (handsBack 101) [drafts 100] founded := by
  refine ⟨⟨by decide +kernel, ?_⟩, by decide +kernel, ?_⟩
  · intro undone
    have same := undone 1 ⟨2026, 1⟩
    revert same
    decide +kernel
  · intro undone
    have same := undone 1 ⟨2026, 2⟩
    revert same
    decide +kernel

end AssessmentPlatform
