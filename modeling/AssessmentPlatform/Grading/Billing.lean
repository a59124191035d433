import AssessmentPlatform.Grading.Store

/-!
# Plans, quotas and metering

The entitlement table, the allowance of a month, and the programs that claim,
hand back and record usage.
-/

namespace AssessmentPlatform

open Interleaving

/-- Issue one statement. -/
abbrev issue (op : Op) : Prog (Resp op) :=
  Program.statement op

/-! ## Plans -/

/-- One row of the pricing page. -/
structure Plan where
  key : String
  sittings : Int
  drafts : Int
  seats : Int
  deriving DecidableEq, Repr

/-- `billing.FREE` -/
def freePlan : Plan := ⟨"free", 10, 5, 2⟩

/-- `billing.PLANS` -/
def plans : List Plan :=
  [freePlan, ⟨"starter", 100, 50, 5⟩, ⟨"growth", 500, 250, 20⟩]

/-- `billing.ENTITLED_STATUSES` -/
def entitledStatuses : List String :=
  ["active", "trialing", "past_due"]

/-- `plan_for`: the entitlements that apply to an organisation right now. -/
def planFor (org : Organization) : Plan :=
  if org.planStatus ∈ entitledStatuses then
    (plans.find? fun plan => plan.key == org.plan).getD freePlan
  else
    freePlan

/-- The plan's entitlement to a monthly metric. -/
def Plan.limit (plan : Plan) : Metric → Int
  | .sittings => plan.sittings
  | .drafts => plan.drafts

/-- `allowance`: the plan's entitlement less what the row carries from the
previous month, never negative. -/
def allowance (org : Organization) (metric : Metric) (row : OrgUsage) : Int :=
  max 0 ((planFor org).limit metric - row.carried metric)

/-! ## Months -/

/-- `previous_period` -/
def previousPeriod (period : Period) : Period :=
  if period.month = 1 then ⟨period.year - 1, 12⟩
  else ⟨period.year, period.month - 1⟩

/-- What a month's row carries from the month before, by metric. -/
structure Carried where
  sittings : Int := 0
  drafts : Int := 0
  deriving DecidableEq, Repr

/-- The figures of the previous month's row that are carried: its recorded
overruns, where positive. -/
def carriedOf : Option OrgUsage → Carried
  | none => {}
  | some previous =>
      { sittings :=
          if previous.sittingsOver > 0 then previous.sittingsOver else 0
        drafts := if previous.draftsOver > 0 then previous.draftsOver else 0 }

/-- A month in which nothing has been metered yet. -/
def freshUsage (orgId : Nat) (period : Period) (carried : Carried) :
    OrgUsage where
  orgId := orgId
  period := period
  sittings := 0
  drafts := 0
  sittingsOver := 0
  draftsOver := 0
  sittingsCarried := carried.sittings
  draftsCarried := carried.drafts
  judgeCostUsd := 0
  draftCostUsd := 0

/-! ## Metering programs -/

/-- `carried_from_previous` -/
def carriedFromPrevious (orgId : Nat) (period : Period) : Prog Carried := do
  let previous ← issue (.selectUsage orgId (previousPeriod period))
  return carriedOf previous

/-- `usage`: the month's row, and whether it is stored or transient. -/
def usage (orgId : Nat) (period : Period) : Prog (OrgUsage × Bool) := do
  match ← issue (.selectUsage orgId period) with
  | some row => return (row, true)
  | none =>
      let carried ← carriedFromPrevious orgId period
      return (freshUsage orgId period carried, false)

/-- `_ensure_row`: insert the month's row, tolerating a sibling's insert. -/
def ensureRow (orgId : Nat) (period : Period) : Prog Unit := do
  let carried ← carriedFromPrevious orgId period
  let inserted ← issue (.insertUsage (freshUsage orgId period carried))
  if inserted then issue .commit else issue .rollback

/-- `record`: add to the counters of the current month. -/
def record (platform : Platform) (orgId : Nat) (delta : UsageDelta) :
    Prog Unit := do
  if delta = {} then return ()
  let now ← issue .now
  let period := platform.periodKey now
  let found ← issue (.bumpUsage orgId period delta)
  if !found then
    ensureRow orgId period
    let _ ← issue (.bumpUsage orgId period delta)
  issue .commit

/-- The counters that a metered event of one metric adds to. -/
def UsageDelta.ofMetric (metric : Metric) (amount overrun : Int) :
    UsageDelta :=
  match metric with
  | .sittings => { sittings := amount, sittingsOver := overrun }
  | .drafts => { drafts := amount, draftsOver := overrun }

/-- How `consume` ends: the claim was granted, or a 402 naming the limit. -/
inductive Consumed where
  | granted
  | refused (limit : Int)
  deriving DecidableEq, Repr

/-- The part of `consume` that follows once the month's row has been read. -/
def consumeFrom
    (platform : Platform) (org : Organization) (metric : Metric)
    (amount : Int) (period : Period) (row : OrgUsage) : Prog Consumed := do
  let limit := allowance org metric row
  if !platform.billingEnforced then
    let overrun := min amount (max 0 (row.used metric + amount - limit))
    record platform org.id (.ofMetric metric amount overrun)
    return .granted
  let claimed ← issue (.claimUsage org.id period metric amount limit)
  if !claimed then
    issue .rollback
    return .refused limit
  issue .commit
  return .granted

/-- `consume`: claim `amount` units of a monthly allowance. -/
def consume
    (platform : Platform) (org : Organization) (metric : Metric)
    (amount : Int) : Prog Consumed := do
  if amount ≤ 0 then return .granted
  let now ← issue .now
  let period := platform.periodKey now
  let (row, stored) ← usage org.id period
  if stored then
    consumeFrom platform org metric amount period row
  else
    ensureRow org.id period
    let (row, _) ← usage org.id period
    consumeFrom platform org metric amount period row

/-- `release`: hand back a claim whose work never happened. -/
def release
    (platform : Platform) (orgId : Nat) (metric : Metric) (amount : Int) :
    Prog Unit := do
  let now ← issue .now
  let period := platform.periodKey now
  let (row, stored) ← usage orgId period
  if !stored then return ()
  issue (.saveUsage orgId period metric (row.used metric)
    (max 0 (row.used metric - amount)))
  issue .commit

/-! ## Overruns -/

/-- The overrun of a metric. -/
def OrgUsage.overBy (row : OrgUsage) : Metric → Int
  | .sittings => row.sittingsOver
  | .drafts => row.draftsOver

/-- What is added to the counter of a metric. -/
def UsageDelta.used (delta : UsageDelta) : Metric → Int
  | .sittings => delta.sittings
  | .drafts => delta.drafts

/-- What is added to the overrun of a metric. -/
def UsageDelta.overBy (delta : UsageDelta) : Metric → Int
  | .sittings => delta.sittingsOver
  | .drafts => delta.draftsOver

/-- The part of a claim that goes past a limit. -/
def excess (used amount limit : Int) : Int :=
  min amount (max 0 (used + amount - limit))

section Overruns

variable (row : OrgUsage) (delta : UsageDelta) (metric other : Metric)
variable (amount overrun : Int)

@[simp] theorem used_add :
    (row.add delta).used metric = row.used metric + delta.used metric := by
  cases metric <;> rfl

@[simp] theorem over_add :
    (row.add delta).overBy metric = row.overBy metric + delta.overBy metric := by
  cases metric <;> rfl

@[simp] theorem carried_add :
    (row.add delta).carried metric = row.carried metric := by
  cases metric <;> rfl

theorem used_ofMetric :
    (UsageDelta.ofMetric metric amount overrun).used other =
      if metric = other then amount else 0 := by
  cases metric <;> cases other <;> rfl

theorem over_ofMetric :
    (UsageDelta.ofMetric metric amount overrun).overBy other =
      if metric = other then overrun else 0 := by
  cases metric <;> cases other <;> rfl

end Overruns

/-- A claim of something counts. -/
theorem ofMetric_ne_empty {amount : Int} (positive : 0 < amount)
    (metric : Metric) (overrun : Int) :
    UsageDelta.ofMetric metric amount overrun ≠ {} := by
  intro idle
  cases metric
  · exact Int.ne_of_gt positive (congrArg UsageDelta.sittings idle)
  · exact Int.ne_of_gt positive (congrArg UsageDelta.drafts idle)

theorem allowance_nonneg (organization : Organization) (metric : Metric)
    (row : OrgUsage) : 0 ≤ allowance organization metric row :=
  Int.le_max_left 0 _

end AssessmentPlatform
