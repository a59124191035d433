import AssessmentPlatform.Grading.Effects
import AssessmentPlatform.Grading.Sample
import AssessmentPlatform.Grading.Statements
import Mathlib.Algebra.BigOperators.Group.Finset.Piecewise
import Mathlib.Algebra.BigOperators.Intervals

/-!
# The monthly budget

Any number of `consume` calls of one organisation race on the month's row,
including its creation.  With enforcement on, the counter stays within the
allowance and equals what the granted calls claimed.
-/

namespace AssessmentPlatform

open Interleaving RowTable

variable {platform : Platform} {requests : Nat → Request} {tid : Nat}
variable {answer : AgentAnswer} {op : Op} {before after : Store}
variable {resp : Resp op} {org : Organization} {initial : Store} {calls : Nat}

/-! ## The month's row -/

/-- The month's row as the first metered event of the month finds it, or
creates it. -/
def Store.openingUsage (store : Store) (orgId : Nat) (period : Period) :
    OrgUsage :=
  (store.usage.row (orgId, period)).getD
    (freshUsage orgId period
      (carriedOf (store.usage.row (orgId, previousPeriod period))))

namespace OrgUsage

@[simp]
theorem used_setUsed_self
    (row : OrgUsage) (value : Int) (metric : Metric) :
    (row.setUsed value metric).used metric = value := by
  cases metric <;> rfl

theorem used_setUsed_of_ne
    (row : OrgUsage) (value : Int) {metric other : Metric}
    (different : other ≠ metric) :
    (row.setUsed value metric).used other = row.used other := by
  cases metric <;> cases other <;> first | rfl | exact absurd rfl different

@[simp]
theorem carried_setUsed
    (row : OrgUsage) (value : Int) (metric other : Metric) :
    (row.setUsed value metric).carried other = row.carried other := by
  cases metric <;> rfl

/-- The two rows agree on everything an allowance depends on, now and in the
month after. -/
structure SameTerms (row later : OrgUsage) : Prop where
  carried : ∀ metric, later.carried metric = row.carried metric
  sittingsOver : later.sittingsOver = row.sittingsOver
  draftsOver : later.draftsOver = row.draftsOver

theorem SameTerms.setUsed
    {row later : OrgUsage} (same : row.SameTerms later)
    (value : Int) (metric : Metric) :
    row.SameTerms (later.setUsed value metric) := by
  refine ⟨fun other => ?_, ?_, ?_⟩
  · rw [carried_setUsed, same.carried]
  · cases metric <;> exact same.sittingsOver
  · cases metric <;> exact same.draftsOver

end OrgUsage

/-! ## What calls are granted -/

/-- What each thread has been granted, by metric. -/
abbrev Grants := Nat → Metric → Int

/-- What the commit of `tid` adds to an existing row. -/
def Store.grant
    (store : Store) (key : Nat × Period) (tid : Nat) (metric : Metric) :
    Int :=
  match store.usage.staged key, store.usage.row key with
  | some (owner, value), some current =>
      if owner = tid then value.used metric - current.used metric else 0
  | _, _ => 0

/-- A COMMIT grants what it adds to the row. -/
def recordGrants (key : Nat × Period) :
    (op : Op) → Nat → Resp op → Store → Store → Grants → Grants
  | .commit, tid, _, before, _, grants => fun other metric =>
      grants other metric +
        if other = tid then before.grant key tid metric else 0
  | _, _, _, _, _, grants => grants

/-- What a returned call was granted: a call for less than one unit claims
nothing. -/
def grantedUnits (request : Request) (reply : Reply) (metric : Metric) :
    Int :=
  match request, reply with
  | .consume _ claimed amount, .consumed .granted =>
      if claimed = metric then max 0 amount else 0
  | _, _ => 0

theorem grantedUnits_eq_zero
    {request : Request} {reply : Reply} {metric : Metric}
    (notGranted : reply ≠ .consumed .granted) :
    grantedUnits request reply metric = 0 := by
  unfold grantedUnits
  split
  · exact absurd rfl notGranted
  · rfl

/-! ## The contract -/

section Contract

variable (platform : Platform) (requests : Nat → Request)
variable (org : Organization) (initial : Store) (calls : Nat)

/-- The month of the calls. -/
def month : Period :=
  platform.periodKey initial.clock

/-- The key of the month's row. -/
def monthKey : Nat × Period :=
  (org.id, month platform initial)

/-- The month's row at the start. -/
def opening : OrgUsage :=
  initial.openingUsage org.id (month platform initial)

/-- What may be staged on a month's row: its creation, or a claim that fits. -/
structure BudgetWrite
    (tid : Nat) (key : Nat × Period) (row : Option OrgUsage)
    (value : OrgUsage) : Prop where
  key : key = monthKey platform org initial
  creates : row = none → value = opening platform org initial
  claims :
    ∀ {current}, row = some current →
      ∃ metric amount, requests tid = .consume org metric amount ∧
        0 < amount ∧
        value = current.setUsed (current.used metric + amount) metric ∧
        current.used metric + amount ≤
          allowance org metric (opening platform org initial)

/-- The invariant. -/
structure BudgetInv (store : Store) (grants : Grants) : Prop where
  wellFormed : store.WellFormed
  clock : platform.periodKey store.clock = month platform initial
  elsewhere :
    ∀ key, key ≠ monthKey platform org initial →
      store.usage.row key = initial.usage.row key
  writes :
    store.usage.Staged (BudgetWrite platform requests org initial)
  absent :
    store.usage.row (monthKey platform org initial) = none →
      initial.usage.row (monthKey platform org initial) = none ∧
        ∀ tid metric, grants tid metric = 0
  terms :
    ∀ {row}, store.usage.row (monthKey platform org initial) = some row →
      (opening platform org initial).SameTerms row
  counted :
    ∀ {row}, store.usage.row (monthKey platform org initial) = some row →
      ∀ metric, row.used metric =
        (opening platform org initial).used metric +
          ∑ tid ∈ Finset.range calls, grants tid metric
  within :
    ∀ {row}, store.usage.row (monthKey platform org initial) = some row →
      ∀ metric,
        (opening platform org initial).used metric ≤
            allowance org metric (opening platform org initial) →
          row.used metric ≤
            allowance org metric (opening platform org initial)

/-- The contract of every thread; a thread that has not returned has been
granted nothing. -/
def budgetContract : Contract Nat (Store × Grants) where
  inv := fun recorded =>
    BudgetInv platform requests org initial calls recorded.1 recorded.2
  guar := fun tid before after =>
    BudgetInv platform requests org initial calls after.1 after.2 ∧
      Store.Moves tid before.1 after.1 ∧
      ∀ other, other ≠ tid → after.2 other = before.2 other
  running := fun tid recorded => ∀ metric, recorded.2 tid metric = 0
  guar_inv := fun _ guaranteed => guaranteed.1

end Contract

/-! ## One statement -/

section Step

variable {grants : Grants} {key : Nat × Period}

theorem grant_of_claim
    {value current : OrgUsage} (metric : Metric)
    (staged : before.usage.staged key = some (tid, value))
    (found : before.usage.row key = some current) :
    before.grant key tid metric = value.used metric - current.used metric := by
  simp [Store.grant, staged, found]

theorem grant_of_absent
    {metric : Metric} (absent : before.usage.row key = none) :
    before.grant key tid metric = 0 := by
  unfold Store.grant
  split
  · next found =>
      rw [absent] at found
      cases found
  · rfl

theorem grant_of_not_staged
    {metric : Metric}
    (notStaged : ∀ value, before.usage.staged key ≠ some (tid, value)) :
    before.grant key tid metric = 0 := by
  unfold Store.grant
  split
  · next owner value current staged found =>
      have different : owner ≠ tid := by
        rintro rfl
        exact notStaged value staged
      rw [if_neg different]
  · rfl

theorem recordGrants_of_not_commit (notCommit : op ≠ .commit) :
    recordGrants key op tid resp before after grants = grants := by
  cases op <;> first | rfl | exact absurd rfl notCommit

/-- Others' grants are not touched. -/
theorem recordGrants_other
    {other : Nat} (different : other ≠ tid) :
    recordGrants key op tid resp before after grants other = grants other := by
  by_cases committing : op = .commit
  · subst committing
    funext metric
    simp [recordGrants, different]
  · rw [recordGrants_of_not_commit committing]

/-- The sum of the grants grows by what the thread commits. -/
theorem sum_recordGrants
    {metric : Metric} (member : tid < calls) (added : Int) :
    (∑ other ∈ Finset.range calls,
      (grants other metric + if other = tid then added else 0)) =
      (∑ other ∈ Finset.range calls, grants other metric) + added := by
  rw [Finset.sum_add_distrib, Finset.sum_ite_eq', if_pos]
  exact Finset.mem_range.mpr member

/-- COMMIT grants the thread what it had staged. -/
theorem recordGrants_commit
    {after : Store} :
    recordGrants key .commit tid () before after grants =
      fun other metric => grants other metric +
        if other = tid then before.grant key tid metric else 0 :=
  rfl

/-- A COMMIT without a claim on an existing row grants nothing. -/
theorem recordGrants_of_nothing
    {after : Store}
    (nothing : ∀ metric, before.grant key tid metric = 0) :
    recordGrants key .commit tid () before after grants = grants := by
  funext other metric
  simp [recordGrants, nothing]

theorem BudgetInv.sum_commit
    {after : Store}
    (members :
      ∀ tid org metric amount, requests tid = .consume org metric amount →
        tid < calls)
    {metric claimed : Metric} {amount : Int}
    (request : requests tid = .consume org metric amount) :
    (∑ other ∈ Finset.range calls,
      recordGrants key .commit tid () before after grants other claimed) =
      (∑ other ∈ Finset.range calls, grants other claimed) +
        before.grant key tid claimed := by
  rw [recordGrants_commit]
  exact sum_recordGrants (members tid org metric amount request) _

/-- What COMMIT makes of the month's row. -/
theorem BudgetInv.commit
    (inv : BudgetInv platform requests org initial calls before grants)
    (members :
      ∀ tid org metric amount, requests tid = .consume org metric amount →
        tid < calls) :
    BudgetInv platform requests org initial calls (before.commit tid)
      (recordGrants (monthKey platform org initial) .commit tid ()
        before (before.commit tid) grants) := by
  have executes :
      exec platform .commit tid .failed before =
        some ((), before.commit tid) := rfl
  have moves := inv.wellFormed.moves executes
  have usage := exec_usage inv.wellFormed.usage executes
  have elsewhere :
      ∀ key, key ≠ monthKey platform org initial →
        (before.commit tid).usage.row key = initial.usage.row key := by
    intro key different
    rcases inv.writes.change moves.usage key with
      same | ⟨value, -, -, write⟩
    · rw [same]
      exact inv.elsewhere key different
    · exact absurd write.key different
  have writes := inv.writes.acts usage fun _ _ write => write.writes.elim
  have wellFormed := inv.wellFormed.exec executes
  by_cases staged :
      ∃ value, before.usage.staged (monthKey platform org initial) =
        some (tid, value)
  · obtain ⟨value, staged⟩ := staged
    have committed :
        (before.commit tid).usage.row (monthKey platform org initial) =
          some value :=
      row_commit_of_staged staged
    have write := inv.writes _ tid value staged
    cases found : before.usage.row (monthKey platform org initial) with
    | none =>
        -- the first row of the month: nothing has been granted yet
        obtain ⟨-, nothing⟩ := inv.absent found
        have isOpening := write.creates found
        rw [recordGrants_of_nothing fun _ => grant_of_absent found]
        refine
          ⟨wellFormed, inv.clock, elsewhere, writes, ?_, ?_, ?_, ?_⟩
        · intro absent
          rw [committed] at absent
          cases absent
        · intro row isRow
          rw [committed] at isRow
          cases isRow
          exact isOpening ▸ ⟨fun _ => rfl, rfl, rfl⟩
        · intro row isRow metric
          rw [committed] at isRow
          cases isRow
          simp [isOpening, nothing]
        · intro row isRow metric fits
          rw [committed] at isRow
          cases isRow
          exact isOpening ▸ fits
    | some current =>
        obtain ⟨metric, amount, request, positive, isClaim, fits⟩ :=
          write.claims found
        refine
          ⟨wellFormed, inv.clock, elsewhere, writes, ?_, ?_, ?_, ?_⟩
        · intro absent
          rw [committed] at absent
          cases absent
        · intro row isRow
          rw [committed] at isRow
          cases isRow
          rw [isClaim]
          exact (inv.terms found).setUsed _ metric
        · intro row isRow claimed
          rw [committed] at isRow
          cases isRow
          have counted := inv.counted found claimed
          have grant := grant_of_claim claimed staged found
          rw [BudgetInv.sum_commit members request, grant]
          omega
        · intro row isRow claimed opened
          rw [committed] at isRow
          cases isRow
          rw [isClaim]
          by_cases same : claimed = metric
          · subst same
            rw [OrgUsage.used_setUsed_self]
            exact fits
          · rw [OrgUsage.used_setUsed_of_ne _ _ same]
            exact inv.within found claimed opened
  · have notStaged :
        ∀ value, before.usage.staged (monthKey platform org initial) ≠
          some (tid, value) := by
      simpa using staged
    have same :
        (before.commit tid).usage.row (monthKey platform org initial) =
          before.usage.row (monthKey platform org initial) :=
      row_commit_of_not_staged notStaged
    rw [recordGrants_of_nothing fun _ => grant_of_not_staged notStaged]
    exact
      ⟨wellFormed, inv.clock, elsewhere, writes, same ▸ inv.absent,
        same ▸ inv.terms, same ▸ inv.counted, same ▸ inv.within⟩

/-- One statement keeps the invariant where the writes that it stages are
allowed and the month does not end. -/
theorem BudgetInv.exec
    (inv : BudgetInv platform requests org initial calls before grants)
    (members :
      ∀ tid org metric amount, requests tid = .consume org metric amount →
        tid < calls)
    (executes :
      AssessmentPlatform.exec platform op tid answer before =
        some (resp, after))
    (own :
      ∀ key value, UsageWrite before op key value →
        BudgetWrite platform requests org initial tid key
          (before.usage.row key) value)
    (clock : platform.periodKey after.clock = month platform initial) :
    BudgetInv platform requests org initial calls after
      (recordGrants (monthKey platform org initial) op tid resp before after
        grants) := by
  by_cases committing : op = .commit
  · subst committing
    cases executes
    exact inv.commit members
  · have usage := exec_usage inv.wellFormed.usage executes
    have rows := usage.row_of_not_commits committing
    rw [recordGrants_of_not_commit committing]
    exact
      ⟨inv.wellFormed.exec executes, clock, rows ▸ inv.elsewhere,
        inv.writes.acts usage own, rows ▸ inv.absent, rows ▸ inv.terms,
        rows ▸ inv.counted, rows ▸ inv.within⟩

/-- One statement keeps the guarantee. -/
theorem BudgetInv.guar
    (inv : BudgetInv platform requests org initial calls before grants)
    (members :
      ∀ tid org metric amount, requests tid = .consume org metric amount →
        tid < calls)
    (executes :
      AssessmentPlatform.exec platform op tid answer before =
        some (resp, after))
    (own :
      ∀ key value, UsageWrite before op key value →
        BudgetWrite platform requests org initial tid key
          (before.usage.row key) value)
    (clock : platform.periodKey after.clock = month platform initial) :
    (budgetContract platform requests org initial calls).guar tid
      (before, grants)
      (after,
        recordGrants (monthKey platform org initial) op tid resp before after
          grants) :=
  ⟨inv.exec members executes own clock, inv.wellFormed.moves executes,
    fun _ different => recordGrants_other different⟩

/-- `BudgetInv.guar`, for a statement that writes no usage and takes no
time. -/
theorem BudgetInv.guar_of_quiet
    (inv : BudgetInv platform requests org initial calls before grants)
    (members :
      ∀ tid org metric amount, requests tid = .consume org metric amount →
        tid < calls)
    (executes :
      AssessmentPlatform.exec platform op tid answer before =
        some (resp, after))
    (quiet : ¬op.writesUsage) (timeless : ¬op.passesTime) :
    (budgetContract platform requests org initial calls).guar tid
      (before, grants)
      (after,
        recordGrants (monthKey platform org initial) op tid resp before after
          grants) :=
  inv.guar members executes (fun _ _ write => absurd write.writes quiet)
    ((exec_clock executes timeless).symm ▸ inv.clock)

end Step

/-! ## The programs -/

section Programs

/-- The assertion that a thread has been granted nothing. -/
def Ungranted (tid : Nat) (recorded : Store × Grants) : Prop :=
  ∀ metric, recorded.2 tid metric = 0

/-- The thread has staged the month's row, which does not exist yet. -/
def Creating
    (platform : Platform) (org : Organization) (initial : Store) (tid : Nat)
    (recorded : Store × Grants) : Prop :=
  Ungranted tid recorded ∧
    recorded.1.usage.row (monthKey platform org initial) = none ∧
      ∃ value,
        recorded.1.usage.staged (monthKey platform org initial) =
          some (tid, value)

/-- The thread has staged its claim on the month's row. -/
def Claiming
    (platform : Platform) (org : Organization) (initial : Store) (tid : Nat)
    (metric : Metric) (amount : Int) (recorded : Store × Grants) : Prop :=
  Ungranted tid recorded ∧
    ∃ current,
      recorded.1.usage.row (monthKey platform org initial) = some current ∧
        recorded.1.usage.staged (monthKey platform org initial) =
          some (tid,
            current.setUsed (current.used metric + amount) metric)

theorem ungranted_stable :
    (budgetContract platform requests org initial calls).Stable tid
      (Ungranted tid) := by
  intro before after other different _ guaranteed ungranted metric
  rw [guaranteed.2.2 tid (Ne.symm different)]
  exact ungranted metric

theorem ungranted_and_stable (fact : Prop) :
    (budgetContract platform requests org initial calls).Stable tid
      fun recorded => Ungranted tid recorded ∧ fact :=
  ungranted_stable.and (Contract.stable_const fact)

/-- What a thread has staged on the month's row, and the row under it, are its
own. -/
theorem staged_stable (row : Option OrgUsage) (value : OrgUsage) :
    (budgetContract platform requests org initial calls).Stable tid
      fun recorded =>
        recorded.1.usage.row (monthKey platform org initial) = row ∧
          recorded.1.usage.staged (monthKey platform org initial) =
            some (tid, value) := by
  rintro before after other different - ⟨-, moves, -⟩ ⟨isRow, staged⟩
  have kept := (moves.usage.others (Ne.symm different)).mpr staged
  have locked := moves.usage.row_of_locked (Ne.symm different) staged
  exact ⟨locked.trans isRow, kept⟩

theorem creating_stable :
    (budgetContract platform requests org initial calls).Stable tid
      (Creating platform org initial tid) := by
  rintro before after other different inv guaranteed
    ⟨ungranted, absent, value, staged⟩
  obtain ⟨absentAfter, stagedAfter⟩ :=
    staged_stable none value before after other different inv guaranteed
      ⟨absent, staged⟩
  exact
    ⟨ungranted_stable before after other different inv guaranteed ungranted,
      absentAfter, value, stagedAfter⟩

theorem claiming_stable {metric : Metric} {amount : Int} :
    (budgetContract platform requests org initial calls).Stable tid
      (Claiming platform org initial tid metric amount) := by
  rintro before after other different inv guaranteed
    ⟨ungranted, current, found, staged⟩
  obtain ⟨foundAfter, stagedAfter⟩ :=
    staged_stable (some current) _ before after other different inv
      guaranteed ⟨found, staged⟩
  exact
    ⟨ungranted_stable before after other different inv guaranteed ungranted,
      current, foundAfter, stagedAfter⟩

/-- A statement that does not commit grants nothing. -/
theorem Ungranted.of_not_commit
    {key : Nat × Period} {grants : Grants}
    (ungranted : Ungranted tid (before, grants)) (notCommit : op ≠ .commit) :
    Ungranted tid
      (after, recordGrants key op tid resp before after grants) := by
  rw [recordGrants_of_not_commit notCommit]
  exact ungranted

/-- A month that starts without a row is opened by a fresh one. -/
theorem opening_of_absent
    (absent : initial.usage.row (monthKey platform org initial) = none) :
    opening platform org initial =
      freshUsage org.id (month platform initial)
        (carriedOf
          (initial.usage.row
            (org.id, previousPeriod (month platform initial)))) := by
  have noRow :
      initial.usage.row (org.id, month platform initial) = none := absent
  simp [opening, Store.openingUsage, noRow]

/-- A month that starts with a row is opened by it. -/
theorem opening_of_row
    {row : OrgUsage}
    (found : initial.usage.row (monthKey platform org initial) = some row) :
    opening platform org initial = row := by
  have isRow :
      initial.usage.row (org.id, month platform initial) = some row := found
  simp [opening, Store.openingUsage, isRow]

/-- What a month that starts without a row carries does not change while its
calls run. -/
theorem BudgetInv.carriedOf_previous
    {grants : Grants} {store : Store}
    (inv : BudgetInv platform requests org initial calls store grants)
    (absent : initial.usage.row (monthKey platform org initial) = none) :
    carriedOf
        (store.usage.row
          (org.id, previousPeriod (month platform initial))) =
      carriedOf
        (initial.usage.row
          (org.id, previousPeriod (month platform initial))) := by
  by_cases same :
      (org.id, previousPeriod (month platform initial)) =
        monthKey platform org initial
  · rw [same, absent]
    cases found : store.usage.row (monthKey platform org initial) with
    | none => rfl
    | some row =>
        have terms := inv.terms found
        have sittingsOver : row.sittingsOver = 0 := by
          rw [terms.sittingsOver, opening_of_absent absent]
          rfl
        have draftsOver : row.draftsOver = 0 := by
          rw [terms.draftsOver, opening_of_absent absent]
          rfl
        simp [carriedOf, sittingsOver, draftsOver]
  · rw [inv.elsewhere _ same]

/-- The clock stays within the month. -/
def staysInMonth (platform : Platform) (initial : Store) :
    Nat → Op → Store → Prop
  | _, .passTime elapsed, store =>
      platform.periodKey (store.clock + elapsed) = month platform initial
  | _, _, _ => True

/-- The triples of the threads' programs. -/
abbrev BudgetTriple
    (platform : Platform) (requests : Nat → Request) (org : Organization)
    (initial : Store) (calls tid : Nat) {α : Type}
    (pre : Store × Grants → Prop) (program : Prog α)
    (post : α → Store × Grants → Prop) : Prop :=
  Triple
    ((serving platform requests).withHistory
      (recordGrants (monthKey platform org initial)))
    (System.ignoringHistory (staysInMonth platform initial))
    (budgetContract platform requests org initial calls) tid pre program post

variable
  (members :
    ∀ tid org metric amount, requests tid = .consume org metric amount →
      tid < calls)

include members

/-- A statement that writes nothing, from where nothing has been granted. -/
theorem quiet_establishes
    {op : Op} {fact : Resp op → Prop}
    (quiet : ¬op.writesUsage) (timeless : ¬op.passesTime)
    (notCommit : op ≠ .commit)
    (answers :
      ∀ store grants answer resp after,
        BudgetInv platform requests org initial calls store grants →
          exec platform op tid answer store = some (resp, after) →
            fact resp) :
    EstablishesRecorded platform
      (recordGrants (monthKey platform org initial))
      (System.ignoringHistory (staysInMonth platform initial))
      (budgetContract platform requests org initial calls) tid
      (Ungranted tid) op
      (fun resp recorded => Ungranted tid recorded ∧ fact resp) :=
  fun store grants answer resp after inv ungranted _ executes =>
    ⟨inv.guar_of_quiet members executes quiet timeless,
      ungranted.of_not_commit notCommit,
      answers store grants answer resp after inv executes⟩

/-- What a month carries, as read from the month before. -/
theorem carriedFromPrevious_triple :
    BudgetTriple platform requests org initial calls tid (Ungranted tid)
      (carriedFromPrevious org.id (month platform initial))
      (fun carried recorded => Ungranted tid recorded ∧
        (initial.usage.row (monthKey platform org initial) = none →
          freshUsage org.id (month platform initial) carried =
            opening platform org initial)) := by
  unfold carriedFromPrevious
  refine issue_recorded
    (fun previous recorded => Ungranted tid recorded ∧
      (initial.usage.row (monthKey platform org initial) = none →
        freshUsage org.id (month platform initial) (carriedOf previous) =
          opening platform org initial))
    ungranted_stable (fun _ _ ungranted => ungranted) ?_ (fun previous => ?_)
  · refine quiet_establishes members not_false not_false nofun ?_
    rintro store grants answer previous after inv executes absent
    cases executes
    rw [opening_of_absent absent, inv.carriedOf_previous absent]
  · exact Triple.ret (ungranted_and_stable _) fun _ _ holds => holds

/-- The row that `usage` returns grants the month's allowance. -/
theorem usage_triple :
    BudgetTriple platform requests org initial calls tid (Ungranted tid)
      (usage org.id (month platform initial))
      (fun found recorded => Ungranted tid recorded ∧
        ∀ metric, found.1.carried metric =
          (opening platform org initial).carried metric) := by
  unfold usage
  refine issue_recorded
    (fun found recorded => Ungranted tid recorded ∧
      ((∀ row, found = some row → ∀ metric, row.carried metric =
        (opening platform org initial).carried metric) ∧
      (found = none →
        initial.usage.row (monthKey platform org initial) = none)))
    ungranted_stable (fun _ _ ungranted => ungranted) ?_ (fun found => ?_)
  · refine quiet_establishes members not_false not_false nofun ?_
    rintro store grants answer found after inv executes
    cases executes
    refine ⟨fun row found => (inv.terms found).carried, fun absent => ?_⟩
    exact (inv.absent absent).1
  · refine Triple.of_fact (fun _ _ holds => holds.2) fun known => ?_
    cases found with
    | some row =>
        exact
          Triple.ret (ungranted_and_stable _) fun _ _ holds =>
            ⟨holds.1, known.1 row rfl⟩
    | none =>
        refine Triple.bind
          ((carriedFromPrevious_triple members).strengthen
            fun _ _ holds => holds.1)
          fun carried => ?_
        refine Triple.ret (ungranted_and_stable _)
          fun _ _ holds => ⟨holds.1, fun metric => ?_⟩
        rw [holds.2 (known.2 rfl)]

/-- What holds after the INSERT of the month's row. -/
def AfterInsert
    (platform : Platform) (org : Organization) (initial : Store) (tid : Nat) :
    Bool → Store × Grants → Prop
  | true => Creating platform org initial tid
  | false => Ungranted tid

theorem insertUsage_establishes {carried : Carried} :
    EstablishesRecorded platform
      (recordGrants (monthKey platform org initial))
      (System.ignoringHistory (staysInMonth platform initial))
      (budgetContract platform requests org initial calls) tid
      (fun recorded => Ungranted tid recorded ∧
        (initial.usage.row (monthKey platform org initial) = none →
          freshUsage org.id (month platform initial) carried =
            opening platform org initial))
      (.insertUsage (freshUsage org.id (month platform initial) carried))
      (AfterInsert platform org initial tid) := by
  rintro store grants answer inserted after inv ⟨ungranted, isFresh⟩ -
    executes
  have stillUngranted :
      Ungranted tid (after,
        recordGrants (monthKey platform org initial)
          (.insertUsage (freshUsage org.id (month platform initial) carried))
          tid inserted store after grants) :=
    ungranted.of_not_commit nofun
  refine
    ⟨inv.guar members executes ?_
      ((exec_clock executes not_false).symm ▸ inv.clock), ?_⟩
  · intro key value write
    cases write with
    | insert fresh =>
        refine ⟨rfl, fun _ => isFresh (inv.absent fresh).1, ?_⟩
        intro current found
        rw [fresh] at found
        cases found
  · cases inserted with
    | false => exact stillUngranted
    | true =>
        simp only [exec, Option.map_eq_some_iff] at executes
        obtain ⟨⟨won, table⟩, tried, equal⟩ := executes
        cases equal
        rcases tryInsert_cases tried with ⟨-, rfl, insertable⟩ | ⟨⟨⟩, -⟩
        obtain ⟨fresh, -⟩ :=
          inv.wellFormed.usage.free_of_insertable insertable
        exact ⟨stillUngranted, fresh, _, Function.update_self _ _ _⟩

theorem rollback_triple :
    BudgetTriple platform requests org initial calls tid (Ungranted tid)
      (issue .rollback) (fun _ => Ungranted tid) := by
  refine last_recorded ungranted_stable (fun _ _ holds => holds)
    (fun _ => ungranted_stable) ?_
  rintro store grants answer _ after inv ungranted - executes
  exact
    ⟨inv.guar_of_quiet members executes not_false not_false,
      ungranted.of_not_commit nofun⟩

/-- `ensureRow` creates the month's row or finds it created, and claims
nothing. -/
theorem ensureRow_triple :
    BudgetTriple platform requests org initial calls tid (Ungranted tid)
      (ensureRow org.id (month platform initial))
      (fun _ => Ungranted tid) := by
  unfold ensureRow
  refine Triple.bind (carriedFromPrevious_triple members) fun carried => ?_
  refine issue_recorded (AfterInsert platform org initial tid)
    (ungranted_and_stable _) (fun _ _ holds => holds.1)
    (insertUsage_establishes members)
    (fun inserted => ?_)
  cases inserted with
  | true =>
      refine last_recorded creating_stable (fun _ _ holds => holds.1)
        (fun _ => ungranted_stable) ?_
      rintro store grants answer _ after inv ⟨ungranted, absent, -⟩ - executes
      refine ⟨inv.guar_of_quiet members executes not_false not_false, ?_⟩
      rw [recordGrants_of_nothing fun _ => grant_of_absent absent]
      exact ungranted
  | false => exact rollback_triple members

/-- What holds after the conditional UPDATE of a claim. -/
def AfterClaim
    (platform : Platform) (org : Organization) (initial : Store) (tid : Nat)
    (metric : Metric) (amount : Int) : Bool → Store × Grants → Prop
  | true => Claiming platform org initial tid metric amount
  | false => Ungranted tid

theorem claimUsage_establishes
    {metric : Metric} {amount limit : Int}
    (request : requests tid = .consume org metric amount)
    (positive : 0 < amount)
    (isLimit : limit = allowance org metric (opening platform org initial)) :
    EstablishesRecorded platform
      (recordGrants (monthKey platform org initial))
      (System.ignoringHistory (staysInMonth platform initial))
      (budgetContract platform requests org initial calls) tid
      (Ungranted tid)
      (.claimUsage org.id (month platform initial) metric amount limit)
      (AfterClaim platform org initial tid metric amount) := by
  intro store grants answer claimed after inv ungranted _ executes
  have stillUngranted :
      Ungranted tid (after,
        recordGrants (monthKey platform org initial)
          (.claimUsage org.id (month platform initial) metric amount limit)
          tid claimed store after grants) :=
    ungranted.of_not_commit nofun
  refine
    ⟨inv.guar members executes ?_
      ((exec_clock executes not_false).symm ▸ inv.clock), ?_⟩
  · intro key value write
    cases write with
    | claim found fits =>
        refine ⟨rfl, fun absent => ?_, fun isRow => ?_⟩
        · rw [found] at absent
          cases absent
        · rw [found] at isRow
          cases isRow
          exact ⟨metric, amount, request, positive, rfl, isLimit ▸ fits⟩
  · cases claimed with
    | false => exact stillUngranted
    | true =>
        simp only [exec, Option.map_eq_some_iff] at executes
        obtain ⟨⟨won, table⟩, tried, equal⟩ := executes
        cases equal
        rcases tryUpdate_cases tried with
          ⟨-, -, current, found, -, rfl⟩ | ⟨⟨⟩, -⟩
        exact
          ⟨stillUngranted, current, found, Function.update_self _ _ _⟩

omit members in
/-- What the COMMIT of a claim grants. -/
theorem Claiming.recordGrants_commit
    {metric : Metric} {amount : Int} {store : Store} {grants : Grants}
    (claiming :
      Claiming platform org initial tid metric amount (store, grants))
    (positive : 0 < amount) (after : Store) (other : Metric) :
    recordGrants (monthKey platform org initial) .commit tid () store after
        grants tid other =
      grantedUnits (.consume org metric amount) (.consumed .granted)
        other := by
  obtain ⟨ungranted, current, found, staged⟩ := claiming
  have nothing : grants tid other = 0 := ungranted other
  have grant :
      store.grant (monthKey platform org initial) tid other = _ :=
    grant_of_claim other staged found
  rw [AssessmentPlatform.recordGrants_commit]
  by_cases same : metric = other
  · subst same
    simp [grantedUnits, nothing, grant, max_eq_right positive.le]
  · simp [grantedUnits, nothing, grant, same,
      OrgUsage.used_setUsed_of_ne _ _ (Ne.symm same)]

/-- A call has been granted what its reply says. -/
def GrantedAs
    (requests : Nat → Request) (tid : Nat) (reply : Reply)
    (recorded : Store × Grants) : Prop :=
  ∀ metric, recorded.2 tid metric = grantedUnits (requests tid) reply metric

omit members in
theorem grantedAs_stable {reply : Reply} :
    (budgetContract platform requests org initial calls).Stable tid
      (GrantedAs requests tid reply) := by
  intro before after other different _ guaranteed granted metric
  rw [guaranteed.2.2 tid (Ne.symm different)]
  exact granted metric

theorem consumeFrom_triple
    {metric : Metric} {amount : Int} {row : OrgUsage}
    (enforced : platform.billingEnforced = true)
    (request : requests tid = .consume org metric amount)
    (positive : 0 < amount)
    (carried :
      ∀ metric, row.carried metric =
        (opening platform org initial).carried metric) :
    BudgetTriple platform requests org initial calls tid (Ungranted tid)
      (consumeFrom platform org metric amount (month platform initial) row)
      (fun reply => GrantedAs requests tid (.consumed reply)) := by
  have limit :
      allowance org metric row =
        allowance org metric (opening platform org initial) := by
    rw [allowance, allowance, carried]
  unfold consumeFrom
  simp only [enforced, Bool.not_true, Bool.false_eq_true, if_false]
  refine issue_recorded (AfterClaim platform org initial tid metric amount)
    ungranted_stable (fun _ _ ungranted => ungranted)
    (claimUsage_establishes members request positive limit)
    (fun claimed => ?_)
  cases claimed with
  | true =>
      refine issue_recorded
        (fun _ => GrantedAs requests tid (.consumed .granted))
        claiming_stable (fun _ _ holds => holds.1) ?_
        (fun _ => Triple.ret grantedAs_stable fun _ _ holds => holds)
      intro store grants answer _ after inv claiming _ executes
      refine
        ⟨inv.guar_of_quiet members executes not_false not_false,
          fun other => ?_⟩
      rw [request]
      exact claiming.recordGrants_commit positive after other
  | false =>
      refine Triple.bind (rollback_triple members) fun _ => ?_
      refine Triple.ret ungranted_stable fun recorded _ ungranted other => ?_
      rw [request]
      exact ungranted other

theorem consume_triple
    {metric : Metric} {amount : Int}
    (enforced : platform.billingEnforced = true)
    (request : requests tid = .consume org metric amount) :
    BudgetTriple platform requests org initial calls tid (Ungranted tid)
      (consume platform org metric amount)
      (fun reply => GrantedAs requests tid (.consumed reply)) := by
  unfold consume
  by_cases small : amount ≤ 0
  · rw [if_pos small]
    refine Triple.ret ungranted_stable fun recorded _ ungranted other => ?_
    rw [request, ungranted other]
    simp [grantedUnits, max_eq_left small]
  · rw [if_neg small]
    have positive : 0 < amount := not_le.mp small
    refine issue_recorded
      (fun now recorded => Ungranted tid recorded ∧
        platform.periodKey now = month platform initial)
      ungranted_stable (fun _ _ ungranted => ungranted) ?_ (fun now => ?_)
    · refine quiet_establishes members not_false not_false nofun ?_
      rintro store grants answer now after inv executes
      cases executes
      exact inv.clock
    refine Triple.of_fact (fun _ _ holds => holds.2) fun isMonth => ?_
    simp only [isMonth]
    refine Triple.bind
      ((usage_triple members).strengthen fun _ _ holds => holds.1)
      fun found => ?_
    refine Triple.of_fact (fun _ _ holds => holds.2) fun carried => ?_
    obtain ⟨row, stored⟩ := found
    cases stored with
    | true =>
        exact
          (consumeFrom_triple members enforced request positive
            carried).strengthen fun _ _ holds => holds.1
    | false =>
        refine Triple.bind
          ((ensureRow_triple members).strengthen fun _ _ holds => holds.1)
          fun _ => ?_
        refine Triple.bind (usage_triple members) fun found => ?_
        refine Triple.of_fact (fun _ _ holds => holds.2) fun carried => ?_
        exact
          (consumeFrom_triple members enforced request positive
            carried).strengthen fun _ _ holds => holds.1

end Programs

/-! ## Every run -/

/-- The threads call `consume` for one organisation, or let time pass; finitely
many call. -/
structure ConsumesFor
    (requests : Nat → Request) (org : Organization) (calls : Nat) :
    Prop where
  request :
    ∀ tid, requests tid = .idle ∨
      (∃ elapsed, requests tid = .passTime elapsed) ∨
        ∃ metric amount, requests tid = .consume org metric amount
  finite :
    ∀ tid org metric amount, requests tid = .consume org metric amount →
      tid < calls

/-- What a thread has been granted: nothing before it returns. -/
def grantedSoFar (request : Request) (metric : Metric) : Prog Reply → Int
  | .ret reply => grantedUnits request reply metric
  | .perform _ _ => 0

/-- The counter of a month: zero as long as it has no row. -/
def Store.counter (store : Store) (key : Nat × Period) (metric : Metric) :
    Int :=
  ((store.usage.row key).map fun row => row.used metric).getD 0

theorem counter_of_row
    {store : Store} {key : Nat × Period} {row : OrgUsage} {metric : Metric}
    (found : store.usage.row key = some row) :
    store.counter key metric = row.used metric := by
  simp [Store.counter, found]

theorem counter_of_absent
    {store : Store} {key : Nat × Period} {metric : Metric}
    (absent : store.usage.row key = none) :
    store.counter key metric = 0 := by
  simp [Store.counter, absent]

theorem used_opening (metric : Metric) :
    (opening platform org initial).used metric =
      initial.counter (monthKey platform org initial) metric := by
  cases found : initial.usage.row (monthKey platform org initial) with
  | none =>
      rw [counter_of_absent found, opening_of_absent found]
      cases metric <;> rfl
  | some row =>
      rw [counter_of_row found, opening_of_row found]

theorem consume_request_triple
    (enforced : platform.billingEnforced = true)
    (consumes : ConsumesFor requests org calls) :
    BudgetTriple platform requests org initial calls tid (Ungranted tid)
      ((requests tid).program platform) (GrantedAs requests tid) := by
  rcases consumes.request tid with
    request | ⟨elapsed, request⟩ | ⟨metric, amount, request⟩
  · rw [request]
    refine Triple.ret ungranted_stable fun recorded _ ungranted metric => ?_
    rw [request]
    exact ungranted metric
  · rw [request]
    refine issue_recorded (fun _ => Ungranted tid) ungranted_stable
      (fun _ _ ungranted => ungranted) ?_ (fun _ => ?_)
    · intro store grants answer _ after inv ungranted stays executes
      refine
        ⟨inv.guar consumes.finite executes (fun _ _ write => ?_) ?_,
          ungranted.of_not_commit nofun⟩
      · exact write.writes.elim
      · cases executes
        exact stays
    · refine Triple.ret ungranted_stable fun recorded _ ungranted metric => ?_
      rw [request]
      exact ungranted metric
  · have isConsume :
        BudgetTriple platform requests org initial calls tid (Ungranted tid)
          (consume platform org metric amount)
          (fun reply => GrantedAs requests tid (.consumed reply)) :=
      consume_triple consumes.finite enforced request
    rw [request]
    exact Triple.bind isConsume fun reply =>
      Triple.ret grantedAs_stable fun _ _ granted => granted

theorem BudgetInv.start
    (wellFormed : initial.WellFormed)
    (unlocked : ∀ key, initial.usage.staged key = none) :
    BudgetInv platform requests org initial calls initial
      fun _ _ => 0 where
  wellFormed := wellFormed
  clock := rfl
  elsewhere := fun _ _ => rfl
  writes := by
    intro key tid value staged
    rw [unlocked] at staged
    cases staged
  absent := fun absent => ⟨absent, fun _ _ => rfl⟩
  terms := by
    intro row found
    rw [opening_of_row found]
    exact ⟨fun _ => rfl, rfl, rfl⟩
  counted := by
    intro row found metric
    rw [used_opening, counter_of_row found]
    simp
  within := by
    intro row found metric
    rw [used_opening, counter_of_row found]
    exact id

/-- The counter of a state is what the month opened with and the grants. -/
theorem BudgetInv.counter
    {store : Store} {grants : Grants}
    (inv : BudgetInv platform requests org initial calls store grants)
    (metric : Metric) :
    store.counter (monthKey platform org initial) metric =
      initial.counter (monthKey platform org initial) metric +
        ∑ tid ∈ Finset.range calls, grants tid metric := by
  cases found : store.usage.row (monthKey platform org initial) with
  | none =>
      obtain ⟨absent, nothing⟩ := inv.absent found
      simp [counter_of_absent found, counter_of_absent absent, nothing]
  | some row =>
      rw [counter_of_row found, ← used_opening]
      exact inv.counted found metric

/-- The counter stays within the allowance. -/
theorem BudgetInv.counter_le
    {store : Store} {grants : Grants}
    (inv : BudgetInv platform requests org initial calls store grants)
    (metric : Metric)
    (opened :
      initial.counter (monthKey platform org initial) metric ≤
        allowance org metric (opening platform org initial)) :
    store.counter (monthKey platform org initial) metric ≤
      allowance org metric (opening platform org initial) := by
  cases found : store.usage.row (monthKey platform org initial) with
  | none =>
      rw [counter_of_absent found]
      exact allowance_nonneg _ _ _
  | some row =>
      rw [counter_of_row found]
      rw [← used_opening] at opened
      exact inv.within found metric opened

/-- A thread has been granted what its reply says, if it has returned. -/
theorem grants_eq_grantedSoFar
    {config : Config Nat Op Resp Reply (Store × Grants)}
    (holds :
      (budgetContract platform requests org initial calls).Holds
        ((serving platform requests).withHistory
          (recordGrants (monthKey platform org initial)))
        (System.ignoringHistory (staysInMonth platform initial))
        (GrantedAs requests) config)
    (tid : Nat) (metric : Metric) :
    config.store.2 tid metric =
      grantedSoFar (requests tid) metric (config.code tid) := by
  cases code : config.code tid with
  | ret reply =>
      exact holds.post_of_returned code metric
  | perform op next =>
      have unfinished : ¬config.Finished tid := by
        rintro ⟨reply, returned⟩
        rw [Config.Returned, code] at returned
        cases returned
      exact holds.running_of_unfinished unfinished metric

/-- A step that changes the month's row ends a call that is granted: the thread
has been granted something that it had not been granted before. -/
theorem granted_of_changed
    {config after : Config Nat Op Resp Reply (Store × Grants)}
    (holds :
      (budgetContract platform requests org initial calls).Holds
        ((serving platform requests).withHistory
          (recordGrants (monthKey platform org initial)))
        (System.ignoringHistory (staysInMonth platform initial))
        (GrantedAs requests) config)
    (step :
      ((serving platform requests).withHistory
        (recordGrants (monthKey platform org initial))).Step
          (System.ignoringHistory (staysInMonth platform initial)) tid
          config after)
    {row : OrgUsage}
    (found :
      config.store.1.usage.row (monthKey platform org initial) = some row)
    (changed :
      after.store.1.usage.row (monthKey platform org initial) ≠ some row) :
    after.Returned tid (.consumed .granted) := by
  obtain ⟨⟨invAfter, moves, others⟩, holdsAfter⟩ := holds.step step
  have unfinished : ¬config.Finished tid := by
    rintro ⟨reply, returned⟩
    cases step with
    | statement code =>
        rw [Config.Returned, code] at returned
        cases returned
  have before : ∀ metric, config.store.2 tid metric = 0 :=
    holds.running_of_unfinished unfinished
  rcases holds.1.writes.change moves.usage
      (monthKey platform org initial) with
    same | ⟨value, -, committed, write⟩
  · exact absurd (same.trans found) changed
  obtain ⟨metric, amount, -, positive, rfl, -⟩ := write.claims found
  have countedBefore := holds.1.counted found metric
  have countedAfter := invAfter.counted committed metric
  rw [OrgUsage.used_setUsed_self] at countedAfter
  have notNothing : ¬∀ metric, after.store.2 tid metric = 0 := by
    intro nothing
    have sameGrants :
        ∀ other, after.store.2 other metric = config.store.2 other metric := by
      intro other
      by_cases isTid : other = tid
      · subst isTid
        rw [nothing, before]
      · rw [others other isTid]
    simp only [sameGrants] at countedAfter
    omega
  by_contra notGranted
  apply notNothing
  intro metric
  rw [grants_eq_grantedSoFar holdsAfter tid metric]
  cases code : after.code tid with
  | perform op next => rfl
  | ret reply =>
      refine grantedUnits_eq_zero ?_
      rintro rfl
      exact notGranted code

/-- With enforcement on, in every run of any number of calls of one
organisation within one month: the counter stays within the allowance, it is
what the month opened with and the amounts of the granted calls, and a step
that changes an existing row is the last one of a call that is granted. -/
theorem budget_safe
    {config : Config Nat Op Resp Reply Store}
    (enforced : platform.billingEnforced = true)
    (consumes : ConsumesFor requests org calls)
    (wellFormed : initial.WellFormed)
    (unlocked : ∀ key, initial.usage.staged key = none)
    (reached :
      (serving platform requests).Reaches (staysInMonth platform initial)
        ((serving platform requests).start initial) config) :
    (∀ metric,
      (initial.counter (monthKey platform org initial) metric ≤
          allowance org metric (opening platform org initial) →
        config.store.counter (monthKey platform org initial) metric ≤
          allowance org metric (opening platform org initial)) ∧
      config.store.counter (monthKey platform org initial) metric =
        initial.counter (monthKey platform org initial) metric +
          ∑ tid ∈ Finset.range calls,
            grantedSoFar (requests tid) metric (config.code tid)) ∧
    ∀ tid after,
      (serving platform requests).Step (staysInMonth platform initial) tid
          config after →
        ∀ row,
          config.store.usage.row (monthKey platform org initial) =
              some row →
            after.store.usage.row (monthKey platform org initial) ≠
                some row →
              after.Returned tid (.consumed .granted) := by
  obtain ⟨grants, reached⟩ :=
    reached.withHistory
      (recordGrants (monthKey platform org initial)) fun _ _ => 0
  have holdsStart :
      (budgetContract platform requests org initial calls).Holds
        ((serving platform requests).withHistory
          (recordGrants (monthKey platform org initial)))
        (System.ignoringHistory (staysInMonth platform initial))
        (GrantedAs requests)
        (((serving platform requests).withHistory
          (recordGrants (monthKey platform org initial))).start
            (initial, fun _ _ => 0)) :=
    Contract.holds_start (BudgetInv.start wellFormed unlocked)
      (fun tid metric => rfl)
      fun _ => consume_request_triple enforced consumes
  have holds := holdsStart.reaches reached
  have inv :
      BudgetInv platform requests org initial calls config.store grants :=
    holds.1
  refine ⟨fun metric => ⟨inv.counter_le metric, ?_⟩, ?_⟩
  · rw [inv.counter metric]
    congr 1
    exact Finset.sum_congr rfl fun tid _ =>
      grants_eq_grantedSoFar holds tid metric
  · intro tid after step row found changed
    obtain ⟨later, recordedStep⟩ :=
      System.Step.withHistory
        (recordGrants (monthKey platform org initial)) step grants
    exact granted_of_changed holds recordedStep found changed

/-! ## Concrete runs -/

/-- Two calls of one organisation that together exceed its allowance of 10. -/
def twoCalls : Nat → Request
  | 0 => .consume Sample.organization .sittings 7
  | 1 => .consume Sample.organization .sittings 5
  | _ => .idle

theorem consumesFor_twoCalls :
    ConsumesFor twoCalls Sample.organization 2 where
  request := by
    intro tid
    match tid with
    | 0 => exact Or.inr (Or.inr ⟨_, _, rfl⟩)
    | 1 => exact Or.inr (Or.inr ⟨_, _, rfl⟩)
    | _ + 2 => exact Or.inl rfl
  finite := by
    intro tid org metric amount request
    match tid with
    | 0 => decide
    | 1 => decide
    | _ + 2 => cases request

/-- Both calls find no row and race to create it; one is granted, the other
one is refused. -/
theorem budget_safe_at_the_boundary :
    ∃ config : Config Nat Op Resp Reply Store,
      config.store.counter (1, ⟨2026, 1⟩) .sittings = 7 ∧
        config.store.counter (1, ⟨2026, 1⟩) .sittings =
          ∑ tid ∈ Finset.range 2,
            grantedSoFar (twoCalls tid) .sittings (config.code tid) ∧
        config.store.counter (1, ⟨2026, 1⟩) .sittings ≤ 10 := by
  have ran :
      ((serving (Sample.platform 3) twoCalls).runSchedule
        (fun _ _ _ => true)
        ((serving (Sample.platform 3) twoCalls).start (.initial 0))
        (Sample.steps 0 5 ++ Sample.steps 1 4 ++ Sample.steps 0 1 ++
          Sample.steps 1 2 ++ Sample.steps 0 3 ++ Sample.steps 1 3)).any
        fun config => decide
          (config.store.counter (1, ⟨2026, 1⟩) .sittings = 7) := by
    decide +kernel
  have sound :
      ∀ tid op store, true →
        staysInMonth (Sample.platform 3) (.initial 0) tid op store := by
    intro tid op store _
    cases op <;> trivial
  obtain ⟨config, reached, seen⟩ := System.exists_of_runSchedule sound ran
  have safe :=
    budget_safe rfl consumesFor_twoCalls (.initial 0) (fun _ => rfl) reached
  obtain ⟨within, counted⟩ := safe.1 .sittings
  exact
    ⟨config, of_decide_eq_true seen, counted.trans (zero_add _),
      within (by decide)⟩

/-- One call for a negative amount. -/
def negativeCall : Nat → Request
  | 0 => .consume Sample.organization .sittings (-3)
  | _ => .idle

/-- A call for less than one unit returns without a 402 and claims nothing:
the counter is not the sum of the amounts of the calls that were granted. -/
theorem negative_amount_not_counted :
    ∃ config : Config Nat Op Resp Reply Store,
      (serving (Sample.platform 3) negativeCall).Reaches
        (staysInMonth (Sample.platform 3) (.initial 0))
        ((serving (Sample.platform 3) negativeCall).start (.initial 0))
        config ∧
      config.Quiescent ∧ config.Returned 0 (.consumed .granted) ∧
      config.store.counter (1, ⟨2026, 1⟩) .sittings ≠ 0 + -3 := by
  refine ⟨_, Relation.ReflTransGen.refl, ?_, rfl, by decide⟩
  intro tid
  match tid with
  | 0 => exact ⟨_, rfl⟩
  | _ + 1 => exact ⟨_, rfl⟩

end AssessmentPlatform
