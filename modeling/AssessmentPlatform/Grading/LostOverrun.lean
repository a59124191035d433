import AssessmentPlatform.Grading.Budget
import Mathlib.Algebra.Order.BigOperators.Group.Finset
import Mathlib.Algebra.Order.Ring.Int

/-!
# Overruns under concurrency

With enforcement off, a call computes its overrun from a row that it has read,
and adds it by a later UPDATE.  The counter is exact in every run; the overrun
is exact in those runs whose updates find nothing that changes it.
-/

namespace AssessmentPlatform

open Interleaving RowTable

/-! ## Updates -/

/-- A committed UPDATE of a call: the counter that its call had read before,
the one that it finds, and what it adds. -/
structure Update where
  tid : Nat
  read : Int
  found : Int
  amount : Int
  deriving DecidableEq, Repr

namespace Update

variable {update : Update} {updates : List Update} {opened : Int}

/-- The update is not late: as much of its amount goes past the limit as when
its call read the counter. -/
def Timely (limit : Int) (update : Update) : Prop :=
  update.read = update.found ∨ update.found + update.amount ≤ limit ∨
    limit ≤ update.read

instance (limit : Int) (update : Update) : Decidable (update.Timely limit) :=
  inferInstanceAs (Decidable (_ ∨ _ ∨ _))

/-- What updates add to the counter. -/
def total (updates : List Update) : Int :=
  (updates.map Update.amount).sum

/-- What updates add to the overrun. -/
def recorded (limit : Int) (updates : List Update) : Int :=
  (updates.map fun update => excess update.read update.amount limit).sum

/-- What is due for updates, at the counters that they find. -/
def due (limit : Int) (updates : List Update) : Int :=
  (updates.map fun update => excess update.found update.amount limit).sum

/-- Updates, the latest one first, that take a counter further and further. -/
inductive Chain (opened : Int) : List Update → Prop
  | nil : Chain opened []
  | cons {update : Update} {rest : List Update} (chain : Chain opened rest)
      (positive : 0 < update.amount)
      (found : update.found = opened + total rest)
      (behind : update.read ≤ update.found) : Chain opened (update :: rest)

@[simp] theorem total_cons (update : Update) (rest : List Update) :
    total (update :: rest) = update.amount + total rest := by
  simp [total]

/-- Later updates take the counter further. -/
theorem Chain.total_le {rest : List Update} (chain : Chain opened updates)
    (suffix : rest <:+ updates) : total rest ≤ total updates := by
  obtain ⟨first, rfl⟩ := suffix
  induction first with
  | nil => exact le_rfl
  | cons update first inductionHypothesis =>
      cases chain with
      | cons chain positive =>
          have earlier := inductionHypothesis chain
          rw [List.cons_append, total_cons]
          omega

/-- What is due takes the overrun from what was past the limit at first to what
is past it in the end. -/
theorem Chain.due_eq (chain : Chain opened updates) (limit : Int) :
    due limit updates =
      max 0 (opened + total updates - limit) - max 0 (opened - limit) := by
  induction chain with
  | nil => simp [due, total]
  | @cons update rest _ positive found _ inductionHypothesis =>
      have split : due limit (update :: rest) =
          excess update.found update.amount limit + due limit rest := by
        simp [due]
      rw [split, inductionHypothesis, total_cons, found]
      unfold excess
      omega

/-- An update records no more than is due, and all of it exactly if it is
timely. -/
theorem recorded_eq_due (chain : Chain opened updates) (limit : Int) :
    recorded limit updates ≤ due limit updates ∧
      (recorded limit updates = due limit updates ↔
        ∀ update ∈ updates, update.Timely limit) := by
  induction chain with
  | nil => simp [recorded, due]
  | @cons update rest _ positive found behind inductionHypothesis =>
      obtain ⟨below, exactly⟩ := inductionHypothesis
      have splitRecorded : recorded limit (update :: rest) =
          excess update.read update.amount limit + recorded limit rest := by
        simp [recorded]
      have splitDue : due limit (update :: rest) =
          excess update.found update.amount limit + due limit rest := by
        simp [due]
      have here : excess update.read update.amount limit ≤
          excess update.found update.amount limit := by
        unfold excess
        omega
      have timely : excess update.read update.amount limit =
          excess update.found update.amount limit ↔ update.Timely limit := by
        unfold excess Timely
        omega
      rw [splitRecorded, splitDue, List.forall_mem_cons, ← exactly, ← timely]
      omega

/-- The updates of a thread. -/
def of (tid : Nat) (updates : List Update) : List Update :=
  updates.filter fun update => update.tid == tid

/-- What updates add is what the threads add. -/
theorem total_eq_sum {calls : Nat}
    (members : ∀ update ∈ updates, update.tid < calls) :
    total updates =
      ∑ tid ∈ Finset.range calls, total (of tid updates) := by
  induction updates with
  | nil => simp [total, of]
  | cons update rest inductionHypothesis =>
      have first := members update List.mem_cons_self
      have others := inductionHypothesis
        fun other member => members other (List.mem_cons_of_mem _ member)
      have split (tid : Nat) : total (of tid (update :: rest)) =
          total (of tid rest) +
            if tid = update.tid then update.amount else 0 := by
        by_cases same : tid = update.tid
        · subst same
          simp [of, Int.add_comm]
        · have different : (update.tid == tid) = false := by
            simpa using Ne.symm same
          rw [of, List.filter_cons, different, if_neg same]
          simp [of]
      simp only [split]
      rw [Finset.sum_add_distrib, Finset.sum_ite_eq', if_pos, ← others,
        total_cons, Int.add_comm]
      exact Finset.mem_range.mpr first

end Update

/-! ## The history -/

/-- The counter that each thread has read last, and the committed updates, the
latest one first. -/
structure UpdateHistory where
  reads : Nat → Int
  updates : List Update

/-- A SELECT of the month's row is a read, and the COMMIT of an existing row is
an update: the row is locked from the UPDATE to its COMMIT. -/
def recordUpdates (key : Nat × Period) (metric : Metric) :
    (op : Op) → Nat → Resp op → Store → Store → UpdateHistory →
      UpdateHistory
  | .selectUsage orgId period, tid, some row, _, _, history =>
      if (orgId, period) = key then
        { history with
          reads := Function.update history.reads tid (row.used metric) }
      else history
  | .commit, tid, _, before, _, history =>
      match before.usage.pending tid key, before.usage.row key with
      | some value, some current =>
          { history with
            updates :=
              ⟨tid, history.reads tid, current.used metric,
                value.used metric - current.used metric⟩ :: history.updates }
      | _, _ => history
  | _, _, _, _, _, history => history

section Record

variable {key : Nat × Period} {metric : Metric} {op : Op} {tid other : Nat}
variable {resp : Resp op} {before after : Store} {history : UpdateHistory}

theorem updates_recordUpdates (notCommit : op ≠ .commit) :
    (recordUpdates key metric op tid resp before after history).updates =
      history.updates := by
  unfold recordUpdates
  split
  · split <;> rfl
  · exact absurd rfl notCommit
  · rfl

theorem reads_recordUpdates (different : other ≠ tid) :
    (recordUpdates key metric op tid resp before after history).reads other =
      history.reads other := by
  unfold recordUpdates
  split
  · split
    · exact Function.update_of_ne different _ _
    · rfl
  · split <;> rfl
  · rfl

theorem reads_recordUpdates_select {orgId : Nat} {period : Period}
    {row : OrgUsage} (before after : Store) :
    (recordUpdates (orgId, period) metric (.selectUsage orgId period) tid
      (some row) before after history).reads tid = row.used metric := by
  unfold recordUpdates
  dsimp only
  rw [if_pos rfl]
  exact Function.update_self _ _ _

theorem recordUpdates_commit_absent (absent : before.usage.row key = none) :
    recordUpdates key metric .commit tid () before after history =
      history := by
  unfold recordUpdates
  dsimp only
  split
  · next found =>
    rw [absent] at found
    cases found
  · rfl

theorem recordUpdates_commit {value current : OrgUsage}
    (staged : before.usage.staged key = some (tid, value))
    (found : before.usage.row key = some current) :
    recordUpdates key metric .commit tid () before after history =
      { history with
        updates :=
          ⟨tid, history.reads tid, current.used metric,
            value.used metric - current.used metric⟩ :: history.updates } := by
  unfold recordUpdates
  dsimp only
  rw [pending_eq_some staged, found]

end Record

/-! ## The contract -/

section Contract

variable (platform : Platform) (org : Organization) (metric : Metric)
variable (initial : Store) (calls : Nat)

/-- The allowance of the month. -/
def monthLimit : Int :=
  allowance org metric (opening platform org initial)

/-- What the updates so far have made of the month's row. -/
structure Tallied (updates : List Update) (row : OrgUsage) : Prop where
  carried : row.carried metric =
    (opening platform org initial).carried metric
  used : row.used metric =
    (opening platform org initial).used metric + Update.total updates
  overBy : row.overBy metric =
    (opening platform org initial).overBy metric +
      Update.recorded (monthLimit platform org metric initial) updates

/-- The invariant. -/
structure OverrunInv (store : Store) (history : UpdateHistory) : Prop where
  wellFormed : store.WellFormed
  clock : platform.periodKey store.clock = month platform initial
  elsewhere :
    ∀ key, key ≠ monthKey platform org initial →
      store.usage.row key = initial.usage.row key
  writes :
    store.usage.Staged fun _ key _ _ => key = monthKey platform org initial
  absent :
    store.usage.row (monthKey platform org initial) = none →
      initial.usage.row (monthKey platform org initial) = none ∧
        history.updates = []
  tallied :
    ∀ row, store.usage.row (monthKey platform org initial) = some row →
      Tallied platform org metric initial history.updates row
  chain :
    Update.Chain ((opening platform org initial).used metric) history.updates
  members : ∀ update ∈ history.updates, update.tid < calls

/-- The contract of every thread; a thread that has not returned has updated
nothing. -/
def overrunContract : Contract Nat (Store × UpdateHistory) where
  inv := fun recorded =>
    OverrunInv platform org metric initial calls recorded.1 recorded.2
  guar := fun tid before after =>
    OverrunInv platform org metric initial calls after.1 after.2 ∧
      Store.Moves tid before.1 after.1 ∧
      before.2.updates <:+ after.2.updates ∧
      ∀ other, other ≠ tid →
        after.2.reads other = before.2.reads other ∧
          Update.of other after.2.updates = Update.of other before.2.updates
  running := fun tid recorded => Update.of tid recorded.2.updates = []
  guar_inv := fun _ guaranteed => guaranteed.1

end Contract

/-! ## One statement -/

section Step

variable {platform : Platform} {tid : Nat} {answer : AgentAnswer} {op : Op}
variable {before after : Store} {resp : Resp op} {org : Organization}
variable {metric : Metric} {initial : Store} {calls : Nat}
variable {history : UpdateHistory}

/-- A statement other than COMMIT keeps the guarantee, where it stages nothing
but the month's row and the month does not end. -/
theorem OverrunInv.guar
    (inv : OverrunInv platform org metric initial calls before history)
    (executes :
      AssessmentPlatform.exec platform op tid answer before =
        some (resp, after))
    (notCommit : op ≠ .commit)
    (own :
      ∀ key value, UsageWrite before op key value →
        key = monthKey platform org initial)
    (clock : platform.periodKey after.clock = month platform initial) :
    (overrunContract platform org metric initial calls).guar tid
      (before, history)
      (after,
        recordUpdates (monthKey platform org initial) metric op tid resp
          before after history) := by
  have usage := exec_usage inv.wellFormed.usage executes
  have rows := usage.row_of_not_commits notCommit
  have updates : (recordUpdates (monthKey platform org initial) metric op tid
      resp before after history).updates = history.updates :=
    updates_recordUpdates notCommit
  refine ⟨⟨inv.wellFormed.exec executes, clock, ?_, ?_, ?_, ?_, ?_, ?_⟩,
    inv.wellFormed.moves executes, ?_, ?_⟩
  · exact rows ▸ inv.elsewhere
  · exact inv.writes.acts usage own
  · rw [updates, rows]
    exact inv.absent
  · rw [updates, rows]
    exact inv.tallied
  · rw [updates]
    exact inv.chain
  · rw [updates]
    exact inv.members
  · rw [updates]
  · intro other different
    rw [updates]
    exact ⟨reads_recordUpdates different, rfl⟩

/-- The same, for a statement that writes no usage and takes no time. -/
theorem OverrunInv.guar_of_quiet
    (inv : OverrunInv platform org metric initial calls before history)
    (executes :
      AssessmentPlatform.exec platform op tid answer before =
        some (resp, after))
    (notCommit : op ≠ .commit) (quiet : ¬op.writesUsage)
    (timeless : ¬op.passesTime) :
    (overrunContract platform org metric initial calls).guar tid
      (before, history)
      (after,
        recordUpdates (monthKey platform org initial) metric op tid resp
          before after history) :=
  inv.guar executes notCommit (fun _ _ write => absurd write.writes quiet)
    ((exec_clock executes timeless).symm ▸ inv.clock)

/-- COMMIT keeps the invariant where the row that is staged is what the updates
make of the month's row. -/
theorem OverrunInv.commit {value : OrgUsage} {later : UpdateHistory}
    (inv : OverrunInv platform org metric initial calls before history)
    (staged :
      before.usage.staged (monthKey platform org initial) =
        some (tid, value))
    (tallied : Tallied platform org metric initial later.updates value)
    (chain :
      Update.Chain ((opening platform org initial).used metric)
        later.updates)
    (members : ∀ update ∈ later.updates, update.tid < calls) :
    OverrunInv platform org metric initial calls (before.commit tid)
      later := by
  have executes :
      AssessmentPlatform.exec platform .commit tid .failed before =
        some ((), before.commit tid) := rfl
  have usage := exec_usage inv.wellFormed.usage executes
  have committed :
      (before.commit tid).usage.row (monthKey platform org initial) =
        some value :=
    row_commit_of_staged staged
  refine ⟨inv.wellFormed.exec executes, inv.clock, ?_, ?_, ?_, ?_, chain,
    members⟩
  · intro key different
    rcases inv.writes.change usage.moves key with
      same | ⟨_, -, -, isKey⟩
    · rw [same]
      exact inv.elsewhere key different
    · exact absurd isKey different
  · exact inv.writes.acts usage fun _ _ write => write.writes.elim
  · intro absent
    rw [committed] at absent
    cases absent
  · intro row found
    rw [committed] at found
    cases found
    exact tallied

end Step

/-! ## The programs -/

section Programs

variable {platform : Platform} {requests : Nat → Request} {tid : Nat}
variable {org : Organization} {metric : Metric} {initial : Store}
variable {calls : Nat}

/-- The thread has updated nothing yet. -/
def Uncounted (tid : Nat) (recorded : Store × UpdateHistory) : Prop :=
  Update.of tid recorded.2.updates = []

/-- The month's row is there. -/
def MonthStored (platform : Platform) (org : Organization) (initial : Store)
    (recorded : Store × UpdateHistory) : Prop :=
  (recorded.1.usage.row (monthKey platform org initial)).isSome

/-- The thread has read this row of the month. -/
structure HasRead (platform : Platform) (org : Organization) (metric : Metric)
    (initial : Store) (tid : Nat) (row : OrgUsage)
    (recorded : Store × UpdateHistory) : Prop where
  uncounted : Uncounted tid recorded
  stored : MonthStored platform org initial recorded
  reads : recorded.2.reads tid = row.used metric
  behind : row.used metric ≤
    (opening platform org initial).used metric +
      Update.total recorded.2.updates
  carried : row.carried metric =
    (opening platform org initial).carried metric

/-- The thread has staged the first row of the month. -/
structure Opens (platform : Platform) (org : Organization) (initial : Store)
    (tid : Nat) (recorded : Store × UpdateHistory) : Prop where
  uncounted : Uncounted tid recorded
  absent : recorded.1.usage.row (monthKey platform org initial) = none
  staged : recorded.1.usage.staged (monthKey platform org initial) =
    some (tid, opening platform org initial)

/-- The thread has staged what it adds to the month's row. -/
def Updates (platform : Platform) (org : Organization) (metric : Metric)
    (initial : Store) (tid : Nat) (row : OrgUsage) (amount : Int)
    (recorded : Store × UpdateHistory) : Prop :=
  HasRead platform org metric initial tid row recorded ∧
    ∃ current,
      recorded.1.usage.row (monthKey platform org initial) = some current ∧
        recorded.1.usage.staged (monthKey platform org initial) =
          some (tid, current.add (.ofMetric metric amount
            (excess (row.used metric) amount
              (monthLimit platform org metric initial))))

/-- The amount that a thread claims. -/
def claimedAmount : Request → Int
  | .consume _ _ amount => amount
  | _ => 0

/-- A call has added its amount. -/
def Counted (requests : Nat → Request) (tid : Nat)
    (recorded : Store × UpdateHistory) : Prop :=
  Update.total (Update.of tid recorded.2.updates) =
    max 0 (claimedAmount (requests tid))

theorem uncounted_stable :
    (overrunContract platform org metric initial calls).Stable tid
      (Uncounted tid) := by
  intro before after other different _ guaranteed uncounted
  exact (guaranteed.2.2.2 tid (Ne.symm different)).2.trans uncounted

theorem counted_stable :
    (overrunContract platform org metric initial calls).Stable tid
      (Counted requests tid) := by
  intro before after other different _ guaranteed counted
  unfold Counted
  rw [(guaranteed.2.2.2 tid (Ne.symm different)).2]
  exact counted

theorem monthStored_stable :
    (overrunContract platform org metric initial calls).Stable tid
      (MonthStored platform org initial) :=
  fun _ _ _ _ _ guaranteed stored => guaranteed.2.1.usage.row_isSome stored

theorem hasRead_stable {row : OrgUsage} :
    (overrunContract platform org metric initial calls).Stable tid
      (HasRead platform org metric initial tid row) := by
  intro before after other different inv guaranteed hasRead
  have grows : Update.total before.2.updates ≤
      Update.total after.2.updates :=
    guaranteed.1.chain.total_le guaranteed.2.2.1
  have stored : (overrunContract platform org metric initial calls).Stable tid
      (MonthStored platform org initial) :=
    monthStored_stable
  constructor
  · exact uncounted_stable before after other different inv guaranteed
      hasRead.uncounted
  · exact stored before after other different inv guaranteed hasRead.stored
  · exact (guaranteed.2.2.2 tid (Ne.symm different)).1.trans hasRead.reads
  · have behind := hasRead.behind
    omega
  · exact hasRead.carried

/-- What a thread has staged, and the row under it, are its own. -/
theorem locked_stable (row : Option OrgUsage) (value : OrgUsage) :
    (overrunContract platform org metric initial calls).Stable tid
      fun recorded =>
        recorded.1.usage.row (monthKey platform org initial) = row ∧
          recorded.1.usage.staged (monthKey platform org initial) =
            some (tid, value) := by
  rintro before after other different - ⟨-, moves, -⟩ ⟨isRow, staged⟩
  have kept := (moves.usage.others (Ne.symm different)).mpr staged
  have locked := moves.usage.row_of_locked (Ne.symm different) staged
  exact ⟨locked.trans isRow, kept⟩

theorem opens_stable :
    (overrunContract platform org metric initial calls).Stable tid
      (Opens platform org initial tid) := by
  intro before after other different inv guaranteed opens
  obtain ⟨absent, staged⟩ := locked_stable none _ before after other different
    inv guaranteed ⟨opens.absent, opens.staged⟩
  exact
    ⟨uncounted_stable before after other different inv guaranteed
      opens.uncounted, absent, staged⟩

theorem updates_stable {row : OrgUsage} {amount : Int} :
    (overrunContract platform org metric initial calls).Stable tid
      (Updates platform org metric initial tid row amount) := by
  rintro before after other different inv guaranteed
    ⟨hasRead, current, found, staged⟩
  obtain ⟨foundAfter, stagedAfter⟩ := locked_stable (some current) _ before
    after other different inv guaranteed ⟨found, staged⟩
  exact
    ⟨hasRead_stable before after other different inv guaranteed hasRead,
      current, foundAfter, stagedAfter⟩

/-- The triples of the threads' programs. -/
abbrev OverrunTriple (platform : Platform) (requests : Nat → Request)
    (org : Organization) (metric : Metric) (initial : Store)
    (calls tid : Nat) {α : Type} (pre : Store × UpdateHistory → Prop)
    (program : Prog α) (post : α → Store × UpdateHistory → Prop) : Prop :=
  Triple
    ((serving platform requests).withHistory
      (recordUpdates (monthKey platform org initial) metric))
    (System.ignoringHistory (staysInMonth platform initial))
    (overrunContract platform org metric initial calls) tid pre program post

/-- What one statement does. -/
abbrev OverrunStep (platform : Platform) (org : Organization)
    (metric : Metric) (initial : Store) (calls tid : Nat)
    (pre : Store × UpdateHistory → Prop) (op : Op)
    (middle : Resp op → Store × UpdateHistory → Prop) : Prop :=
  EstablishesRecorded platform
    (recordUpdates (monthKey platform org initial) metric)
    (System.ignoringHistory (staysInMonth platform initial))
    (overrunContract platform org metric initial calls) tid pre op middle

theorem Uncounted.of_not_commit {op : Op} {resp : Resp op}
    {before after : Store} {key : Nat × Period} {history : UpdateHistory}
    (uncounted : Uncounted tid (before, history)) (notCommit : op ≠ .commit) :
    Uncounted tid
      (after, recordUpdates key metric op tid resp before after history) := by
  unfold Uncounted
  rw [updates_recordUpdates notCommit]
  exact uncounted

/-- The month before is another month. -/
theorem previousPeriod_ne_of_first {period : Period}
    (first : 1 ≤ period.month) : previousPeriod period ≠ period := by
  intro same
  have months := congrArg Period.month same
  unfold previousPeriod at months
  split at months
  · dsimp only at months
    omega
  · dsimp only at months
    omega

/-- What a month that starts without a row begins with. -/
theorem carriedFromPrevious_overrun
    (first : 1 ≤ (month platform initial).month) :
    OverrunTriple platform requests org metric initial calls tid
      (Uncounted tid) (carriedFromPrevious org.id (month platform initial))
      (fun carried recorded => Uncounted tid recorded ∧
        (initial.usage.row (monthKey platform org initial) = none →
          freshUsage org.id (month platform initial) carried =
            opening platform org initial)) := by
  unfold carriedFromPrevious
  refine issue_recorded
    (fun previous recorded => Uncounted tid recorded ∧
      (initial.usage.row (monthKey platform org initial) = none →
        freshUsage org.id (month platform initial) (carriedOf previous) =
          opening platform org initial))
    uncounted_stable (fun _ _ uncounted => uncounted) ?_ (fun previous => ?_)
  · intro store history answer previous after inv uncounted _ executes
    refine ⟨inv.guar_of_quiet executes nofun not_false not_false,
      uncounted.of_not_commit nofun, ?_⟩
    intro absent
    cases executes
    have apart : (org.id, previousPeriod (month platform initial)) ≠
        monthKey platform org initial :=
      fun same => previousPeriod_ne_of_first first (congrArg Prod.snd same)
    rw [opening_of_absent absent, inv.elsewhere _ apart]
  · exact Triple.ret (uncounted_stable.and (Contract.stable_const _))
      fun _ _ holds => holds

/-- What a SELECT of the month's row leaves. -/
theorem selectUsage_overrun {present : Prop} :
    OverrunStep platform org metric initial calls tid
      (fun recorded => Uncounted tid recorded ∧
        (present → MonthStored platform org initial recorded))
      (.selectUsage org.id (month platform initial))
      (fun found recorded =>
        (Uncounted tid recorded ∧
          ∀ row, found = some row →
            HasRead platform org metric initial tid row recorded) ∧
        (found = none → ¬present)) := by
  rintro store history answer found after inv ⟨uncounted, isStored⟩ _ executes
  have notCommit :
      Op.selectUsage org.id (month platform initial) ≠ .commit := nofun
  obtain ⟨selected, rfl⟩ := Prod.mk.inj (Option.some.inj executes)
  refine ⟨inv.guar_of_quiet executes notCommit not_false not_false,
    ⟨uncounted.of_not_commit notCommit, ?_⟩, ?_⟩
  · rintro row rfl
    have tallied := inv.tallied row selected
    constructor
    · exact uncounted.of_not_commit notCommit
    · exact Option.isSome_iff_exists.mpr ⟨row, selected⟩
    · exact reads_recordUpdates_select store store
    · rw [updates_recordUpdates notCommit, tallied.used]
    · exact tallied.carried
  · rintro rfl isPresent
    obtain ⟨row, isRow⟩ := Option.isSome_iff_exists.mp (isStored isPresent)
    cases isRow.symm.trans selected

/-- `usage` reads the month's row, if it is there. -/
theorem usage_overrun {present : Prop}
    (first : 1 ≤ (month platform initial).month) :
    OverrunTriple platform requests org metric initial calls tid
      (fun recorded => Uncounted tid recorded ∧
        (present → MonthStored platform org initial recorded))
      (usage org.id (month platform initial))
      (fun found recorded => Uncounted tid recorded ∧
        (found.2 = true ∨ present →
          HasRead platform org metric initial tid found.1 recorded)) := by
  have stable (found : Option OrgUsage) :
      (overrunContract platform org metric initial calls).Stable tid
        fun recorded => Uncounted tid recorded ∧
          ∀ row, found = some row →
            HasRead platform org metric initial tid row recorded :=
    uncounted_stable.and
      (Contract.Stable.forall fun _ => hasRead_stable.imp)
  unfold usage
  refine issue_recorded _
    (uncounted_stable.and (Contract.Stable.imp monthStored_stable))
    (fun _ _ holds => holds.1)
    selectUsage_overrun (fun found => ?_)
  refine Triple.of_fact (fun _ _ holds => holds.2) fun known => ?_
  cases found with
  | some row =>
      refine Triple.strengthen (Triple.ret (stable (some row)) ?_)
        fun _ _ holds => holds.1
      exact fun _ _ holds => ⟨holds.1, fun _ => holds.2 row rfl⟩
  | none =>
      refine Triple.bind
        ((carriedFromPrevious_overrun first).strengthen
          fun _ _ holds => holds.1.1) fun carried => ?_
      refine Triple.ret
        (uncounted_stable.and (Contract.stable_const _)) fun _ _ holds => ?_
      exact ⟨holds.1, fun given =>
        given.elim (fun stored => nomatch stored)
          fun isPresent => absurd isPresent (known rfl)⟩

/-- What holds after the INSERT of the month's row. -/
def AfterOpening (platform : Platform) (org : Organization) (initial : Store)
    (tid : Nat) : Bool → Store × UpdateHistory → Prop
  | true => Opens platform org initial tid
  | false => fun recorded =>
      Uncounted tid recorded ∧ MonthStored platform org initial recorded

theorem insertUsage_overrun {carried : Carried} :
    OverrunStep platform org metric initial calls tid
      (fun recorded => Uncounted tid recorded ∧
        (initial.usage.row (monthKey platform org initial) = none →
          freshUsage org.id (month platform initial) carried =
            opening platform org initial))
      (.insertUsage (freshUsage org.id (month platform initial) carried))
      (AfterOpening platform org initial tid) := by
  rintro store history answer inserted after inv ⟨uncounted, isFresh⟩ -
    executes
  have notCommit : Op.insertUsage
      (freshUsage org.id (month platform initial) carried) ≠ .commit := nofun
  have stillUncounted : Uncounted tid (after,
      recordUpdates (monthKey platform org initial) metric
        (.insertUsage (freshUsage org.id (month platform initial) carried))
        tid inserted store after history) :=
    uncounted.of_not_commit notCommit
  constructor
  · apply inv.guar executes notCommit
    · intro key value write
      cases write with
      | insert => rfl
    · rw [exec_clock executes not_false]
      exact inv.clock
  · simp only [exec, Option.map_eq_some_iff] at executes
    obtain ⟨⟨won, table⟩, tried, equal⟩ := executes
    cases equal
    cases won with
    | true =>
        rcases tryInsert_cases tried with ⟨-, rfl, insertable⟩ | ⟨⟨⟩, -⟩
        obtain ⟨fresh, -⟩ :=
          inv.wellFormed.usage.free_of_insertable insertable
        refine ⟨stillUncounted, fresh, ?_⟩
        rw [← isFresh (inv.absent fresh).1]
        exact Function.update_self _ _ _
    | false =>
        obtain ⟨other, row, found, conflict⟩ := conflict_of_tryInsert tried
        have isKey : other = monthKey platform org initial :=
          conflict.resolve_right (by decide)
        subst isKey
        rcases tryInsert_cases tried with ⟨⟨⟩, -⟩ | ⟨-, rfl⟩
        exact ⟨stillUncounted, Option.isSome_iff_exists.mpr ⟨row, found⟩⟩

/-- `ensureRow` leaves the month's row, and updates nothing. -/
theorem ensureRow_overrun (first : 1 ≤ (month platform initial).month) :
    OverrunTriple platform requests org metric initial calls tid
      (Uncounted tid) (ensureRow org.id (month platform initial))
      (fun _ recorded => Uncounted tid recorded ∧
        MonthStored platform org initial recorded) := by
  have stable : (overrunContract platform org metric initial calls).Stable tid
      fun recorded => Uncounted tid recorded ∧
        MonthStored platform org initial recorded :=
    uncounted_stable.and monthStored_stable
  unfold ensureRow
  refine Triple.bind (carriedFromPrevious_overrun first) fun carried => ?_
  refine issue_recorded (AfterOpening platform org initial tid)
    (uncounted_stable.and (Contract.stable_const _)) (fun _ _ holds => holds.1)
    insertUsage_overrun
    (fun inserted => ?_)
  cases inserted with
  | true =>
      refine last_recorded opens_stable (fun _ _ holds => holds.uncounted)
        (fun _ => stable) ?_
      rintro store history answer _ after inv opens - executes
      cases executes
      have nothing := (inv.absent opens.absent).2
      have same : recordUpdates (monthKey platform org initial) metric .commit
          tid () store (store.commit tid) history = history :=
        recordUpdates_commit_absent opens.absent
      have tallied : Tallied platform org metric initial history.updates
          (opening platform org initial) := by
        rw [nothing]
        constructor <;> simp [Update.total, Update.recorded]
      rw [same]
      refine ⟨⟨inv.commit opens.staged tallied inv.chain inv.members,
        store.moves_commit tid, List.suffix_rfl, fun _ _ => ⟨rfl, rfl⟩⟩,
        opens.uncounted, ?_⟩
      exact Option.isSome_iff_exists.mpr
        ⟨_, row_commit_of_staged opens.staged⟩
  | false =>
      refine last_recorded stable (fun _ _ holds => holds.1)
        (fun _ => stable) ?_
      rintro store history answer _ after inv ⟨uncounted, stored⟩ - executes
      have notCommit : Op.rollback ≠ .commit := nofun
      refine ⟨inv.guar_of_quiet executes notCommit not_false not_false,
        uncounted.of_not_commit notCommit, ?_⟩
      cases executes
      exact stored

/-- The UPDATE of a call finds the row that the call has read before. -/
theorem bumpUsage_overrun {row : OrgUsage} {amount : Int} :
    OverrunStep platform org metric initial calls tid
      (HasRead platform org metric initial tid row)
      (.bumpUsage org.id (month platform initial)
        (.ofMetric metric amount (excess (row.used metric) amount
          (monthLimit platform org metric initial))))
      (fun found recorded => found = true ∧
        Updates platform org metric initial tid row amount recorded) := by
  intro store history answer found after inv hasRead _ executes
  have notCommit : Op.bumpUsage org.id (month platform initial)
      (.ofMetric metric amount (excess (row.used metric) amount
        (monthLimit platform org metric initial))) ≠ .commit := nofun
  constructor
  · apply inv.guar executes notCommit
    · intro key value write
      cases write with
      | bump => rfl
    · rw [exec_clock executes not_false]
      exact inv.clock
  · simp only [exec, Option.map_eq_some_iff] at executes
    obtain ⟨⟨won, table⟩, tried, equal⟩ := executes
    cases equal
    obtain ⟨stored, isStored⟩ :=
      Option.isSome_iff_exists.mp hasRead.stored
    rcases tryUpdate_cases tried with
      ⟨rfl, -, current, isRow, -, rfl⟩ | ⟨-, -, unmatched⟩
    · refine ⟨rfl, ?_, current, isRow, Function.update_self _ _ _⟩
      constructor
      · exact hasRead.uncounted.of_not_commit notCommit
      · exact Option.isSome_iff_exists.mpr ⟨current, isRow⟩
      · exact hasRead.reads
      · exact hasRead.behind
      · exact hasRead.carried
    · cases unmatched stored isStored

/-- The COMMIT of an update tallies it. -/
theorem commit_overrun {row : OrgUsage} {amount : Int}
    (members :
      ∀ tid org metric amount, requests tid = .consume org metric amount →
        tid < calls)
    (request : requests tid = .consume org metric amount)
    (positive : 0 < amount) :
    OverrunStep platform org metric initial calls tid
      (Updates platform org metric initial tid row amount) .commit
      (fun _ => Counted requests tid) := by
  rintro store history answer _ after inv ⟨hasRead, current, found, staged⟩ -
    executes
  cases executes
  have tallied := inv.tallied current found
  have carried := tallied.carried
  have used : current.used metric =
      (opening platform org initial).used metric +
        Update.total history.updates := tallied.used
  have overBy : current.overBy metric =
      (opening platform org initial).overBy metric +
        Update.recorded (monthLimit platform org metric initial)
          history.updates := tallied.overBy
  have behind : row.used metric ≤
      (opening platform org initial).used metric +
        Update.total history.updates := hasRead.behind
  have uncounted : Update.of tid history.updates = [] := hasRead.uncounted
  have reads : history.reads tid = row.used metric := hasRead.reads
  have isUpdate : recordUpdates (monthKey platform org initial) metric .commit
      tid () store (store.commit tid) history =
        { history with
          updates :=
            ⟨tid, row.used metric, current.used metric, amount⟩ ::
              history.updates } := by
    have added : (current.add (.ofMetric metric amount
        (excess (row.used metric) amount
          (monthLimit platform org metric initial)))).used metric -
            current.used metric = amount := by
      rw [used_add, used_ofMetric, if_pos rfl]
      omega
    rw [recordUpdates_commit staged found, added, reads]
  rw [isUpdate]
  have later : Tallied platform org metric initial
      (⟨tid, row.used metric, current.used metric, amount⟩ ::
        history.updates)
      (current.add (.ofMetric metric amount
        (excess (row.used metric) amount
          (monthLimit platform org metric initial)))) := by
    constructor
    · rw [carried_add, carried]
    · rw [used_add, used_ofMetric, if_pos rfl, used, Update.total_cons]
      dsimp only
      omega
    · have split : Update.recorded (monthLimit platform org metric initial)
          (⟨tid, row.used metric, current.used metric, amount⟩ ::
            history.updates) =
          excess (row.used metric) amount
              (monthLimit platform org metric initial) +
            Update.recorded (monthLimit platform org metric initial)
              history.updates := by
        simp [Update.recorded]
      rw [over_add, over_ofMetric, if_pos rfl, overBy, split]
      omega
  have chain : Update.Chain ((opening platform org initial).used metric)
      (⟨tid, row.used metric, current.used metric, amount⟩ ::
        history.updates) := by
    apply inv.chain.cons positive
    · exact used
    · dsimp only
      omega
  have others (other : Nat) (different : other ≠ tid) :
      Update.of other
          (⟨tid, row.used metric, current.used metric, amount⟩ ::
            history.updates) =
        Update.of other history.updates := by
    have notOther : (tid == other) = false := by
      simpa using Ne.symm different
    rw [Update.of, List.filter_cons, notOther]
    rfl
  refine ⟨⟨inv.commit staged later chain ?_, store.moves_commit tid,
    List.suffix_cons _ _, fun other different =>
      ⟨rfl, others other different⟩⟩, ?_⟩
  · intro update member
    rcases List.mem_cons.mp member with rfl | earlier
    · exact members tid org metric amount request
    · exact inv.members update earlier
  · have own : Update.of tid
        (⟨tid, row.used metric, current.used metric, amount⟩ ::
          history.updates) =
        [⟨tid, row.used metric, current.used metric, amount⟩] := by
      unfold Update.of at uncounted ⊢
      rw [List.filter_cons, uncounted, if_pos (by simp)]
    change Update.total (Update.of tid (_ :: history.updates)) =
      max 0 (claimedAmount (requests tid))
    rw [own, request]
    simp [Update.total, claimedAmount, max_eq_right positive.le]

/-- `record` adds the amount of a call. -/
theorem record_overrun {row : OrgUsage} {amount : Int}
    (members :
      ∀ tid org metric amount, requests tid = .consume org metric amount →
        tid < calls)
    (request : requests tid = .consume org metric amount)
    (positive : 0 < amount) :
    OverrunTriple platform requests org metric initial calls tid
      (HasRead platform org metric initial tid row)
      (record platform org.id (.ofMetric metric amount
        (excess (row.used metric) amount
          (monthLimit platform org metric initial))))
      (fun _ => Counted requests tid) := by
  unfold record
  rw [if_neg (ofMetric_ne_empty positive _ _)]
  refine issue_recorded
    (fun now recorded =>
      HasRead platform org metric initial tid row recorded ∧
        platform.periodKey now = month platform initial)
    hasRead_stable (fun _ _ holds => holds.uncounted) ?_ (fun now => ?_)
  · intro store history answer now after inv hasRead _ executes
    have notCommit : Op.now ≠ .commit := nofun
    refine ⟨inv.guar_of_quiet executes notCommit not_false not_false, ?_⟩
    cases executes
    exact ⟨hasRead, inv.clock⟩
  refine Triple.of_fact (fun _ _ holds => holds.2) fun isMonth => ?_
  rw [isMonth]
  refine Triple.strengthen ?_ fun _ _ holds => holds.1
  refine issue_recorded _ hasRead_stable (fun _ _ holds => holds.uncounted)
    bumpUsage_overrun (fun found => ?_)
  refine Triple.of_fact (fun _ _ holds => holds.1) fun isFound => ?_
  rw [isFound]
  refine Triple.strengthen ?_ fun _ _ holds => holds.2
  exact last_recorded updates_stable (fun _ _ holds => holds.1.uncounted)
    (fun _ => counted_stable)
    (commit_overrun members request positive)

theorem consumeFrom_overrun {row : OrgUsage} {amount : Int}
    (unenforced : platform.billingEnforced = false)
    (members :
      ∀ tid org metric amount, requests tid = .consume org metric amount →
        tid < calls)
    (request : requests tid = .consume org metric amount)
    (positive : 0 < amount) :
    OverrunTriple platform requests org metric initial calls tid
      (HasRead platform org metric initial tid row)
      (consumeFrom platform org metric amount (month platform initial) row)
      (fun _ => Counted requests tid) := by
  refine Triple.of_fact (fun _ _ holds => holds.carried) fun carried => ?_
  have isLimit : allowance org metric row =
      monthLimit platform org metric initial := by
    rw [allowance, carried, monthLimit, allowance]
  have recorded : OverrunTriple platform requests org metric initial calls tid
      (HasRead platform org metric initial tid row)
      (record platform org.id (.ofMetric metric amount
        (excess (row.used metric) amount
          (monthLimit platform org metric initial))))
      (fun _ => Counted requests tid) :=
    record_overrun members request positive
  unfold consumeFrom
  simp only [unenforced, Bool.not_false, if_true]
  rw [isLimit]
  exact Triple.bind recorded
    fun _ => Triple.ret counted_stable fun _ _ counted => counted

/-- A statement that reads and writes no usage keeps what the thread knows. -/
theorem quiet_overrun {op : Op} {fact : Resp op → Prop}
    (notCommit : op ≠ .commit) (quiet : ¬op.writesUsage)
    (timeless : ¬op.passesTime)
    (answers :
      ∀ store history answer resp after,
        OverrunInv platform org metric initial calls store history →
          exec platform op tid answer store = some (resp, after) →
            fact resp) :
    OverrunStep platform org metric initial calls tid (Uncounted tid) op
      (fun resp recorded => Uncounted tid recorded ∧ fact resp) :=
  fun store history answer resp after inv uncounted _ executes =>
    ⟨inv.guar_of_quiet executes notCommit quiet timeless,
      uncounted.of_not_commit notCommit,
      answers store history answer resp after inv executes⟩

theorem consume_overrun {amount : Int}
    (unenforced : platform.billingEnforced = false)
    (first : 1 ≤ (month platform initial).month)
    (members :
      ∀ tid org metric amount, requests tid = .consume org metric amount →
        tid < calls)
    (request : requests tid = .consume org metric amount) :
    OverrunTriple platform requests org metric initial calls tid
      (Uncounted tid) (consume platform org metric amount)
      (fun _ => Counted requests tid) := by
  unfold consume
  by_cases small : amount ≤ 0
  · rw [if_pos small]
    refine Triple.ret uncounted_stable fun recorded _ uncounted => ?_
    unfold Counted
    rw [uncounted, request]
    simp [Update.total, claimedAmount, max_eq_left small]
  · rw [if_neg small]
    have positive : 0 < amount := not_le.mp small
    refine issue_recorded
      (fun now recorded => Uncounted tid recorded ∧
        platform.periodKey now = month platform initial)
      uncounted_stable (fun _ _ uncounted => uncounted) ?_ (fun now => ?_)
    · have notCommit : Op.now ≠ .commit := nofun
      apply quiet_overrun notCommit not_false not_false
      rintro store history answer now after inv executes
      cases executes
      exact inv.clock
    refine Triple.of_fact (fun _ _ holds => holds.2) fun isMonth => ?_
    simp only [isMonth]
    have firstRead : OverrunTriple platform requests org metric initial calls
        tid (fun recorded => Uncounted tid recorded ∧
          (False → MonthStored platform org initial recorded)) _ _ :=
      usage_overrun first
    refine Triple.bind
      (firstRead.strengthen fun _ _ holds => ⟨holds.1, False.elim⟩)
      fun found => ?_
    obtain ⟨row, stored⟩ := found
    cases stored with
    | true =>
        exact
          (consumeFrom_overrun unenforced members request
            positive).strengthen fun _ _ holds => holds.2 (Or.inl rfl)
    | false =>
        have secondRead : OverrunTriple platform requests org metric initial
            calls tid (fun recorded => Uncounted tid recorded ∧
              (True → MonthStored platform org initial recorded)) _ _ :=
          usage_overrun first
        refine Triple.bind
          ((ensureRow_overrun first).strengthen fun _ _ holds => holds.1)
          fun _ => ?_
        refine Triple.bind
          (secondRead.strengthen
            fun _ _ holds => ⟨holds.1, fun _ => holds.2⟩) fun found => ?_
        exact
          (consumeFrom_overrun unenforced members request
            positive).strengthen fun _ _ holds => holds.2 (Or.inr trivial)

end Programs

/-! ## Every run -/

/-- The threads call `consume` for one organisation and metric, or let time
pass; finitely many call. -/
structure ConsumesMetric (requests : Nat → Request) (org : Organization)
    (metric : Metric) (calls : Nat) : Prop where
  request :
    ∀ tid, requests tid = .idle ∨
      (∃ elapsed, requests tid = .passTime elapsed) ∨
        ∃ amount, requests tid = .consume org metric amount
  finite :
    ∀ tid org metric amount, requests tid = .consume org metric amount →
      tid < calls

/-- The overrun of a month: zero as long as it has no row. -/
def Store.overrun (store : Store) (key : Nat × Period) (metric : Metric) :
    Int :=
  ((store.usage.row key).map fun row => row.overBy metric).getD 0

section Runs

variable {platform : Platform} {requests : Nat → Request} {tid : Nat}
variable {org : Organization} {metric : Metric} {initial : Store}
variable {calls : Nat}

theorem over_opening (metric : Metric) :
    (opening platform org initial).overBy metric =
      initial.overrun (monthKey platform org initial) metric := by
  unfold Store.overrun
  cases found : initial.usage.row (monthKey platform org initial) with
  | none =>
      rw [opening_of_absent found]
      cases metric <;> rfl
  | some row =>
      rw [opening_of_row found]
      rfl

theorem consume_request_overrun
    (unenforced : platform.billingEnforced = false)
    (first : 1 ≤ (month platform initial).month)
    (consumes : ConsumesMetric requests org metric calls) :
    OverrunTriple platform requests org metric initial calls tid
      (Uncounted tid) ((requests tid).program platform)
      (fun _ => Counted requests tid) := by
  have idle (notCalling : claimedAmount (requests tid) = 0) :
      OverrunTriple platform requests org metric initial calls tid
        (Uncounted tid) (pure Reply.done : Prog Reply)
        (fun _ => Counted requests tid) := by
    refine Triple.ret uncounted_stable fun recorded _ uncounted => ?_
    unfold Counted
    rw [uncounted, notCalling]
    rfl
  rcases consumes.request tid with
    request | ⟨elapsed, request⟩ | ⟨amount, request⟩
  · have nothing := idle (by rw [request]; rfl)
    rw [request]
    exact nothing
  · have nothing := idle (by rw [request]; rfl)
    rw [request]
    refine issue_recorded (fun _ => Uncounted tid) uncounted_stable
      (fun _ _ uncounted => uncounted) ?_
      (fun _ => nothing)
    intro store history answer _ after inv uncounted stays executes
    have notCommit : Op.passTime elapsed ≠ .commit := nofun
    refine ⟨inv.guar executes notCommit (fun _ _ write => ?_) ?_,
      uncounted.of_not_commit notCommit⟩
    · exact write.writes.elim
    · cases executes
      exact stays
  · have isConsume : OverrunTriple platform requests org metric initial calls
        tid (Uncounted tid) (consume platform org metric amount)
        (fun _ => Counted requests tid) :=
      consume_overrun unenforced first consumes.finite request
    rw [request]
    exact Triple.bind isConsume fun reply =>
      Triple.ret counted_stable fun _ _ counted => counted

theorem OverrunInv.start
    (wellFormed : initial.WellFormed)
    (unlocked : ∀ key, initial.usage.staged key = none) :
    OverrunInv platform org metric initial calls initial
      ⟨fun _ => 0, []⟩ where
  wellFormed := wellFormed
  clock := rfl
  elsewhere := fun _ _ => rfl
  writes := by
    intro key tid value staged
    rw [unlocked] at staged
    cases staged
  absent := fun absent => ⟨absent, rfl⟩
  tallied := by
    intro row found
    rw [← opening_of_row found]
    constructor <;> simp [Update.total, Update.recorded]
  chain := .nil
  members := nofun

variable {store : Store} {history : UpdateHistory}

/-- The counter is what the month opened with and the updates. -/
theorem OverrunInv.counter
    (inv : OverrunInv platform org metric initial calls store history) :
    store.counter (monthKey platform org initial) metric =
      initial.counter (monthKey platform org initial) metric +
        Update.total history.updates := by
  cases found : store.usage.row (monthKey platform org initial) with
  | none =>
      obtain ⟨absent, nothing⟩ := inv.absent found
      rw [counter_of_absent found, counter_of_absent absent, nothing]
      rfl
  | some row =>
      rw [counter_of_row found, ← used_opening]
      exact (inv.tallied row found).used

/-- The overrun is what the month opened with and what the updates record. -/
theorem OverrunInv.overrun
    (inv : OverrunInv platform org metric initial calls store history) :
    store.overrun (monthKey platform org initial) metric =
      initial.overrun (monthKey platform org initial) metric +
        Update.recorded (monthLimit platform org metric initial)
          history.updates := by
  cases found : store.usage.row (monthKey platform org initial) with
  | none =>
      obtain ⟨absent, nothing⟩ := inv.absent found
      unfold Store.overrun
      rw [found, absent, nothing]
      rfl
  | some row =>
      have overBy := (inv.tallied row found).overBy
      rw [← over_opening, ← overBy]
      unfold Store.overrun
      rw [found]
      rfl

variable {config : Config Nat Op Resp Reply (Store × UpdateHistory)}

/-- What holds of every run. -/
theorem holds_overrun
    (unenforced : platform.billingEnforced = false)
    (first : 1 ≤ (month platform initial).month)
    (consumes : ConsumesMetric requests org metric calls)
    (wellFormed : initial.WellFormed)
    (unlocked : ∀ key, initial.usage.staged key = none)
    (reached :
      ((serving platform requests).withHistory
        (recordUpdates (monthKey platform org initial) metric)).Reaches
          (System.ignoringHistory (staysInMonth platform initial))
          (((serving platform requests).withHistory
            (recordUpdates (monthKey platform org initial) metric)).start
              (initial, ⟨fun _ => 0, []⟩)) config) :
    (overrunContract platform org metric initial calls).Holds
      ((serving platform requests).withHistory
        (recordUpdates (monthKey platform org initial) metric))
      (System.ignoringHistory (staysInMonth platform initial))
      (fun tid _ => Counted requests tid) config := by
  have holdsStart :
      (overrunContract platform org metric initial calls).Holds
        ((serving platform requests).withHistory
          (recordUpdates (monthKey platform org initial) metric))
        (System.ignoringHistory (staysInMonth platform initial))
        (fun tid _ => Counted requests tid)
        (((serving platform requests).withHistory
          (recordUpdates (monthKey platform org initial) metric)).start
            (initial, ⟨fun _ => 0, []⟩)) :=
    Contract.holds_start (OverrunInv.start wellFormed unlocked)
      (fun tid =>
        (rfl : Uncounted tid (initial, (⟨fun _ => 0, []⟩ : UpdateHistory))))
      fun _ => consume_request_overrun unenforced first consumes
  exact holdsStart.reaches reached

/-- With enforcement off, in every run of any number of calls of one
organisation and metric within one month: once all have finished, the counter is
what the month opened with and the amounts of the calls, and the overrun is what
the counter is past the allowance, exactly if no amount is negative and every
update was timely. -/
theorem overrun_exact
    (unenforced : platform.billingEnforced = false)
    (first : 1 ≤ (month platform initial).month)
    (consumes : ConsumesMetric requests org metric calls)
    (wellFormed : initial.WellFormed)
    (unlocked : ∀ key, initial.usage.staged key = none)
    (opened :
      initial.overrun (monthKey platform org initial) metric =
        max 0 (initial.counter (monthKey platform org initial) metric -
          monthLimit platform org metric initial))
    (reached :
      ((serving platform requests).withHistory
        (recordUpdates (monthKey platform org initial) metric)).Reaches
          (System.ignoringHistory (staysInMonth platform initial))
          (((serving platform requests).withHistory
            (recordUpdates (monthKey platform org initial) metric)).start
              (initial, ⟨fun _ => 0, []⟩)) config)
    (quiescent : config.Quiescent) :
    (config.store.1.counter (monthKey platform org initial) metric =
        initial.counter (monthKey platform org initial) metric +
          ∑ tid ∈ Finset.range calls, claimedAmount (requests tid) ∧
      config.store.1.overrun (monthKey platform org initial) metric =
        max 0 (config.store.1.counter (monthKey platform org initial) metric -
          monthLimit platform org metric initial)) ↔
      (∀ tid, 0 ≤ claimedAmount (requests tid)) ∧
        ∀ update ∈ config.store.2.updates,
          update.Timely (monthLimit platform org metric initial) := by
  have holds := holds_overrun unenforced first consumes wellFormed unlocked
    reached
  have inv :
      OverrunInv platform org metric initial calls config.store.1
        config.store.2 :=
    holds.1
  have counted (tid : Nat) : Counted requests tid config.store := by
    obtain ⟨reply, returned⟩ := quiescent tid
    exact holds.post_of_returned returned
  have total : Update.total config.store.2.updates =
      ∑ tid ∈ Finset.range calls, max 0 (claimedAmount (requests tid)) := by
    rw [Update.total_eq_sum inv.members]
    exact Finset.sum_congr rfl fun tid _ => counted tid
  have outside (tid : Nat) (large : ¬tid < calls) :
      claimedAmount (requests tid) = 0 := by
    rcases consumes.request tid with
      request | ⟨elapsed, request⟩ | ⟨amount, request⟩
    · rw [request]
      rfl
    · rw [request]
      rfl
    · exact absurd (consumes.finite tid org metric amount request) large
  have amounts :
      (∑ tid ∈ Finset.range calls, claimedAmount (requests tid)) =
          ∑ tid ∈ Finset.range calls, max 0 (claimedAmount (requests tid)) ↔
        ∀ tid, 0 ≤ claimedAmount (requests tid) := by
    rw [Finset.sum_eq_sum_iff_of_le fun tid _ => le_max_right _ _]
    constructor
    · intro same tid
      by_cases small : tid < calls
      · have here := same tid (Finset.mem_range.mpr small)
        omega
      · exact (outside tid small).ge
    · intro nonneg tid _
      exact (max_eq_right (nonneg tid)).symm
  have chain := inv.chain
  rw [used_opening] at chain
  obtain ⟨-, timely⟩ := Update.recorded_eq_due chain
    (monthLimit platform org metric initial)
  have due := chain.due_eq (monthLimit platform org metric initial)
  rw [← timely, ← amounts, inv.counter, inv.overrun, total]
  rw [total] at due
  omega

end Runs

/-! ## Concrete runs -/

/-- The platform, with enforcement off. -/
def meteringPlatform : Platform :=
  { Sample.platform 3 with billingEnforced := false }

/-- Two calls, with the history of their updates. -/
abbrev meteredCalls :
    System Nat Op Resp AgentAnswer Reply (Store × UpdateHistory) :=
  (serving meteringPlatform twoCalls).withHistory
    (recordUpdates (1, ⟨2026, 1⟩) .sittings)

theorem consumesMetric_twoCalls :
    ConsumesMetric twoCalls Sample.organization .sittings 2 where
  request := by
    intro tid
    match tid with
    | 0 => exact Or.inr (Or.inr ⟨_, rfl⟩)
    | 1 => exact Or.inr (Or.inr ⟨_, rfl⟩)
    | _ + 2 => exact Or.inl rfl
  finite := consumesFor_twoCalls.finite

/-- A schedule that finishes both calls shows a run to the end. -/
theorem exists_metered (schedule : List (Nat × AgentAnswer))
    (check : Config Nat Op Resp Reply (Store × UpdateHistory) → Bool)
    (ran :
      (meteredCalls.runSchedule (fun _ _ _ => true)
        (meteredCalls.start (.initial 0, ⟨fun _ => 0, []⟩)) schedule).any
          fun config =>
            (List.range 2).all config.returned && check config) :
    ∃ config,
      meteredCalls.Reaches
          (System.ignoringHistory
            (staysInMonth meteringPlatform (.initial 0)))
          (meteredCalls.start (.initial 0, ⟨fun _ => 0, []⟩)) config ∧
        config.Quiescent ∧ check config := by
  have sound :
      ∀ tid op (recorded : Store × UpdateHistory), true →
        System.ignoringHistory (staysInMonth meteringPlatform (.initial 0))
          tid op recorded := by
    intro tid op recorded _
    cases op <;> trivial
  obtain ⟨config, reached, seen⟩ := System.exists_of_runSchedule sound ran
  obtain ⟨returned, checked⟩ := Bool.and_eq_true_iff.mp seen
  refine ⟨config, reached, reached.quiescent returned ?_, checked⟩
  intro tid large
  obtain ⟨more, rfl⟩ := Nat.exists_eq_add_of_le large
  rw [Nat.add_comm]
  exact ⟨_, rfl⟩

/-- One call after the other: 12 sittings on an allowance of 10. -/
theorem overrun_exact_in_turn :
    ∃ config : Config Nat Op Resp Reply (Store × UpdateHistory),
      config.Quiescent ∧
        config.store.1.counter (1, ⟨2026, 1⟩) .sittings = 12 ∧
        config.store.1.overrun (1, ⟨2026, 1⟩) .sittings = 2 := by
  obtain ⟨config, reached, quiescent, checked⟩ :=
    exists_metered (Sample.steps 0 10 ++ Sample.steps 1 5)
      (fun config =>
        decide (∀ update ∈ config.store.2.updates, update.Timely 10))
      (by decide +kernel)
  have exact := overrun_exact rfl (by decide) consumesMetric_twoCalls
    (.initial 0) (fun _ => rfl) (by decide) reached quiescent
  have nonneg : ∀ tid, 0 ≤ claimedAmount (twoCalls tid) := by
    intro tid
    match tid with
    | 0 => decide
    | 1 => decide
    | _ + 2 => exact le_rfl
  obtain ⟨counter, overrun⟩ :=
    exact.mpr ⟨nonneg, of_decide_eq_true checked⟩
  have counted : config.store.1.counter (1, ⟨2026, 1⟩) .sittings = 12 :=
    counter
  have limit : monthLimit meteringPlatform Sample.organization .sittings
      (.initial 0) = 10 := by
    decide
  refine ⟨config, quiescent, counted, ?_⟩
  rw [counter, limit] at overrun
  exact overrun

/-- Both calls read the counter before either of them adds to it: the two
sittings past the allowance are lost. -/
theorem overrun_lost :
    ∃ config : Config Nat Op Resp Reply (Store × UpdateHistory),
      meteredCalls.Reaches
          (System.ignoringHistory
            (staysInMonth meteringPlatform (.initial 0)))
          (meteredCalls.start (.initial 0, ⟨fun _ => 0, []⟩)) config ∧
        config.Quiescent ∧
        config.store.1.counter (1, ⟨2026, 1⟩) .sittings = 12 ∧
        allowance Sample.organization .sittings
            (opening meteringPlatform Sample.organization (.initial 0)) = 10 ∧
        config.store.1.overrun (1, ⟨2026, 1⟩) .sittings ≠
          max 0 (config.store.1.counter (1, ⟨2026, 1⟩) .sittings - 10) := by
  obtain ⟨config, reached, quiescent, checked⟩ :=
    exists_metered
      (Sample.steps 0 7 ++ Sample.steps 1 2 ++ Sample.steps 0 3 ++
        Sample.steps 1 3)
      (fun config =>
        decide (config.store.1.counter (1, ⟨2026, 1⟩) .sittings = 12 ∧
          config.store.1.overrun (1, ⟨2026, 1⟩) .sittings = 0))
      (by decide +kernel)
  obtain ⟨counter, overrun⟩ := of_decide_eq_true checked
  refine ⟨config, reached, quiescent, counter, by decide, ?_⟩
  rw [counter, overrun]
  decide

end AssessmentPlatform
