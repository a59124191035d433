import AssessmentPlatform.Records.GradingCommits

/-!
# Metering as a ledger

What the metering programs do to the table `orgusage` when nothing interleaves
with them: a ledger of rows by organisation and month, where a month that has no
row reads as the row that its first event stores.
-/

namespace AssessmentPlatform

open Interleaving Interleaving.Program Rows

/-! ## Ledgers -/

/-- The unique key of a usage row. -/
def OrgUsage.key (row : OrgUsage) : Nat × Period :=
  (row.orgId, row.period)

/-- The usage rows that are stored, by organisation and month. -/
abbrev Ledger : Type :=
  Nat × Period → Option OrgUsage

namespace Ledger

variable (ledger : Ledger)

/-- `usage`: the row of a month, or the one that it begins with. -/
def row (orgId : Nat) (period : Period) : OrgUsage :=
  (ledger (orgId, period)).getD
    (freshUsage orgId period
      (carriedOf (ledger (orgId, previousPeriod period))))

/-- Store a row. -/
def put (row : OrgUsage) : Ledger :=
  Function.update ledger row.key (some row)

/-- `record` -/
def record (orgId : Nat) (period : Period) (delta : UsageDelta) : Ledger :=
  if delta = {} then ledger
  else ledger.put ((ledger.row orgId period).add delta)

/-- `consume` -/
def consume (enforced : Bool) (org : Organization) (metric : Metric)
    (amount : Int) (period : Period) : Consumed × Ledger :=
  if amount ≤ 0 then (.granted, ledger)
  else
    let row := ledger.row org.id period
    let limit := allowance org metric row
    if !enforced then
      (.granted, ledger.put (row.add
        (.ofMetric metric amount (excess (row.used metric) amount limit))))
    else if row.used metric + amount ≤ limit then
      (.granted, ledger.put (row.setUsed (row.used metric + amount) metric))
    else (.refused limit, ledger.put row)

/-- `consume`, where the clock shows the month `measured` at first, and the
month `counted` once the claim is recorded. -/
def consumeAcross (enforced : Bool) (org : Organization) (metric : Metric)
    (amount : Int) (measured counted : Period) : Consumed × Ledger :=
  if amount ≤ 0 then (.granted, ledger)
  else
    let row := ledger.row org.id measured
    let limit := allowance org metric row
    if !enforced then
      (.granted, (ledger.put row).record org.id counted
        (.ofMetric metric amount (excess (row.used metric) amount limit)))
    else if row.used metric + amount ≤ limit then
      (.granted, ledger.put (row.setUsed (row.used metric + amount) metric))
    else (.refused limit, ledger.put row)

/-- `release` -/
def release (orgId : Nat) (metric : Metric) (amount : Int)
    (period : Period) : Ledger :=
  match ledger (orgId, period) with
  | none => ledger
  | some row =>
      ledger.put (row.setUsed (max 0 (row.used metric - amount)) metric)

/-- Rows are stored under their own keys. -/
def Keyed : Prop :=
  ∀ orgId period row, ledger (orgId, period) = some row →
    row.orgId = orgId ∧ row.period = period

variable {ledger} {orgId : Nat} {period : Period}

theorem row_of_some {row : OrgUsage}
    (stored : ledger (orgId, period) = some row) :
    ledger.row orgId period = row := by
  rw [Ledger.row, stored, Option.getD_some]

theorem row_of_none (absent : ledger (orgId, period) = none) :
    ledger.row orgId period =
      freshUsage orgId period
        (carriedOf (ledger (orgId, previousPeriod period))) := by
  rw [Ledger.row, absent, Option.getD_none]

theorem Keyed.row (keyed : ledger.Keyed) (orgId : Nat) (period : Period) :
    (ledger.row orgId period).orgId = orgId ∧
      (ledger.row orgId period).period = period := by
  cases stored : ledger (orgId, period) with
  | none => rw [row_of_none stored]; exact ⟨rfl, rfl⟩
  | some row => rw [row_of_some stored]; exact keyed orgId period row stored

theorem Keyed.key_row (keyed : ledger.Keyed) (orgId : Nat) (period : Period) :
    (ledger.row orgId period).key = (orgId, period) := by
  obtain ⟨sameOrg, samePeriod⟩ := keyed.row orgId period
  rw [OrgUsage.key, sameOrg, samePeriod]

theorem put_self {row : OrgUsage} {key : Nat × Period}
    (isKey : row.key = key) : ledger.put row key = some row := by
  rw [put, isKey, Function.update_self]

theorem put_of_ne {row : OrgUsage} {key : Nat × Period}
    (apart : key ≠ row.key) : ledger.put row key = ledger key :=
  Function.update_of_ne apart _ _

theorem Keyed.put (keyed : ledger.Keyed) (row : OrgUsage) :
    (ledger.put row).Keyed := by
  intro orgId period stored found
  by_cases here : (orgId, period) = row.key
  · rw [here, put_self rfl] at found
    obtain rfl := Option.some.inj found
    exact Prod.mk.inj here.symm
  · rw [put_of_ne here] at found
    exact keyed orgId period stored found

theorem put_put {row later : OrgUsage} (same : later.key = row.key) :
    (ledger.put row).put later = ledger.put later := by
  rw [put, put, put, same, Function.update_idem]

theorem put_of_stored {row : OrgUsage} {key : Nat × Period}
    (isKey : row.key = key) (stored : ledger key = some row) :
    ledger.put row = ledger := by
  rw [put, isKey, ← stored, Function.update_eq_self]

/-- Storing the row that a month begins with changes no row that a month
shows. -/
theorem Keyed.row_put_row (keyed : ledger.Keyed) (orgId other : Nat)
    (period later : Period) :
    (ledger.put (ledger.row orgId period)).row other later =
      ledger.row other later := by
  have isKey := keyed.key_row orgId period
  have settles : carriedOf (some (ledger.row orgId period)) =
      carriedOf (ledger (orgId, period)) := by
    cases stored : ledger (orgId, period) with
    | some row => rw [row_of_some stored]
    | none => rw [row_of_none stored]; rfl
  by_cases here : (other, later) = (orgId, period)
  · obtain ⟨rfl, rfl⟩ := Prod.mk.inj here
    exact row_of_some (put_self isKey)
  · have stored : ledger.put (ledger.row orgId period) (other, later) =
        ledger (other, later) :=
      put_of_ne (isKey.symm ▸ here)
    have carries : carriedOf (ledger.put (ledger.row orgId period)
          (other, previousPeriod later)) =
        carriedOf (ledger (other, previousPeriod later)) := by
      by_cases before : (other, previousPeriod later) = (orgId, period)
      · rw [before, put_self isKey, settles]
      · rw [put_of_ne (isKey.symm ▸ before)]
    rw [Ledger.row, stored, carries, Ledger.row]

/-- Storing the row that a month begins with changes nothing for a claim. -/
theorem consumeAcross_put {enforced : Bool} {org : Organization}
    {metric : Metric} {amount : Int} {counted : Period}
    (positive : 0 < amount)
    (isKey : (ledger.row org.id period).key = (org.id, period)) :
    (ledger.put (ledger.row org.id period)).consumeAcross enforced org metric
        amount period counted =
      ledger.consumeAcross enforced org metric amount period counted := by
  have again : (ledger.put (ledger.row org.id period)).row org.id period =
      ledger.row org.id period :=
    row_of_some (put_self isKey)
  have setKey (used : Int) :
      ((ledger.row org.id period).setUsed used metric).key =
        (ledger.row org.id period).key := by
    cases metric <;> rfl
  unfold consumeAcross
  rw [if_neg (not_le.mpr positive), if_neg (not_le.mpr positive), again]
  dsimp only
  rw [put_put rfl, put_put (setKey _)]

/-- A claim within one month. -/
theorem Keyed.consumeAcross_self (keyed : ledger.Keyed) {enforced : Bool}
    {org : Organization} {metric : Metric} {amount : Int} :
    ledger.consumeAcross enforced org metric amount period period =
      ledger.consume enforced org metric amount period := by
  have isKey := keyed.key_row org.id period
  have addKey (delta : UsageDelta) :
      ((ledger.row org.id period).add delta).key =
        (ledger.row org.id period).key :=
    rfl
  unfold consumeAcross consume
  split
  · rfl
  · next positive =>
    dsimp only
    rw [Ledger.record, if_neg (ofMetric_ne_empty (not_le.mp positive) _ _),
      row_of_some (put_self isKey), put_put (addKey _)]

end Ledger

/-! ## The table as a ledger -/

namespace Database

/-- The ledger that the table `orgusage` holds. -/
def ledger (db : Database) : Ledger :=
  fun wanted => fetch OrgUsage.key wanted db.usage

variable {db after : Database} {orgId : Nat} {period : Period}
variable {row : OrgUsage}

theorem usageOf_eq_ledger (db : Database) (orgId : Nat) (period : Period) :
    db.usageOf orgId period = db.ledger (orgId, period) :=
  rfl

theorem ledger_keyed (db : Database) : db.ledger.Keyed := by
  intro orgId period row stored
  have isKey : row.key = (orgId, period) := key_of_fetch stored
  exact Prod.mk.inj isKey

/-- A state that differs in usage rows alone, and holds this ledger. -/
structure Meters (db after : Database) (ledger : Ledger) : Prop where
  only : UsageOnly db after
  constraints : after.Constraints
  ledger : after.ledger = ledger

theorem Meters.trans {middle : Database} {first last : Ledger}
    (before : Meters db middle first) (rest : Meters middle after last) :
    Meters db after last :=
  ⟨before.only.trans rest.only, rest.constraints, rest.ledger⟩

theorem Meters.refl (constraints : db.Constraints) : Meters db db db.ledger :=
  ⟨rfl, constraints, rfl⟩

/-- The organisation of a usage row is there. -/
def HasOrganization (db : Database) (orgId : Nat) : Prop :=
  ∃ org ∈ db.organizations, org.id = orgId

theorem Meters.hasOrganization {ledger : Ledger} (meters : Meters db after ledger)
    (isOrg : db.HasOrganization orgId) : after.HasOrganization orgId := by
  rw [meters.only]
  exact isOrg

/-- Events served one after the other leave the ledger that they make of the
one they find. -/
theorem Meters.foldl {Event : Type} (orgOf : Event → Nat)
    {serve : Database → Event → Database} {apply : Ledger → Event → Ledger}
    (step : ∀ (db : Database) event, db.Constraints →
      db.HasOrganization (orgOf event) →
        Meters db (serve db event) (apply db.ledger event))
    {events : List Event} (constraints : db.Constraints)
    (isOrg : ∀ event ∈ events, db.HasOrganization (orgOf event)) :
    Meters db (events.foldl serve db) (events.foldl apply db.ledger) := by
  induction events generalizing db with
  | nil => exact .refl constraints
  | cons event rest inductionHypothesis =>
      have first := step db event constraints (isOrg event List.mem_cons_self)
      have others := inductionHypothesis first.constraints
        fun other member => first.hasOrganization
          (isOrg other (List.mem_cons_of_mem _ member))
      rw [first.ledger] at others
      exact first.trans others

/-! ## Single statements -/

/-- Usage rows are constrained by their keys and their organisations. -/
theorem constraints_usage {rows : List OrgUsage} (constraints : db.Constraints)
    (keyed : Rows.Keyed OrgUsage.key rows)
    (organizations : ∀ row ∈ rows, db.HasOrganization row.orgId) :
    Constraints { db with usage := rows } where
  uniqueKeys := { constraints.uniqueKeys with usage := keyed }
  foreignKeys :=
    { constraints.foreignKeys with
      usageOrg := by
        intro row member wanted isOrg
        obtain rfl := Option.some.inj isOrg
        exact organizations row member }

theorem hasOrganization_of_usage (constraints : db.Constraints)
    (member : row ∈ db.usage) : db.HasOrganization row.orgId :=
  constraints.foreignKeys.usageOrg row member row.orgId rfl

/-- An insertion of a month that is not there succeeds. -/
theorem inserts_usage (row : OrgUsage) (constraints : db.Constraints)
    (isOrg : db.HasOrganization row.orgId)
    (absent : db.ledger row.key = none) :
    (db.inserts { db with usage := db.usage ++ [row] }).1 = true ∧
      Meters db (db.inserts { db with usage := db.usage ++ [row] }).2
        (db.ledger.put row) := by
  have keyed : Rows.Keyed OrgUsage.key (db.usage ++ [row]) := by
    apply constraints.uniqueKeys.usage.append
    exact fetch_eq_none.mp absent
  have next : Constraints { db with usage := db.usage ++ [row] } := by
    apply constraints_usage constraints keyed
    intro other member
    rcases List.mem_append.mp member with old | new
    · exact hasOrganization_of_usage constraints old
    · obtain rfl := List.mem_singleton.mp new
      exact isOrg
  rw [inserts, if_pos next]
  refine ⟨rfl, rfl, next, ?_⟩
  funext other
  by_cases here : other = row.key
  · rw [here, Ledger.put, Function.update_self]
    exact keyed.fetch_eq (List.mem_append_right _ List.mem_cons_self) rfl
  · rw [Ledger.put, Function.update_of_ne here]
    exact fetch_append_of_ne (Ne.symm here)

/-- An update of a month's row. -/
theorem updateUsage_meters {change : OrgUsage → OrgUsage}
    (constraints : db.Constraints)
    (kept : ∀ row, (change row).key = row.key)
    (stored : db.ledger (orgId, period) = some row) :
    Meters db (db.updateUsage orgId period change)
      (db.ledger.put (change row)) := by
  have next : Constraints { db with
      usage := updateWhere (fun row => row.key == (orgId, period)) change
        db.usage } := by
    apply constraints_usage constraints
      (constraints.uniqueKeys.usage.updateWhere kept)
    intro other member
    obtain ⟨old, isOld, rfl⟩ := mem_of_mem_updateWhere member
    have sameOrg : (change old).orgId = old.orgId := (Prod.mk.inj (kept old)).1
    have isOrg := hasOrganization_of_usage constraints isOld
    split
    · rw [sameOrg]
      exact isOrg
    · exact isOrg
  have isKey : (change row).key = (orgId, period) :=
    (kept row).trans (key_of_fetch stored)
  have updated : db.updateUsage orgId period change = { db with
      usage := updateWhere (fun row => row.key == (orgId, period)) change
        db.usage } :=
    if_pos next
  rw [updated]
  refine ⟨rfl, next, ?_⟩
  funext other
  rw [Ledger.put, isKey]
  by_cases here : other = (orgId, period)
  · subst here
    rw [Function.update_self]
    exact (fetch_updateWhere_self (fun _ => beq_iff_eq) kept).trans
      (congrArg (Option.map change) stored)
  · rw [Function.update_of_ne here]
    exact fetch_updateWhere_of_ne (fun _ => beq_iff_eq) kept here

/-- An update of a month that is not there does nothing. -/
theorem updateUsage_absent {change : OrgUsage → OrgUsage}
    (constraints : db.Constraints)
    (absent : db.ledger (orgId, period) = none) :
    db.updateUsage orgId period change = db := by
  have unmatched : updateWhere
      (fun row : OrgUsage => (row.orgId, row.period) == (orgId, period))
      change db.usage = db.usage := by
    apply updateWhere_eq_self
    intro row member isMatched
    exact absurd (beq_iff_eq.mp isMatched)
      (fetch_eq_none.mp absent row member)
  unfold updateUsage setUsage settle
  rw [unmatched]
  exact if_pos constraints

end Database

/-! ## The programs -/

section Programs

variable {deployment : Deployment} {around : Surroundings}
variable {platform : Platform} {db : Database} {orgId : Nat} {period : Period}

open Database

/-- From every state that holds one ledger, a program that meters an
organisation answers a value and leaves another ledger. -/
def Moves {Value : Type} (deployment : Deployment) (around : Surroundings)
    (orgId : Nat) (program : Prog Value) (before : Ledger) (value : Value)
    (after : Ledger) : Prop :=
  ∀ db : Database, db.Constraints → db.HasOrganization orgId →
    db.ledger = before →
      (runProgram deployment around program db).1 = value ∧
        Meters db (runProgram deployment around program db).2 after

variable {Value Next : Type} {ledger middle after : Ledger}

namespace Moves

theorem pure (value : Value) :
    Moves deployment around orgId (Pure.pure value) ledger value ledger := by
  rintro db constraints - rfl
  exact ⟨rfl, .refl constraints⟩

theorem bind {program : Prog Value} {next : Value → Prog Next}
    {value : Value} {result : Next}
    (first : Moves deployment around orgId program ledger value middle)
    (rest : Moves deployment around orgId (next value) middle result after) :
    Moves deployment around orgId (program >>= next) ledger result after := by
  intro db constraints isOrg holds
  obtain ⟨isValue, meters⟩ := first db constraints isOrg holds
  obtain ⟨isResult, more⟩ := rest _ meters.constraints
    (meters.hasOrganization isOrg) meters.ledger
  unfold runProgram at isValue isResult meters more ⊢
  rw [run_bind, isValue]
  exact ⟨isResult, meters.trans more⟩

theorem commit :
    Moves deployment around orgId (issue .commit) ledger () ledger := by
  rintro db constraints - rfl
  exact ⟨rfl, .refl constraints⟩

theorem rollback :
    Moves deployment around orgId (issue .rollback) ledger () ledger := by
  rintro db constraints - rfl
  exact ⟨rfl, .refl constraints⟩

theorem selectUsage (period : Period) :
    Moves deployment around orgId (issue (.selectUsage orgId period)) ledger
      (ledger (orgId, period)) ledger := by
  rintro db constraints - rfl
  exact ⟨rfl, .refl constraints⟩

/-- A month that is stored gets more. -/
theorem bump_stored {row : OrgUsage} (delta : UsageDelta)
    (stored : ledger (orgId, period) = some row) :
    Moves deployment around orgId (issue (.bumpUsage orgId period delta))
      ledger true (ledger.put (row.add delta)) := by
  rintro db constraints - rfl
  constructor
  · exact (congrArg Option.isSome stored : _ = (some row).isSome)
  · exact updateUsage_meters constraints (fun _ => rfl) stored

theorem bump_absent (delta : UsageDelta)
    (absent : ledger (orgId, period) = none) :
    Moves deployment around orgId (issue (.bumpUsage orgId period delta))
      ledger false ledger := by
  rintro db constraints - rfl
  have isNone : db.usageOf orgId period = none := absent
  have ran : Database.perform deployment around
      (.bumpUsage orgId period delta) db = (false, db) := by
    simp only [Database.perform, isNone, updateUsage_absent constraints absent]
    rfl
  unfold runProgram issue
  rw [run_statement, ran]
  exact ⟨rfl, .refl constraints⟩

/-- The conditional UPDATE of a claim. -/
theorem claim {row : OrgUsage} (metric : Metric) (amount limit : Int)
    (stored : ledger (orgId, period) = some row) :
    Moves deployment around orgId
      (issue (.claimUsage orgId period metric amount limit)) ledger
      (decide (row.used metric + amount ≤ limit))
      (ledger.put (if decide (row.used metric + amount ≤ limit) then
        row.setUsed (row.used metric + amount) metric else row)) := by
  rintro db constraints - rfl
  constructor
  · exact congrArg (Option.any fun row : OrgUsage =>
      decide (row.used metric + amount ≤ limit)) stored
  · have kept : ∀ row : OrgUsage,
        (if decide (row.used metric + amount ≤ limit) then
          row.setUsed (row.used metric + amount) metric
        else row).key = row.key := by
      intro row
      split
      · cases metric <;> rfl
      · rfl
    exact updateUsage_meters constraints kept stored

theorem save {row : OrgUsage} {metric : Metric} {loaded new : Int}
    (stored : ledger (orgId, period) = some row) :
    Moves deployment around orgId
      (issue (.saveUsage orgId period metric loaded new)) ledger ()
      (ledger.put (row.setUsed new metric)) := by
  rintro db constraints - rfl
  constructor
  · rfl
  · exact updateUsage_meters constraints
      (fun _ => by cases metric <;> rfl) stored

theorem usage (period : Period) :
    Moves deployment around orgId (AssessmentPlatform.usage orgId period)
      ledger (ledger.row orgId period, (ledger (orgId, period)).isSome)
      ledger := by
  apply (selectUsage period).bind
  cases stored : ledger (orgId, period) with
  | some row =>
      rw [Ledger.row_of_some stored]
      exact pure _
  | none =>
      rw [Ledger.row_of_none stored]
      exact ((selectUsage _).bind (pure _)).bind (pure _)

theorem insert {row : OrgUsage} (isOrg : row.orgId = orgId)
    (absent : ledger row.key = none) :
    Moves deployment around orgId (issue (.insertUsage row)) ledger true
      (ledger.put row) := by
  rintro db constraints known rfl
  exact inserts_usage row constraints (isOrg ▸ known) absent

theorem ensureRow
    (absent : ledger (orgId, period) = none) :
    Moves deployment around orgId
      (AssessmentPlatform.ensureRow orgId period) ledger ()
      (ledger.put (ledger.row orgId period)) := by
  rw [Ledger.row_of_none absent]
  apply ((selectUsage _).bind (pure _)).bind
  have inserted : Moves deployment around orgId _ ledger true _ :=
    insert (rfl : (freshUsage orgId period
      (carriedOf (ledger (orgId, previousPeriod period)))).orgId = orgId) absent
  exact inserted.bind commit

end Moves

/-! ## Clocks that move on -/

/-- Execute one statement where the clock shows something else whenever it is
read; the state counts the readings. -/
def Database.performClocked (deployment : Deployment) (around : Surroundings)
    (clock : Nat → Time) : (op : Op) → Nat × Database →
      Resp op × Nat × Database
  | .now, (reading, db) => (clock reading, reading + 1, db)
  | op, (reading, db) =>
      ((Database.perform deployment around op db).1, reading,
        (Database.perform deployment around op db).2)

theorem performClocked_of_ne {clock : Nat → Time} {op : Op}
    (notNow : op ≠ .now) (reading : Nat) (db : Database) :
    Database.performClocked deployment around clock op (reading, db) =
      ((Database.perform deployment around op db).1, reading,
        (Database.perform deployment around op db).2) := by
  cases op <;> first | rfl | exact absurd rfl notNow

/-- A clock that stands still may as well be read once. -/
theorem run_performClocked_still (program : Prog Value) (reading : Nat)
    (db : Database) :
    Prod.map id Prod.snd
      (program.run
        (Database.performClocked deployment around fun _ => around.now)
        (reading, db)) =
      runProgram deployment around program db := by
  have always : program.All fun _ => True :=
    .of_forall program fun _ => trivial
  exact always.run_view Prod.snd (fun op _ _ => by cases op <;> rfl) _

/-- `Moves`, where the clock is read from one reading to another. -/
def Clocked {Value : Type} (deployment : Deployment) (around : Surroundings)
    (clock : Nat → Time) (orgId : Nat) (program : Prog Value)
    (reading : Nat) (before : Ledger) (value : Value) (left : Nat)
    (after : Ledger) : Prop :=
  ∀ db : Database, db.Constraints → db.HasOrganization orgId →
    db.ledger = before →
      ∃ later : Database,
        program.run (Database.performClocked deployment around clock)
          (reading, db) = (value, left, later) ∧
        Meters db later after

namespace Clocked

variable {clock : Nat → Time} {reading between left : Nat}

theorem pure (value : Value) :
    Clocked deployment around clock orgId (Pure.pure value) reading ledger
      value reading ledger := by
  rintro db constraints - rfl
  exact ⟨db, rfl, .refl constraints⟩

theorem bind {program : Prog Value} {next : Value → Prog Next}
    {value : Value} {result : Next}
    (first : Clocked deployment around clock orgId program reading ledger
      value between middle)
    (rest : Clocked deployment around clock orgId (next value) between middle
      result left after) :
    Clocked deployment around clock orgId (program >>= next) reading ledger
      result left after := by
  intro db constraints isOrg holds
  obtain ⟨halfway, ran, meters⟩ := first db constraints isOrg holds
  obtain ⟨later, ranOn, more⟩ := rest halfway meters.constraints
    (meters.hasOrganization isOrg) meters.ledger
  refine ⟨later, ?_, meters.trans more⟩
  rw [run_bind, ran]
  exact ranOn

theorem now :
    Clocked deployment around clock orgId (issue .now) reading ledger
      (clock reading) (reading + 1) ledger := by
  rintro db constraints - rfl
  exact ⟨db, rfl, .refl constraints⟩

/-- A program that does not look at the clock. -/
theorem of_moves {program : Prog Value} {value : Value}
    (timeless : program.All (· ≠ Op.now))
    (moves : Moves deployment around orgId program ledger value after) :
    Clocked deployment around clock orgId program reading ledger value reading
      after := by
  intro db constraints isOrg holds
  obtain ⟨isValue, meters⟩ := moves db constraints isOrg holds
  have seen : Prod.map id Prod.snd
      (program.run (Database.performClocked deployment around clock)
        (reading, db)) =
        program.run (Database.perform deployment around) db := by
    apply timeless.run_view
    intro op notNow wide
    rw [performClocked_of_ne notNow wide.1 wide.2]
    rfl
  have unread : Triple (Database.performClocked deployment around clock)
      (fun wide => wide.1 = reading) program
      fun _ wide => wide.1 = reading := by
    apply timeless.triple
    intro op notNow wide same
    rw [performClocked_of_ne notNow wide.1 wide.2]
    exact same
  have state := congrArg Prod.snd seen
  unfold runProgram at isValue meters
  refine ⟨_, Prod.ext ?_ (Prod.ext ?_ state), meters⟩
  · exact (congrArg Prod.fst seen).trans isValue
  · exact unread _ rfl

theorem moves {program : Prog Value} {value : Value}
    (clocked : Clocked deployment around (fun _ => around.now) orgId program
      reading ledger value left after) :
    Moves deployment around orgId program ledger value after := by
  intro db constraints isOrg holds
  obtain ⟨later, ran, meters⟩ := clocked db constraints isOrg holds
  have seen : Prod.map id Prod.snd _ =
      runProgram deployment around program db :=
    run_performClocked_still program reading db
  rw [ran] at seen
  rw [← seen]
  exact ⟨rfl, meters⟩

theorem usage (period : Period) :
    Clocked deployment around clock orgId
      (AssessmentPlatform.usage orgId period) reading ledger
      (ledger.row orgId period, (ledger (orgId, period)).isSome) reading
      ledger := by
  apply of_moves _ (Moves.usage period)
  refine ⟨nofun, fun stored => ?_⟩
  cases stored with
  | some row => trivial
  | none => exact ⟨nofun, fun _ => trivial⟩

theorem ensureRow (absent : ledger (orgId, period) = none) :
    Clocked deployment around clock orgId
      (AssessmentPlatform.ensureRow orgId period) reading ledger () reading
      (ledger.put (ledger.row orgId period)) := by
  apply of_moves _ (Moves.ensureRow absent)
  refine ⟨nofun, fun _ => ⟨nofun, fun inserted => ?_⟩⟩
  cases inserted <;> exact ⟨nofun, fun _ => trivial⟩

theorem bump_stored {row : OrgUsage} (delta : UsageDelta)
    (stored : ledger (orgId, period) = some row) :
    Clocked deployment around clock orgId
      (issue (.bumpUsage orgId period delta)) reading ledger true reading
      (ledger.put (row.add delta)) :=
  of_moves ⟨nofun, fun _ => trivial⟩ (Moves.bump_stored delta stored)

theorem commit :
    Clocked deployment around clock orgId (issue .commit) reading ledger ()
      reading ledger :=
  of_moves ⟨nofun, fun _ => trivial⟩ Moves.commit

/-- Once a month is stored, or has been made sure of, its row is read from
the ledger. -/
theorem record (delta : UsageDelta) (keyed : ledger.Keyed)
    (month : platform.periodKey (clock reading) = period) :
    Clocked deployment around clock orgId
      (AssessmentPlatform.record platform orgId delta) reading ledger ()
      (if delta = {} then reading else reading + 1)
      (ledger.record orgId period delta) := by
  unfold AssessmentPlatform.record Ledger.record
  by_cases idle : delta = {}
  · rw [if_pos idle, if_pos idle, if_pos idle]
    exact pure ()
  · rw [if_neg idle, if_neg idle, if_neg idle]
    apply now.bind
    rw [month]
    cases stored : ledger (orgId, period) with
    | some row =>
        rw [Ledger.row_of_some stored]
        apply (bump_stored delta stored).bind
        exact commit
    | none =>
        have isKey := keyed.key_row orgId period
        have missed : Clocked deployment around clock orgId
            (issue (.bumpUsage orgId period delta)) (reading + 1) ledger false
              (reading + 1) ledger :=
          of_moves ⟨nofun, fun _ => trivial⟩ (Moves.bump_absent delta stored)
        apply missed.bind
        apply (ensureRow stored).bind
        have merged : (ledger.put (ledger.row orgId period)).put
            ((ledger.row orgId period).add delta) =
              ledger.put ((ledger.row orgId period).add delta) :=
          Ledger.put_put rfl
        rw [← merged]
        apply (bump_stored delta (Ledger.put_self isKey)).bind
        exact commit

/-- The part of `consume` that follows once the row is stored. -/
theorem consumeFrom {org : Organization} {metric : Metric} {amount : Int}
    {counted : Period} {row : OrgUsage} (keyed : ledger.Keyed)
    (counts : platform.periodKey (clock reading) = counted)
    (positive : 0 < amount)
    (stored : ledger (org.id, period) = some row) :
    Clocked deployment around clock org.id
      (AssessmentPlatform.consumeFrom platform org metric amount period row)
      reading ledger
      (ledger.consumeAcross platform.billingEnforced org metric amount period
        counted).1
      (if platform.billingEnforced then reading else reading + 1)
      (ledger.consumeAcross platform.billingEnforced org metric amount period
        counted).2 := by
  unfold AssessmentPlatform.consumeFrom Ledger.consumeAcross
  have kept : ledger.put row = ledger :=
    Ledger.put_of_stored
      (Prod.mk.injEq .. ▸ keyed org.id period row stored) stored
  rw [if_neg (not_le.mpr positive), Ledger.row_of_some stored]
  dsimp only
  rw [kept]
  cases platform.billingEnforced with
  | false =>
      have recorded : Clocked deployment around clock org.id _ reading ledger
          () _ _ :=
        record (.ofMetric metric amount
          (excess (row.used metric) amount (allowance org metric row)))
          keyed counts
      rw [if_neg (ofMetric_ne_empty positive _ _)] at recorded
      exact recorded.bind (pure _)
  | true =>
      have claimed : Clocked deployment around clock org.id
          (issue (.claimUsage org.id period metric amount
            (allowance org metric row))) reading ledger _ reading _ :=
        of_moves ⟨nofun, fun _ => trivial⟩
          (Moves.claim metric amount (allowance org metric row) stored)
      by_cases fits : row.used metric + amount ≤ allowance org metric row
      · simp only [Bool.not_true, Bool.false_eq_true, if_false, fits,
          decide_true, if_true] at claimed ⊢
        apply claimed.bind
        exact commit.bind (pure _)
      · simp only [Bool.not_true, Bool.false_eq_true, if_false, fits,
          decide_false, if_true] at claimed ⊢
        rw [kept] at claimed
        apply claimed.bind
        have undone : Clocked deployment around clock org.id
            (issue .rollback) reading ledger () reading ledger :=
          of_moves ⟨nofun, fun _ => trivial⟩ Moves.rollback
        exact undone.bind (pure _)

/-- `consume` is a claim on the ledger, over the months that the clock shows
when it begins and when it records. -/
theorem consume {org : Organization} (metric : Metric) (amount : Int)
    {counted : Period} (keyed : ledger.Keyed)
    (month : platform.periodKey (clock reading) = period)
    (counts : platform.periodKey (clock (reading + 1)) = counted) :
    ∃ left, Clocked deployment around clock org.id
      (AssessmentPlatform.consume platform org metric amount) reading ledger
      (ledger.consumeAcross platform.billingEnforced org metric amount period
        counted).1 left
      (ledger.consumeAcross platform.billingEnforced org metric amount period
        counted).2 := by
  unfold AssessmentPlatform.consume
  by_cases idle : amount ≤ 0
  · rw [if_pos idle, Ledger.consumeAcross, if_pos idle]
    exact ⟨reading, pure _⟩
  · rw [if_neg idle]
    have positive := not_le.mp idle
    refine ⟨if platform.billingEnforced then reading + 1 else reading + 1 + 1,
      now.bind ?_⟩
    rw [month]
    apply (usage period).bind
    cases stored : ledger (org.id, period) with
    | some row =>
        rw [Ledger.row_of_some stored]
        exact consumeFrom keyed counts positive stored
    | none =>
        have isKey := keyed.key_row org.id period
        have isStored : ledger.put (ledger.row org.id period)
            (org.id, period) = some (ledger.row org.id period) :=
          Ledger.put_self isKey
        apply (ensureRow stored).bind
        apply (usage period).bind
        rw [Ledger.row_of_some isStored, isStored,
          ← Ledger.consumeAcross_put positive isKey]
        exact consumeFrom (keyed.put _) counts positive isStored

/-- `release` is one on the ledger. -/
theorem release (metric : Metric) (amount : Int)
    (month : platform.periodKey (clock reading) = period) :
    Clocked deployment around clock orgId
      (AssessmentPlatform.release platform orgId metric amount) reading ledger
      () (reading + 1) (ledger.release orgId metric amount period) := by
  unfold AssessmentPlatform.release Ledger.release
  apply now.bind
  rw [month]
  apply (usage period).bind
  cases stored : ledger (orgId, period) with
  | none => exact pure ()
  | some row =>
      rw [Ledger.row_of_some stored]
      have saved : Clocked deployment around clock orgId
          (issue (.saveUsage orgId period metric (row.used metric)
            (max 0 (row.used metric - amount)))) (reading + 1) ledger ()
          (reading + 1) _ :=
        of_moves ⟨nofun, fun _ => trivial⟩ (Moves.save stored)
      exact saved.bind commit

end Clocked

namespace Moves

theorem record (delta : UsageDelta) (keyed : ledger.Keyed)
    (month : platform.periodKey around.now = period) :
    Moves deployment around orgId
      (AssessmentPlatform.record platform orgId delta) ledger ()
      (ledger.record orgId period delta) := by
  have clocked : Clocked deployment around (fun _ => around.now) orgId _ 0
      ledger () _ _ :=
    Clocked.record delta keyed month
  exact clocked.moves

/-- `consume` is a claim on the ledger. -/
theorem consume {org : Organization} (metric : Metric) (amount : Int)
    (keyed : ledger.Keyed) (month : platform.periodKey around.now = period) :
    Moves deployment around org.id
      (AssessmentPlatform.consume platform org metric amount) ledger
      (ledger.consume platform.billingEnforced org metric amount period).1
      (ledger.consume platform.billingEnforced org metric amount
        period).2 := by
  obtain ⟨left, clocked⟩ : ∃ left, Clocked deployment around
      (fun _ => around.now) org.id _ 0 ledger _ left _ :=
    Clocked.consume metric amount keyed month month
  rw [← keyed.consumeAcross_self]
  exact clocked.moves

theorem release (metric : Metric) (amount : Int)
    (month : platform.periodKey around.now = period) :
    Moves deployment around orgId
      (AssessmentPlatform.release platform orgId metric amount) ledger ()
      (ledger.release orgId metric amount period) := by
  have clocked : Clocked deployment around (fun _ => around.now) orgId _ 0
      ledger () _ _ :=
    Clocked.release metric amount month
  exact clocked.moves

end Moves

end Programs

/-! ## Metered events -/

/-- A metered event: a claim, a claim that is handed back, or the costs of a
call of the agent. -/
inductive Metered where
  | consume (metric : Metric) (amount : Int)
  | release (metric : Metric) (amount : Int)
  | record (judgeCostUsd draftCostUsd : Double)
  deriving DecidableEq, Repr

/-- The counters that the costs of a call add to. -/
def costs (judgeCostUsd draftCostUsd : Double) : UsageDelta :=
  { judgeCostUsd := judgeCostUsd, draftCostUsd := draftCostUsd }

/-- A metered event of an organisation, whose row was loaded with the plan then
in force.  It happens at one instant: whenever its program asks for the time,
the clock shows the same. -/
structure MeterEvent where
  around : Surroundings
  organization : Organization
  metered : Metered

namespace MeterEvent

variable (deployment : Deployment) (event : MeterEvent)

/-- The month of an event. -/
def month : Period :=
  deployment.periodKey event.around.now

/-- Serve an event, the clock standing still. -/
def serve (db : Database) : Database :=
  match event.metered with
  | .consume metric amount =>
      (runProgram deployment event.around
        (consume (db.platform deployment) event.organization metric amount)
        db).2
  | .release metric amount =>
      (runProgram deployment event.around
        (release (db.platform deployment) event.organization.id metric amount)
        db).2
  | .record judgeCostUsd draftCostUsd =>
      (runProgram deployment event.around
        (record (db.platform deployment) event.organization.id
          (costs judgeCostUsd draftCostUsd))
        db).2

/-- Serve events one after the other. -/
def serveAll (events : List MeterEvent) (db : Database) : Database :=
  events.foldl (fun db event => event.serve deployment db) db

/-- What an event does to the ledger. -/
def apply (ledger : Ledger) : Ledger :=
  match event.metered with
  | .consume metric amount =>
      (ledger.consume deployment.billingEnforced event.organization metric
        amount (event.month deployment)).2
  | .release metric amount =>
      ledger.release event.organization.id metric amount
        (event.month deployment)
  | .record judgeCostUsd draftCostUsd =>
      ledger.record event.organization.id (event.month deployment)
        (costs judgeCostUsd draftCostUsd)

/-- What events do to the ledger, one after the other. -/
def applyAll (events : List MeterEvent) (ledger : Ledger) : Ledger :=
  events.foldl (fun ledger event => event.apply deployment ledger) ledger

variable {deployment event} {db : Database} {events : List MeterEvent}

theorem serveAll_append (first rest : List MeterEvent) (db : Database) :
    serveAll deployment (first ++ rest) db =
      serveAll deployment rest (serveAll deployment first db) :=
  List.foldl_append

end MeterEvent

/-- A metered event that takes its time: the clock moves on from one reading to
the next. -/
structure ClockedEvent extends MeterEvent where
  /-- What the clock shows, by the order of the readings. -/
  clock : Nat → Time
  starts : clock 0 = around.now
  advances : ∀ {first later : Nat}, first ≤ later → clock first ≤ clock later

/-- An event through which the clock stands still. -/
def MeterEvent.still (event : MeterEvent) : ClockedEvent where
  toMeterEvent := event
  clock := fun _ => event.around.now
  starts := rfl
  advances := fun _ => Int.le_refl _

namespace ClockedEvent

variable (deployment : Deployment) (event : ClockedEvent)

/-- The instant at which an event is recorded: a claim looks at the clock again
when it records itself. -/
def recordedAt : Time :=
  match event.metered with
  | .consume .. => event.clock 1
  | .release .. | .record .. => event.clock 0

/-- The month that an event counts in, with enforcement off. -/
def counted : Period :=
  deployment.periodKey event.recordedAt

/-- Serve an event, the clock moving on. -/
def serve (db : Database) : Database :=
  let perform := Database.performClocked deployment event.around event.clock
  match event.metered with
  | .consume metric amount =>
      ((consume (db.platform deployment) event.organization metric amount).run
        perform (0, db)).2.2
  | .release metric amount =>
      ((release (db.platform deployment) event.organization.id metric
        amount).run perform (0, db)).2.2
  | .record judgeCostUsd draftCostUsd =>
      ((record (db.platform deployment) event.organization.id
        (costs judgeCostUsd draftCostUsd)).run perform (0, db)).2.2

/-- Serve events one after the other. -/
def serveAll (events : List ClockedEvent) (db : Database) : Database :=
  events.foldl (fun db event => event.serve deployment db) db

/-- What an event does to the ledger. -/
def apply (ledger : Ledger) : Ledger :=
  match event.metered with
  | .consume metric amount =>
      (ledger.consumeAcross deployment.billingEnforced event.organization
        metric amount (event.month deployment) (event.counted deployment)).2
  | .release metric amount =>
      ledger.release event.organization.id metric amount
        (event.month deployment)
  | .record judgeCostUsd draftCostUsd =>
      ledger.record event.organization.id (event.month deployment)
        (costs judgeCostUsd draftCostUsd)

/-- What events do to the ledger, one after the other. -/
def applyAll (events : List ClockedEvent) (ledger : Ledger) : Ledger :=
  events.foldl (fun ledger event => event.apply deployment ledger) ledger

variable {deployment event} {db : Database} {events : List ClockedEvent}

/-- An event at one instant is served alike. -/
theorem serve_still (event : MeterEvent) :
    event.still.serve deployment db = event.serve deployment db := by
  have seen {Value : Type} (program : Prog Value) :
      (program.run (Database.performClocked deployment event.around
        fun _ => event.around.now) (0, db)).2.2 =
        (runProgram deployment event.around program db).2 :=
    congrArg Prod.snd (run_performClocked_still program 0 db)
  unfold serve MeterEvent.serve
  have same : event.still.metered = event.metered := rfl
  rw [same]
  cases event.metered with
  | consume => exact seen _
  | release => exact seen _
  | record => exact seen _

theorem month_eq (event : ClockedEvent) :
    deployment.periodKey (event.clock 0) = event.month deployment := by
  rw [event.starts, MeterEvent.month]

theorem around_le_recordedAt (event : ClockedEvent) :
    event.around.now ≤ event.recordedAt := by
  rw [← event.starts, recordedAt]
  cases event.metered with
  | consume => exact event.advances (Nat.zero_le 1)
  | release => exact le_rfl
  | record => exact le_rfl

theorem serve_meters (constraints : db.Constraints)
    (isOrg : db.HasOrganization event.organization.id) :
    Database.Meters db (event.serve deployment db)
      (event.apply deployment db.ledger) := by
  have keyed := db.ledger_keyed
  have ends {Value : Type} {program : Prog Value} {value : Value}
      {left : Nat} {after : Ledger}
      (clocked : Clocked deployment event.around event.clock
        event.organization.id program 0 db.ledger value left after) :
      Database.Meters db
        (program.run (Database.performClocked deployment event.around
          event.clock) (0, db)).2.2 after := by
    obtain ⟨later, ran, meters⟩ := clocked db constraints isOrg rfl
    rw [ran]
    exact meters
  have month : (db.platform deployment).periodKey (event.clock 0) =
      event.month deployment :=
    event.month_eq
  unfold serve apply
  cases isMetered : event.metered with
  | consume metric amount =>
      have counts : (db.platform deployment).periodKey (event.clock 1) =
          event.counted deployment := by
        rw [counted, recordedAt, isMetered]
        rfl
      obtain ⟨left, clocked⟩ := Clocked.consume metric amount keyed month
        counts
      exact ends clocked
  | release metric amount =>
      exact ends (.release metric amount month)
  | record judgeCostUsd draftCostUsd =>
      exact ends (.record _ keyed month)

theorem serveAll_meters (constraints : db.Constraints)
    (isOrg : ∀ event ∈ events, db.HasOrganization event.organization.id) :
    Database.Meters db (serveAll deployment events db)
      (applyAll deployment events db.ledger) :=
  Database.Meters.foldl (fun event => event.organization.id)
    (fun _ _ constraints isOrg => serve_meters constraints isOrg) constraints
    isOrg

theorem apply_still (event : MeterEvent) {ledger : Ledger}
    (keyed : ledger.Keyed) :
    event.still.apply deployment ledger = event.apply deployment ledger := by
  unfold apply MeterEvent.apply
  have metered : event.still.metered = event.metered := rfl
  rw [metered]
  cases isMetered : event.metered with
  | consume metric amount =>
      have month : event.still.counted deployment = event.month deployment := by
        rw [counted, recordedAt, metered, isMetered]
        rfl
      rw [month]
      exact congrArg Prod.snd keyed.consumeAcross_self
  | release => rfl
  | record => rfl

theorem serveAll_append (first rest : List ClockedEvent) (db : Database) :
    serveAll deployment (first ++ rest) db =
      serveAll deployment rest (serveAll deployment first db) :=
  List.foldl_append

end ClockedEvent

namespace MeterEvent

variable {deployment : Deployment} {event : MeterEvent} {db : Database}
variable {events : List MeterEvent}

theorem serve_meters (constraints : db.Constraints)
    (isOrg : db.HasOrganization event.organization.id) :
    Database.Meters db (event.serve deployment db)
      (event.apply deployment db.ledger) := by
  rw [← ClockedEvent.serve_still, ← ClockedEvent.apply_still event
    db.ledger_keyed]
  exact @ClockedEvent.serve_meters deployment event.still db constraints isOrg

/-- Served events leave the ledger that they make of the one they find. -/
theorem serveAll_meters (constraints : db.Constraints)
    (isOrg : ∀ event ∈ events, db.HasOrganization event.organization.id) :
    Database.Meters db (serveAll deployment events db)
      (applyAll deployment events db.ledger) :=
  Database.Meters.foldl (fun event => event.organization.id)
    (fun _ _ constraints isOrg => serve_meters constraints isOrg) constraints
    isOrg

end MeterEvent

/-! ## Months -/

/-- Months counted from a common origin. -/
def Period.index (period : Period) : Nat :=
  12 * period.year + period.month

/-- What `strftime` makes of an instant: a month of the calendar, and no earlier
one for a later instant. -/
structure Calendar (periodKey : Time → Period) : Prop where
  year : ∀ now, 1 ≤ (periodKey now).year
  first : ∀ now, 1 ≤ (periodKey now).month
  ordered : ∀ earlier later, earlier ≤ later →
    (periodKey earlier).index ≤ (periodKey later).index

theorem index_previousPeriod {period : Period} (year : 1 ≤ period.year)
    (first : 1 ≤ period.month) :
    (previousPeriod period).index + 1 = period.index := by
  unfold previousPeriod Period.index
  split <;> dsimp only <;> omega

end AssessmentPlatform
