import Mathlib.Logic.Function.Basic
import Mathlib.Data.List.Nodup
import Mathlib.Data.List.Perm.Subperm

/-!
# A table of rows under read-committed isolation

Readers see committed rows.  A write is staged under a row lock held by its
transaction until that transaction commits or rolls back; while a row is
locked nobody can stage another write on it.  `keys` lists the rows in the
order in which they were first written.

A statement answers `none` while it waits for a lock.  An UPDATE tests its
condition on the committed row first, so a row that does not match is not
waited for.  An INSERT waits for an uncommitted row with the same key before it
reports a violation.
-/

set_option linter.unusedSectionVars false

namespace Interleaving

/-- Committed rows and the writes staged on them, each with the thread whose
transaction staged it. -/
structure RowTable (Tid Key Row : Type) where
  keys : List Key
  row : Key → Option Row
  staged : Key → Option (Tid × Row)

namespace RowTable

variable {Tid Key Row : Type} [DecidableEq Tid] [DecidableEq Key]

/-- The table without rows. -/
def empty : RowTable Tid Key Row where
  keys := []
  row := fun _ => none
  staged := fun _ => none

/-- The committed rows that satisfy `wanted`, in table order. -/
def select
    (table : RowTable Tid Key Row) (wanted : Row → Bool) : List Key :=
  table.keys.filter fun key => (table.row key).any wanted

/-- Stage `value` for `key` in the transaction of `tid`. -/
def stage
    (table : RowTable Tid Key Row) (tid : Tid) (key : Key) (value : Row) :
    RowTable Tid Key Row where
  keys := if key ∈ table.keys then table.keys else table.keys ++ [key]
  row := table.row
  staged := Function.update table.staged key (some (tid, value))

/-- A conditional UPDATE of one row: whether the row matched. -/
def tryUpdate
    (table : RowTable Tid Key Row) (tid : Tid) (key : Key)
    (matched : Row → Bool) (change : Row → Row) :
    Option (Bool × RowTable Tid Key Row) :=
  match table.row key with
  | none => some (false, table)
  | some row =>
      if matched row then
        if (table.staged key).isSome then none
        else some (true, table.stage tid key (change row))
      else
        some (false, table)

/-- An UPDATE of every matching row. -/
def tryUpdateAll
    (table : RowTable Tid Key Row) (tid : Tid)
    (matched : Row → Bool) (change : Row → Row) :
    Option (RowTable Tid Key Row) :=
  if (table.select matched).any fun key => (table.staged key).isSome then
    none
  else
    some
      { table with
        staged := fun key =>
          if key ∈ table.select matched then
            (table.row key).map fun row => (tid, change row)
          else
            table.staged key }

/-- An INSERT under a primary key and the unique columns that `conflicts`
compares: `false` is a constraint violation. -/
def tryInsert
    (table : RowTable Tid Key Row) (tid : Tid) (key : Key) (value : Row)
    (conflicts : Row → Bool) : Option (Bool × RowTable Tid Key Row) :=
  let clashes (other : Key) (row : Row) : Bool := other = key || conflicts row
  if table.keys.any fun other =>
      (table.staged other).any fun write =>
        clashes other write.2 || (table.row other).any (clashes other) then
    none
  else if table.keys.any fun other => (table.row other).any (clashes other) then
    some (false, table)
  else
    some (true, table.stage tid key value)

/-- Release the locks of `tid`. -/
def unlock
    (table : RowTable Tid Key Row) (tid : Tid) : Key → Option (Tid × Row) :=
  fun key => (table.staged key).filter fun write => write.1 ≠ tid

/-- Make the staged writes of `tid` visible and release its locks. -/
def commit
    (table : RowTable Tid Key Row) (tid : Tid) : RowTable Tid Key Row where
  keys := table.keys
  row := fun key =>
    match table.staged key with
    | some (owner, value) =>
        if owner = tid then some value else table.row key
    | none => table.row key
  staged := table.unlock tid

/-- Discard the staged writes of `tid` and release its locks. -/
def rollback
    (table : RowTable Tid Key Row) (tid : Tid) : RowTable Tid Key Row where
  keys := table.keys
  row := table.row
  staged := table.unlock tid

/-- What the transaction of `tid` has staged for a row. -/
def pending
    (table : RowTable Tid Key Row) (tid : Tid) (key : Key) : Option Row :=
  (table.staged key).bind fun write =>
    if write.1 = tid then some write.2 else none

/-- Whether the COMMIT of `tid` updates a row in a way that `event`
describes. -/
def commits
    (table : RowTable Tid Key Row) (tid : Tid) (event : Row → Row → Bool) :
    Bool :=
  table.keys.any fun key =>
    match table.staged key, table.row key with
    | some (owner, value), some row => decide (owner = tid) && event row value
    | _, _ => false

/-! ## What a statement does to a table -/

variable {table before after : RowTable Tid Key Row}
variable {tid other : Tid} {key : Key} {value row : Row}

@[simp]
theorem row_stage : (table.stage tid key value).row = table.row :=
  rfl

@[simp]
theorem staged_stage :
    (table.stage tid key value).staged =
      Function.update table.staged key (some (tid, value)) :=
  rfl

@[simp]
theorem row_rollback : (table.rollback tid).row = table.row :=
  rfl

@[simp]
theorem staged_rollback : (table.rollback tid).staged = table.unlock tid :=
  rfl

@[simp]
theorem staged_commit : (table.commit tid).staged = table.unlock tid :=
  rfl

@[simp]
theorem keys_commit : (table.commit tid).keys = table.keys :=
  rfl

theorem pending_eq_some_iff :
    table.pending tid key = some value ↔
      table.staged key = some (tid, value) := by
  simp [pending, Option.bind_eq_some_iff]

theorem pending_eq_some (staged : table.staged key = some (tid, value)) :
    table.pending tid key = some value :=
  pending_eq_some_iff.mpr staged

theorem unlock_eq_some_iff :
    table.unlock tid key = some (other, value) ↔
      table.staged key = some (other, value) ∧ other ≠ tid := by
  simp [unlock, Option.filter_eq_some_iff]

theorem row_commit_of_staged
    (staged : table.staged key = some (tid, value)) :
    (table.commit tid).row key = some value := by
  simp [commit, staged]

theorem row_commit_of_not_staged
    (notStaged : ∀ value, table.staged key ≠ some (tid, value)) :
    (table.commit tid).row key = table.row key := by
  cases write : table.staged key with
  | none =>
      simp [commit, write]
  | some entry =>
      obtain ⟨owner, value⟩ := entry
      have different : owner ≠ tid := by
        rintro rfl
        exact notStaged value write
      simp [commit, write, different]

theorem mem_select_iff {wanted : Row → Bool} :
    key ∈ table.select wanted ↔
      key ∈ table.keys ∧ ∃ row, table.row key = some row ∧ wanted row := by
  simp [select, Option.any_eq_true]

/-- The three ways a conditional UPDATE of one row can end. -/
theorem tryUpdate_cases
    {matched : Row → Bool} {change : Row → Row} {won : Bool}
    (updated :
      table.tryUpdate tid key matched change = some (won, after)) :
    (won = true ∧ table.staged key = none ∧
      ∃ row, table.row key = some row ∧ matched row ∧
        after = table.stage tid key (change row)) ∨
    (won = false ∧ after = table ∧
      ∀ row, table.row key = some row → matched row = false) := by
  unfold tryUpdate at updated
  cases found : table.row key with
  | none =>
      rw [found] at updated
      cases updated
      exact Or.inr ⟨rfl, rfl, by simp⟩
  | some row =>
      simp only [found] at updated
      by_cases isMatch : matched row
      · rw [if_pos isMatch] at updated
        split at updated
        · cases updated
        · next free =>
            cases updated
            refine Or.inl ⟨rfl, by simpa using free, row, rfl, isMatch, rfl⟩
      · rw [if_neg isMatch] at updated
        cases updated
        refine Or.inr ⟨rfl, rfl, ?_⟩
        rintro _ ⟨⟩
        simpa using isMatch

/-- No listed row, committed or staged, has the key or conflicts. -/
structure Insertable
    (table : RowTable Tid Key Row) (key : Key) (conflicts : Row → Bool) :
    Prop where
  row_free :
    ∀ {other row}, other ∈ table.keys → table.row other = some row →
      other ≠ key ∧ conflicts row = false
  staged_free :
    ∀ {other owner row}, other ∈ table.keys →
      table.staged other = some (owner, row) →
        other ≠ key ∧ conflicts row = false

/-- The two ways an INSERT can end. -/
theorem tryInsert_cases
    {conflicts : Row → Bool} {inserted : Bool}
    (executed :
      table.tryInsert tid key value conflicts = some (inserted, after)) :
    (inserted = true ∧ after = table.stage tid key value ∧
      table.Insertable key conflicts) ∨
    (inserted = false ∧ after = table) := by
  simp only [tryInsert] at executed
  split at executed
  · cases executed
  · next noneStaged =>
      split at executed
      · cases executed
        exact Or.inr ⟨rfl, rfl⟩
      · next noneCommitted =>
          cases executed
          refine Or.inl ⟨rfl, rfl, ?_, ?_⟩
          · intro other row member found
            simpa [found] using
              (by simpa using noneCommitted :
                ∀ other ∈ table.keys, (table.row other).any
                  (fun row => decide (other = key) || conflicts row) = false)
                other member
          · intro other owner row member found
            have free :
                ¬((decide (other = key) || conflicts row) ∨
                  (table.row other).any fun row =>
                    decide (other = key) || conflicts row) := by
              intro clash
              apply noneStaged
              rw [List.any_eq_true]
              exact ⟨other, member, by simpa [found] using clash⟩
            simpa using fun clash => free (Or.inl clash)

/-- An INSERT is a violation because of a committed row. -/
theorem conflict_of_tryInsert
    {conflicts : Row → Bool}
    (executed :
      table.tryInsert tid key value conflicts = some (false, after)) :
    ∃ other row, table.row other = some row ∧
      (other = key ∨ conflicts row = true) := by
  simp only [tryInsert] at executed
  split at executed
  · cases executed
  · split at executed
    · next clash =>
        obtain ⟨other, -, clashes⟩ := List.any_eq_true.mp clash
        obtain ⟨row, found, conflict⟩ := (Option.any_eq_true _ _).mp clashes
        exact ⟨other, row, found, by simpa using conflict⟩
    · cases executed

theorem tryUpdateAll_eq_some
    {matched : Row → Bool} {change : Row → Row}
    (updated : table.tryUpdateAll tid matched change = some after) :
    (∀ key ∈ table.select matched, table.staged key = none) ∧
      after.keys = table.keys ∧ after.row = table.row ∧
      ∀ key, after.staged key =
        if key ∈ table.select matched then
          (table.row key).map fun row => (tid, change row)
        else
          table.staged key := by
  unfold tryUpdateAll at updated
  split at updated
  · cases updated
  · next free =>
      cases updated
      refine ⟨?_, rfl, rfl, fun _ => rfl⟩
      simpa using free

/-! ## What other transactions may rely on -/

/-- A statement of `tid` that changed a table: committed rows only become what
`tid` had staged for them, and the locks of other transactions stay. -/
structure Moves (tid : Tid) (before after : RowTable Tid Key Row) : Prop where
  row :
    ∀ key, after.row key = before.row key ∨
      ∃ value, before.staged key = some (tid, value) ∧
        after.row key = some value
  others :
    ∀ {key other value}, other ≠ tid →
      (after.staged key = some (other, value) ↔
        before.staged key = some (other, value))
  keys : ∀ {key}, key ∈ before.keys → key ∈ after.keys

namespace Moves

theorem refl : Moves tid table table :=
  ⟨fun _ => Or.inl rfl, fun _ => Iff.rfl, id⟩

theorem stage (free : table.staged key = none) :
    Moves tid table (table.stage tid key value) := by
  refine ⟨fun _ => Or.inl rfl, ?_, ?_⟩
  · intro tested other write different
    by_cases same : tested = key
    · subst same
      simp [free, Ne.symm different]
    · simp [Function.update_of_ne same]
  · intro tested member
    simp only [RowTable.stage]
    split
    · exact member
    · exact List.mem_append_left _ member

theorem commit : Moves tid table (table.commit tid) := by
  refine ⟨?_, ?_, id⟩
  · intro key
    by_cases staged : ∃ value, table.staged key = some (tid, value)
    · obtain ⟨value, staged⟩ := staged
      exact Or.inr ⟨value, staged, row_commit_of_staged staged⟩
    · exact Or.inl (row_commit_of_not_staged (by simpa using staged))
  · intro key other value different
    simp [unlock_eq_some_iff, different]

theorem rollback : Moves tid table (table.rollback tid) := by
  refine ⟨fun _ => Or.inl rfl, ?_, id⟩
  intro key other value different
  simp [unlock_eq_some_iff, different]

theorem tryUpdateAll
    {matched : Row → Bool} {change : Row → Row}
    (updated : table.tryUpdateAll tid matched change = some after) :
    Moves tid table after := by
  obtain ⟨free, keys, rows, staged⟩ := tryUpdateAll_eq_some updated
  refine ⟨fun key => Or.inl (by rw [rows]), ?_, by rw [keys]; exact id⟩
  intro key other value different
  rw [staged]
  split
  · next selected =>
      rw [free key selected]
      cases table.row key <;> simp [Ne.symm different]
  · rfl

/-- A row that another transaction has locked stays as it is. -/
theorem row_of_locked
    (moves : Moves tid before after) (different : other ≠ tid)
    (locked : before.staged key = some (other, value)) :
    after.row key = before.row key := by
  rcases moves.row key with same | ⟨write, staged, -⟩
  · exact same
  · rw [locked] at staged
    cases staged
    exact absurd rfl different

/-- A row never goes away. -/
theorem row_isSome
    (moves : Moves tid before after)
    (found : (before.row key).isSome) :
    (after.row key).isSome := by
  rcases moves.row key with same | ⟨write, -, committed⟩
  · rwa [same]
  · simp [committed]

end Moves

/-! ## Invariants of a table -/

/-- Every key that has a row or a staged write is listed, once. -/
structure Listed (table : RowTable Tid Key Row) : Prop where
  row : ∀ {key row}, table.row key = some row → key ∈ table.keys
  staged : ∀ {key write}, table.staged key = some write → key ∈ table.keys
  nodup : table.keys.Nodup

namespace Listed

theorem empty : (empty : RowTable Tid Key Row).Listed :=
  ⟨by simp [RowTable.empty], by simp [RowTable.empty], List.nodup_nil⟩

theorem stage (listed : table.Listed) :
    (table.stage tid key value).Listed := by
  have keys :
      ∀ tested, tested ∈ (table.stage tid key value).keys ↔
        tested ∈ table.keys ∨ tested = key := by
    intro tested
    simp only [RowTable.stage]
    split
    · next member =>
        constructor
        · exact Or.inl
        · rintro (listed | rfl)
          · exact listed
          · exact member
    · simp
  refine ⟨?_, ?_, ?_⟩
  · intro tested row found
    exact (keys tested).mpr (Or.inl (listed.row found))
  · intro tested write found
    by_cases same : tested = key
    · exact (keys tested).mpr (Or.inr same)
    · rw [staged_stage, Function.update_of_ne same] at found
      exact (keys tested).mpr (Or.inl (listed.staged found))
  · simp only [RowTable.stage]
    split
    · exact listed.nodup
    · next absent =>
        exact
          List.nodup_append.mpr
            ⟨listed.nodup, List.nodup_singleton key,
              fun first firstMember second secondMember => by
                rw [List.mem_singleton] at secondMember
                subst secondMember
                exact fun same => absent (same ▸ firstMember)⟩

theorem commit (listed : table.Listed) : (table.commit tid).Listed := by
  refine ⟨?_, ?_, listed.nodup⟩
  · intro key row found
    have moves : Moves tid table (table.commit tid) := Moves.commit
    rcases moves.row key with same | ⟨value, staged, -⟩
    · exact listed.row (same ▸ found)
    · exact listed.staged staged
  · rintro key ⟨owner, value⟩ found
    exact listed.staged (unlock_eq_some_iff.mp found).1

theorem rollback (listed : table.Listed) : (table.rollback tid).Listed := by
  refine ⟨listed.row, ?_, listed.nodup⟩
  rintro key ⟨owner, value⟩ found
  exact listed.staged (unlock_eq_some_iff.mp found).1

theorem tryUpdateAll
    {matched : Row → Bool} {change : Row → Row}
    (listed : table.Listed)
    (updated : table.tryUpdateAll tid matched change = some after) :
    after.Listed := by
  obtain ⟨-, keys, rows, staged⟩ := tryUpdateAll_eq_some updated
  refine ⟨?_, ?_, keys ▸ listed.nodup⟩
  · intro key row found
    rw [keys]
    exact listed.row (rows ▸ found)
  · intro key write found
    rw [keys]
    rw [staged] at found
    split at found
    · next selected => exact (mem_select_iff.mp selected).1
    · exact listed.staged found

/-- Where an INSERT succeeds, its key had neither a row nor a staged write. -/
theorem free_of_insertable
    {conflicts : Row → Bool}
    (listed : table.Listed) (insertable : table.Insertable key conflicts) :
    table.row key = none ∧ table.staged key = none := by
  constructor
  · by_contra present
    obtain ⟨row, found⟩ := Option.ne_none_iff_exists'.mp present
    exact (insertable.row_free (listed.row found) found).1 rfl
  · by_contra present
    obtain ⟨⟨owner, row⟩, found⟩ := Option.ne_none_iff_exists'.mp present
    exact (insertable.staged_free (listed.staged found) found).1 rfl

end Listed

/-- One statement of `tid` on a table: which writes it may stage, and whether
it may end the transaction. -/
inductive Acts
    (tid : Tid) (allowed : Key → Row → Prop) (commits rollsBack : Prop)
    (table : RowTable Tid Key Row) : RowTable Tid Key Row → Prop
  | same : Acts tid allowed commits rollsBack table table
  | stage
      (key : Key) (value : Row) (free : table.staged key = none)
      (permitted : allowed key value) :
      Acts tid allowed commits rollsBack table (table.stage tid key value)
  | stageAll
      {matched : Row → Bool} {change : Row → Row}
      {after : RowTable Tid Key Row}
      (updated : table.tryUpdateAll tid matched change = some after)
      (permitted :
        ∀ key row, table.row key = some row → matched row →
          allowed key (change row)) :
      Acts tid allowed commits rollsBack table after
  | commit (committing : commits) :
      Acts tid allowed commits rollsBack table (table.commit tid)
  | rollback (rolling : rollsBack) :
      Acts tid allowed commits rollsBack table (table.rollback tid)

namespace Acts

variable {allowed : Key → Row → Prop} {commits rollsBack : Prop}

theorem moves (acts : Acts tid allowed commits rollsBack before after) :
    Moves tid before after := by
  cases acts with
  | same => exact Moves.refl
  | stage key value free _ => exact Moves.stage free
  | stageAll updated _ => exact Moves.tryUpdateAll updated
  | commit _ => exact Moves.commit
  | rollback _ => exact Moves.rollback

theorem listed (acts : Acts tid allowed commits rollsBack before after)
    (listed : before.Listed) :
    after.Listed := by
  cases acts with
  | same => exact listed
  | stage key value _ _ => exact listed.stage
  | stageAll updated _ => exact listed.tryUpdateAll updated
  | commit _ => exact listed.commit
  | rollback _ => exact listed.rollback

/-- A write staged afterwards was staged before, or is one that the statement
may stage. -/
theorem staged
    (acts : Acts tid allowed commits rollsBack before after)
    (found : after.staged key = some (other, value)) :
    before.staged key = some (other, value) ∨
      other = tid ∧ before.staged key = none ∧
        after.row = before.row ∧ allowed key value := by
  cases acts with
  | same =>
      exact Or.inl found
  | stage written write free permitted =>
      by_cases same : key = written
      · subst same
        rw [staged_stage, Function.update_self] at found
        cases found
        exact Or.inr ⟨rfl, free, rfl, permitted⟩
      · rw [staged_stage, Function.update_of_ne same] at found
        exact Or.inl found
  | stageAll updated permitted =>
      obtain ⟨free, -, rows, staged⟩ := tryUpdateAll_eq_some updated
      rw [staged] at found
      split at found
      · next selected =>
          obtain ⟨-, row, committed, isMatch⟩ := mem_select_iff.mp selected
          rw [committed] at found
          cases found
          exact
            Or.inr
              ⟨rfl, free key selected, rows,
                permitted key row committed isMatch⟩
      · exact Or.inl found
  | commit _ =>
      exact Or.inl (unlock_eq_some_iff.mp found).1
  | rollback _ =>
      exact Or.inl (unlock_eq_some_iff.mp found).1

/-- A write of the statement's own transaction that stays staged leaves its row
as it is. -/
theorem row_of_staged
    (acts : Acts tid allowed commits rollsBack before after)
    (found : after.staged key = some (tid, value)) :
    after.row key = before.row key := by
  cases acts with
  | same => rfl
  | stage => rfl
  | stageAll updated _ => rw [(tryUpdateAll_eq_some updated).2.2.1]
  | commit _ => exact absurd rfl (unlock_eq_some_iff.mp found).2
  | rollback _ => rfl

/-- Only COMMIT makes rows visible. -/
theorem row_of_not_commits
    (acts : Acts tid allowed commits rollsBack before after)
    (notCommits : ¬commits) :
    after.row = before.row := by
  cases acts with
  | same => rfl
  | stage => rfl
  | stageAll updated _ => exact (tryUpdateAll_eq_some updated).2.2.1
  | commit committing => exact absurd committing notCommits
  | rollback _ => rfl

/-- What a transaction has staged stays staged until it is committed or rolled
back. -/
theorem own
    (acts : Acts tid allowed commits rollsBack before after)
    (found : before.staged key = some (tid, value)) :
    after.staged key = some (tid, value) ∨
      commits ∧ after.row key = some value ∨ rollsBack := by
  cases acts with
  | same =>
      exact Or.inl found
  | stage written write free _ =>
      have different : key ≠ written := by
        rintro rfl
        rw [free] at found
        cases found
      exact Or.inl (by simpa [Function.update_of_ne different] using found)
  | stageAll updated _ =>
      obtain ⟨free, -, -, staged⟩ := tryUpdateAll_eq_some updated
      rw [staged]
      split
      · next selected =>
          rw [free key selected] at found
          cases found
      · exact Or.inl found
  | commit committing =>
      exact Or.inr (Or.inl ⟨committing, row_commit_of_staged found⟩)
  | rollback rolling =>
      exact Or.inr (Or.inr rolling)

end Acts

/-- Rows, committed and staged, sit under their own key. -/
structure Keyed (keyOf : Row → Key) (table : RowTable Tid Key Row) :
    Prop where
  row : ∀ {key row}, table.row key = some row → keyOf row = key
  staged :
    ∀ {key tid row}, table.staged key = some (tid, row) → keyOf row = key

theorem Keyed.empty {keyOf : Row → Key} :
    (empty : RowTable Tid Key Row).Keyed keyOf :=
  ⟨by simp [RowTable.empty], by simp [RowTable.empty]⟩

theorem Keyed.acts
    {keyOf : Row → Key} {allowed : Key → Row → Prop}
    {commits rollsBack : Prop}
    (keyed : before.Keyed keyOf)
    (acts : Acts tid allowed commits rollsBack before after)
    (own : ∀ key value, allowed key value → keyOf value = key) :
    after.Keyed keyOf := by
  constructor
  · intro key row found
    rcases acts.moves.row key with same | ⟨value, staged, committed⟩
    · exact keyed.row (same ▸ found)
    · rw [committed] at found
      cases found
      exact keyed.staged staged
  · intro key owner row found
    rcases acts.staged found with earlier | ⟨-, -, -, permitted⟩
    · exact keyed.staged earlier
    · exact own key row permitted

/-- Every staged write satisfies `writes`: its transaction, the key, the
committed row and the value to come. -/
def Staged
    (writes : Tid → Key → Option Row → Row → Prop)
    (table : RowTable Tid Key Row) : Prop :=
  ∀ key tid value,
    table.staged key = some (tid, value) →
      writes tid key (table.row key) value

namespace Staged

variable {writes : Tid → Key → Option Row → Row → Prop}

theorem empty : (empty : RowTable Tid Key Row).Staged writes :=
  fun _ _ _ staged => nomatch staged

/-- A locked row does not change, so only the writes that the statement stages
have to be checked. -/
theorem acts
    {allowed : Key → Row → Prop} {commits rollsBack : Prop}
    (staged : before.Staged writes)
    (acts : Acts tid allowed commits rollsBack before after)
    (own :
      ∀ key value, allowed key value →
        writes tid key (before.row key) value) :
    after.Staged writes := by
  intro key owner value found
  rcases acts.staged found with earlier | ⟨rfl, -, rows, permitted⟩
  · have unchanged : after.row key = before.row key := by
      by_cases same : owner = tid
      · subst same
        exact acts.row_of_staged found
      · exact acts.moves.row_of_locked same earlier
    rw [unchanged]
    exact staged key owner value earlier
  · rw [rows]
    exact own key value permitted

/-- What a committed change of a row can be. -/
theorem change
    {tid : Tid} (staged : before.Staged writes)
    (moves : Moves tid before after) (key : Key) :
    after.row key = before.row key ∨
      ∃ value, before.staged key = some (tid, value) ∧
        after.row key = some value ∧
        writes tid key (before.row key) value := by
  rcases moves.row key with same | ⟨value, found, committed⟩
  · exact Or.inl same
  · exact Or.inr ⟨value, found, committed, staged key tid value found⟩

end Staged

/-! ## Unique keys -/

/-- The row is committed under the key, or about to be. -/
def Present
    (table : RowTable Tid Key Row) (key : Key) (row : Row) : Prop :=
  table.row key = some row ∨ ∃ tid, table.staged key = some (tid, row)

/-- What is there after a statement was there before, or is staged by it. -/
theorem Acts.present
    {allowed : Key → Row → Prop} {commits rollsBack : Prop}
    (acts : Acts tid allowed commits rollsBack before after)
    (present : after.Present key row) :
    before.Present key row ∨ allowed key row := by
  rcases present with committed | ⟨owner, staged⟩
  · rcases acts.moves.row key with same | ⟨value, staged, written⟩
    · exact Or.inl (Or.inl (same ▸ committed))
    · rw [written] at committed
      cases committed
      exact Or.inl (Or.inr ⟨tid, staged⟩)
  · rcases acts.staged staged with earlier | ⟨-, -, -, permitted⟩
    · exact Or.inl (Or.inr ⟨owner, earlier⟩)
    · exact Or.inr permitted

section Unique

variable {Label : Type} {label : Row → Option Label}

/-- No two rows, committed or about to be, share a label; `none` is the label
of a row whose unique columns hold a NULL. -/
def Unique (label : Row → Option Label) (table : RowTable Tid Key Row) :
    Prop :=
  ∀ ⦃first second row other shared⦄,
    table.Present first row → table.Present second other →
      label row = some shared → label other = some shared → first = second

/-- A write keeps the label of its row, or is an insertion under a label that
no row has. -/
def Relabels
    (label : Row → Option Label) (table : RowTable Tid Key Row) (key : Key)
    (value : Row) : Prop :=
  (∃ row, table.row key = some row ∧ label value = label row) ∨
    table.row key = none ∧
      ∀ {other row shared}, table.Present other row →
        label row = some shared → label value ≠ some shared

theorem Unique.empty : (empty : RowTable Tid Key Row).Unique label := by
  rintro first second row other shared (committed | ⟨tid, staged⟩)
  · cases committed
  · cases staged

theorem Insertable.relabels
    {conflicts : Row → Bool}
    (insertable : table.Insertable key conflicts) (listed : table.Listed)
    (detects :
      ∀ row shared, label row = some shared → label value = some shared →
        conflicts row) :
    table.Relabels label key value := by
  refine Or.inr ⟨(listed.free_of_insertable insertable).1, ?_⟩
  rintro other row shared (committed | ⟨tid, staged⟩) labelled same
  · have quiet :=
      (insertable.row_free (listed.row committed) committed).2
    rw [detects row shared labelled same] at quiet
    cases quiet
  · have quiet :=
      (insertable.staged_free (listed.staged staged) staged).2
    rw [detects row shared labelled same] at quiet
    cases quiet

/-- A row inserted by the statement: its label is new, and no other key is
written. -/
structure InsertedBy
    (label : Row → Option Label) (before after : RowTable Tid Key Row)
    (key : Key) (value : Row) : Prop where
  fresh :
    ∀ {other row shared}, before.Present other row →
      label row = some shared → label value ≠ some shared
  unlocked : before.staged key = none
  locked : ∃ owner, after.staged key = some (owner, value)
  alone : ∀ other, other ≠ key → after.staged other = before.staged other

/-- Where the label of a present row comes from. -/
theorem Acts.label_origin
    {allowed : Key → Row → Prop} {commits rollsBack : Prop}
    (acts : Acts tid allowed commits rollsBack before after)
    (own :
      ∀ key value, allowed key value → before.Relabels label key value)
    (present : after.Present key row) :
    (∃ earlier, before.Present key earlier ∧ label row = label earlier) ∨
      InsertedBy label before after key row := by
  rcases present with committed | ⟨owner, staged⟩
  · rcases acts.moves.row key with same | ⟨value, staged, written⟩
    · exact Or.inl ⟨row, Or.inl (same ▸ committed), rfl⟩
    · rw [written] at committed
      cases committed
      exact Or.inl ⟨row, Or.inr ⟨tid, staged⟩, rfl⟩
  rcases acts.staged staged with earlier | ⟨-, -, -, permitted⟩
  · exact Or.inl ⟨row, Or.inr ⟨owner, earlier⟩, rfl⟩
  rcases own key row permitted with ⟨current, committed, same⟩ | ⟨absent, fresh⟩
  · exact Or.inl ⟨current, Or.inl committed, same⟩
  cases acts with
  | same => exact Or.inl ⟨row, Or.inr ⟨owner, staged⟩, rfl⟩
  | commit committing =>
      exact
        Or.inl
          ⟨row, Or.inr ⟨owner, (unlock_eq_some_iff.mp staged).1⟩, rfl⟩
  | rollback rolling =>
      exact
        Or.inl
          ⟨row, Or.inr ⟨owner, (unlock_eq_some_iff.mp staged).1⟩, rfl⟩
  | stageAll updated _ =>
      obtain ⟨-, -, -, writes⟩ := tryUpdateAll_eq_some updated
      rw [writes] at staged
      split at staged
      · rw [absent] at staged
        cases staged
      · exact Or.inl ⟨row, Or.inr ⟨owner, staged⟩, rfl⟩
  | stage written value free _ =>
      by_cases same : key = written
      · subst same
        refine Or.inr ⟨fresh, free, ⟨owner, staged⟩, ?_⟩
        intro other different
        rw [staged_stage, Function.update_of_ne different]
      · rw [staged_stage, Function.update_of_ne same] at staged
        exact Or.inl ⟨row, Or.inr ⟨owner, staged⟩, rfl⟩

theorem Unique.acts
    {allowed : Key → Row → Prop} {commits rollsBack : Prop}
    (unique : before.Unique label)
    (acts : Acts tid allowed commits rollsBack before after)
    (own :
      ∀ key value, allowed key value → before.Relabels label key value) :
    after.Unique label := by
  intro first second row other shared here there labelled same
  rcases acts.label_origin own here with ⟨source, earlier, isSource⟩ | here
  · rcases acts.label_origin own there with
      ⟨target, former, isTarget⟩ | there
    · exact
        unique earlier former (isSource ▸ labelled) (isTarget ▸ same)
    · exact absurd same (there.fresh earlier (isSource ▸ labelled))
  · rcases acts.label_origin own there with
      ⟨target, former, isTarget⟩ | there
    · exact absurd labelled (here.fresh former (isTarget ▸ same))
    · by_contra different
      obtain ⟨owner, staged⟩ := there.locked
      rw [here.alone second (Ne.symm different), there.unlocked] at staged
      cases staged

end Unique

theorem commits_iff
    {event : Row → Row → Bool} (listed : table.Listed) :
    table.commits tid event ↔
      ∃ key row value, table.row key = some row ∧
        table.staged key = some (tid, value) ∧ event row value := by
  rw [commits, List.any_eq_true]
  constructor
  · rintro ⟨key, -, happens⟩
    split at happens
    · next owner value row staged found =>
        simp only [Bool.and_eq_true, decide_eq_true_eq] at happens
        obtain ⟨rfl, happens⟩ := happens
        exact ⟨key, row, value, found, staged, happens⟩
    · cases happens
  · rintro ⟨key, row, value, found, staged, happens⟩
    exact ⟨key, listed.row found, by simp [found, staged, happens]⟩

theorem nodup_select (listed : table.Listed) (wanted : Row → Bool) :
    (table.select wanted).Nodup :=
  listed.nodup.filter _

/-- Selections grow with what they select. -/
theorem length_select_mono
    {wanted other : Row → Bool} (listed : before.Listed)
    (listedAfter : after.Listed)
    (keeps :
      ∀ {key row}, before.row key = some row → wanted row →
        ∃ later, after.row key = some later ∧ other later) :
    (before.select wanted).length ≤ (after.select other).length := by
  refine
    (List.subperm_of_subset (nodup_select listed wanted) ?_).length_le
  intro key selected
  obtain ⟨-, row, found, isWanted⟩ := mem_select_iff.mp selected
  obtain ⟨later, foundLater, isOther⟩ := keeps found isWanted
  exact
    mem_select_iff.mpr
      ⟨listedAfter.row foundLater, later, foundLater, isOther⟩

/-- Rows that are told apart by a name are no more than the names. -/
theorem length_select_le
    {Name : Type} {wanted : Row → Bool} {name : Row → Name}
    {names : List Name} (listed : table.Listed)
    (member :
      ∀ {key row}, table.row key = some row → wanted row →
        name row ∈ names)
    (distinct :
      ∀ {first second row other}, table.row first = some row →
        table.row second = some other → wanted row → wanted other →
          name row = name other → first = second) :
    (table.select wanted).length ≤ names.length := by
  have nodup :
      ((table.select wanted).map fun key =>
        (table.row key).map name).Nodup := by
    refine List.Nodup.map_on ?_ (nodup_select listed wanted)
    intro first firstMember second secondMember same
    obtain ⟨-, row, found, isWanted⟩ := mem_select_iff.mp firstMember
    obtain ⟨-, other, foundOther, isWantedOther⟩ :=
      mem_select_iff.mp secondMember
    rw [found, foundOther] at same
    exact
      distinct found foundOther isWanted isWantedOther
        (Option.some.inj same)
  have subset :
      ((table.select wanted).map fun key => (table.row key).map name) ⊆
        names.map some := by
    intro named isNamed
    obtain ⟨key, selected, rfl⟩ := List.mem_map.mp isNamed
    obtain ⟨-, row, found, isWanted⟩ := mem_select_iff.mp selected
    rw [found]
    exact List.mem_map_of_mem (member found isWanted)
  simpa using (List.subperm_of_subset nodup subset).length_le

end RowTable

end Interleaving
