import Mathlib.Data.List.Nodup
import Mathlib.Data.List.Pairwise

/-!
# Tables as lists of rows

A table is the list of its rows in the order of their insertion.  `updateWhere`
and `deleteWhere` are SQL's UPDATE and DELETE, an INSERT appends, and `fetch`
reads a row by its key.
-/

namespace Rows

variable {Row Key : Type} {rows : List Row}

/-- `UPDATE … WHERE matched`. -/
def updateWhere (matched : Row → Bool) (change : Row → Row)
    (rows : List Row) : List Row :=
  rows.map fun row => if matched row then change row else row

/-- `DELETE … WHERE matched`. -/
def deleteWhere (matched : Row → Bool) (rows : List Row) : List Row :=
  rows.filter fun row => !matched row

@[simp] theorem mem_updateWhere {matched : Row → Bool} {change : Row → Row}
    {row : Row} :
    row ∈ updateWhere matched change rows ↔
      (∃ old ∈ rows, matched old ∧ change old = row) ∨
        (row ∈ rows ∧ ¬matched row) := by
  simp only [updateWhere, List.mem_map]
  constructor
  · rintro ⟨old, member, rfl⟩
    by_cases isMatched : matched old
    · exact Or.inl ⟨old, member, isMatched, by simp [isMatched]⟩
    · exact Or.inr (by simpa [isMatched] using member)
  · rintro (⟨old, member, isMatched, rfl⟩ | ⟨member, unmatched⟩)
    · exact ⟨old, member, by simp [isMatched]⟩
    · exact ⟨row, member, by simp [unmatched]⟩

@[simp] theorem mem_deleteWhere {matched : Row → Bool} {row : Row} :
    row ∈ deleteWhere matched rows ↔ row ∈ rows ∧ ¬matched row := by
  simp [deleteWhere]

/-- Every row of an updated table comes from a row of the old one. -/
theorem mem_of_mem_updateWhere {matched : Row → Bool} {change : Row → Row}
    {row : Row} (member : row ∈ updateWhere matched change rows) :
    ∃ old ∈ rows, row = if matched old then change old else old := by
  obtain ⟨old, isOld, rfl⟩ := List.mem_map.mp member
  exact ⟨old, isOld, rfl⟩

theorem map_updateWhere {Value : Type} {matched : Row → Bool}
    {change : Row → Row} {column : Row → Value}
    (kept : ∀ row, column (change row) = column row) :
    (updateWhere matched change rows).map column = rows.map column := by
  simp only [updateWhere, List.map_map]
  apply List.map_congr_left
  intro row _
  by_cases isMatched : matched row <;> simp [Function.comp, isMatched, kept]

theorem flatMap_updateWhere {Value : Type} {matched : Row → Bool}
    {change : Row → Row} {entries : Row → List Value}
    (kept : ∀ row, matched row → entries (change row) = entries row) :
    (updateWhere matched change rows).flatMap entries =
      rows.flatMap entries := by
  rw [updateWhere, List.flatMap_map]
  apply List.flatMap_congr
  intro row _
  by_cases isMatched : matched row
  · simp [isMatched, kept row isMatched]
  · simp [isMatched]

/-- An update keeps the values of a column that it does not move. -/
theorem mem_map_updateWhere {Value : Type} {matched : Row → Bool}
    {change : Row → Row} {column : Row → Value} {value : Value}
    (kept : ∀ row, column (change row) = column row)
    (member : value ∈ rows.map column) :
    value ∈ (updateWhere matched change rows).map column := by
  rw [map_updateWhere kept]
  exact member

/-- An update that moves none of the rows that it matches. -/
theorem updateWhere_eq_self {matched : Row → Bool} {change : Row → Row}
    (same : ∀ row ∈ rows, matched row → change row = row) :
    updateWhere matched change rows = rows := by
  unfold updateWhere
  conv_rhs => rw [← List.map_id rows]
  apply List.map_congr_left
  intro row member
  split
  · next isMatched => exact same row member isMatched
  · rfl

/-! ## Selections -/

section Selections

variable {matched kept : Row → Bool} {change : Row → Row}

/-- An update of other rows does not change a selection. -/
theorem filter_updateWhere
    (apart : ∀ row ∈ rows, matched row →
      kept row = false ∧ kept (change row) = false) :
    (updateWhere matched change rows).filter kept = rows.filter kept := by
  induction rows with
  | nil => rfl
  | cons row rest inductionHypothesis =>
      have later := inductionHypothesis fun other member =>
        apart other (List.mem_cons_of_mem row member)
      simp only [updateWhere, List.map_cons, List.filter_cons] at later ⊢
      by_cases isMatched : matched row
      · obtain ⟨wasOut, isOut⟩ := apart row List.mem_cons_self isMatched
        simp [isMatched, wasOut, isOut, later]
      · simp [isMatched, later]

/-- An update that a selection does not see commutes with it. -/
theorem filter_updateWhere_comm
    (blind : ∀ row ∈ rows, matched row → kept (change row) = kept row) :
    (updateWhere matched change rows).filter kept =
      updateWhere matched change (rows.filter kept) := by
  rw [updateWhere, List.filter_map, updateWhere]
  congr 1
  apply List.filter_congr
  intro row member
  by_cases isMatched : matched row
  · simp [Function.comp, isMatched, blind row member isMatched]
  · simp [Function.comp, isMatched]

/-- A deletion of other rows does not change a selection. -/
theorem filter_deleteWhere
    (apart : ∀ row ∈ rows, matched row → kept row = false) :
    (deleteWhere matched rows).filter kept = rows.filter kept := by
  rw [deleteWhere, List.filter_filter]
  apply List.filter_congr
  intro row member
  by_cases isMatched : matched row
  · simp [isMatched, apart row member isMatched]
  · simp [isMatched]

/-- What an update takes out of a selection. -/
theorem filter_updateWhere_drop
    (out : ∀ row ∈ rows, matched row → kept (change row) = false) :
    (updateWhere matched change rows).filter kept =
      (rows.filter kept).filter fun row => !matched row := by
  induction rows with
  | nil => rfl
  | cons row rows inductionHypothesis =>
      have later := inductionHypothesis fun other member =>
        out other (List.mem_cons_of_mem row member)
      simp only [updateWhere, List.map_cons, List.filter_cons] at later ⊢
      by_cases isMatched : matched row
      · by_cases wasKept : kept row <;>
          simp [isMatched, wasKept, out row List.mem_cons_self isMatched, later]
      · by_cases isKept : kept row <;> simp [isMatched, isKept, later]

theorem filter_updateWhere_out
    (out : ∀ row ∈ rows, matched row → kept (change row) = false)
    (rest : ∀ row ∈ rows, ¬matched row → kept row = true) :
    (updateWhere matched change rows).filter kept =
      rows.filter fun row => !matched row := by
  rw [filter_updateWhere_drop out, List.filter_filter]
  apply List.filter_congr
  intro row member
  by_cases isMatched : matched row
  · simp [isMatched]
  · simp [isMatched, rest row member isMatched]

/-- An insertion of other rows does not change a selection. -/
theorem filter_append_of_forall {added : List Row}
    (apart : ∀ row ∈ added, kept row = false) :
    (rows ++ added).filter kept = rows.filter kept := by
  have none : added.filter kept = [] := by
    rw [List.filter_eq_nil_iff]
    intro row member
    simp [apart row member]
  rw [List.filter_append, none, List.append_nil]

/-- A row of a selection is in every table with the same selection. -/
theorem mem_of_filter_eq {new : List Row} {row : Row}
    (same : new.filter kept = rows.filter kept)
    (member : row ∈ rows) (isKept : kept row) : row ∈ new := by
  have here : row ∈ new.filter kept := by
    rw [same]
    exact List.mem_filter.mpr ⟨member, isKept⟩
  exact (List.mem_filter.mp here).1

/-- A filter that selects nothing. -/
theorem forall_of_filter_length_eq_zero
    (none : (rows.filter matched).length = 0) :
    ∀ row ∈ rows, ¬matched row := by
  intro row member isMatched
  have found : row ∈ rows.filter matched :=
    List.mem_filter.mpr ⟨member, isMatched⟩
  rw [List.length_eq_zero_iff.mp none] at found
  cases found

end Selections

/-- A deletion of other rows keeps a value of a column. -/
theorem mem_map_deleteWhere {Value : Type} {matched : Row → Bool}
    {column : Row → Value} {value : Value} (member : value ∈ rows.map column)
    (kept : ∀ row ∈ rows, column row = value → ¬matched row) :
    value ∈ (deleteWhere matched rows).map column := by
  obtain ⟨row, isRow, rfl⟩ := List.mem_map.mp member
  exact List.mem_map_of_mem (mem_deleteWhere.mpr ⟨isRow, kept row isRow rfl⟩)

section Keys

variable (key : Row → Key)

/-- No two rows have the same key. -/
def Keyed (rows : List Row) : Prop :=
  (rows.map key).Nodup

variable {key} {row : Row} {wanted : Key}

theorem Keyed.eq (keyed : Keyed key rows) {other : Row}
    (member : row ∈ rows) (otherMember : other ∈ rows)
    (same : key row = key other) : row = other :=
  List.inj_on_of_nodup_map keyed member otherMember same

theorem Keyed.updateWhere (keyed : Keyed key rows) {matched : Row → Bool}
    {change : Row → Row} (kept : ∀ row, key (change row) = key row) :
    Keyed key (updateWhere matched change rows) := by
  rw [Keyed, map_updateWhere kept]
  exact keyed

theorem Keyed.deleteWhere (keyed : Keyed key rows) {matched : Row → Bool} :
    Keyed key (deleteWhere matched rows) :=
  keyed.sublist (List.filter_sublist.map key)

/-- A search finds the row of the only key that it matches. -/
theorem Keyed.find_eq (keyed : Keyed key rows) {matched : Row → Bool}
    (member : row ∈ rows) (isMatched : matched row)
    (only : ∀ other, matched other → key other = key row) :
    rows.find? matched = some row := by
  cases found : rows.find? matched with
  | none =>
      rw [List.find?_eq_none] at found
      exact absurd isMatched (found row member)
  | some other =>
      rw [keyed.eq (List.mem_of_find?_eq_some found) member
        (only other (List.find?_some found))]

/-- Of several selected rows, one is not a given one. -/
theorem Keyed.exists_other (keyed : Keyed key rows) {matched : Row → Bool}
    (several : 1 < (rows.filter matched).length) (row : Row) :
    ∃ other ∈ rows, matched other ∧ key other ≠ key row := by
  by_contra none
  have same : ∀ found ∈ (rows.filter matched).map key, found = key row := by
    intro found member
    obtain ⟨other, isOther, rfl⟩ := List.mem_map.mp member
    obtain ⟨isRow, isMatched⟩ := List.mem_filter.mp isOther
    by_contra different
    exact none ⟨other, isRow, isMatched, different⟩
  have nodup : ((rows.filter matched).map key).Nodup :=
    keyed.sublist (List.filter_sublist.map key)
  rw [List.eq_replicate_of_mem same, List.nodup_replicate,
    List.length_map] at nodup
  omega

/-- The rows that an INSERT adds have keys of their own. -/
theorem Keyed.ne_of_append {added : List Row} {other : Row}
    (keyed : Keyed key (rows ++ added)) (isOld : row ∈ rows)
    (isNew : other ∈ added) : key row ≠ key other := by
  intro same
  have apart := (List.nodup_append'.mp (List.map_append ▸ keyed :
    (rows.map key ++ added.map key).Nodup)).2.2
  exact apart (List.mem_map_of_mem isOld) (same ▸ List.mem_map_of_mem isNew)

theorem Keyed.append (keyed : Keyed key rows)
    (fresh : ∀ other ∈ rows, key other ≠ key row) :
    Keyed key (rows ++ [row]) := by
  simp only [Keyed, List.map_append, List.map_cons, List.map_nil]
  apply List.Nodup.append keyed (by simp)
  intro other member isLast
  obtain ⟨kept, isKept, rfl⟩ := List.mem_map.mp member
  exact fresh kept isKept (by simpa using isLast)

variable [DecidableEq Key]

variable (key)

/-- `session.get`: the row with a given key. -/
def fetch (wanted : Key) (rows : List Row) : Option Row :=
  rows.find? fun row => key row == wanted

/-- Write one row back. -/
def save (saved : Row) (rows : List Row) : List Row :=
  updateWhere (fun row => key row == key saved) (fun _ => saved) rows

variable {key}

theorem mem_of_fetch (found : fetch key wanted rows = some row) : row ∈ rows :=
  List.mem_of_find?_eq_some found

theorem key_of_fetch (found : fetch key wanted rows = some row) :
    key row = wanted := by
  simpa using List.find?_some found

theorem Keyed.fetch_eq (keyed : Keyed key rows) (member : row ∈ rows)
    (isKey : key row = wanted) : fetch key wanted rows = some row := by
  cases found : fetch key wanted rows with
  | none =>
      rw [fetch, List.find?_eq_none] at found
      exact absurd (by simp [isKey]) (found row member)
  | some other =>
      rw [keyed.eq (mem_of_fetch found) member
        ((key_of_fetch found).trans isKey.symm)]

theorem fetch_eq_none :
    fetch key wanted rows = none ↔ ∀ row ∈ rows, key row ≠ wanted := by
  simp [fetch]

theorem fetch_append_of_ne (apart : key row ≠ wanted) :
    fetch key wanted (rows ++ [row]) = fetch key wanted rows := by
  simp [fetch, List.find?_append, apart]

section Update

variable {matched : Row → Bool} {change : Row → Row}

/-- An update of one key changes the row of that key. -/
theorem fetch_updateWhere_self
    (isMatched : ∀ row, matched row ↔ key row = wanted)
    (kept : ∀ row, key (change row) = key row) :
    fetch key wanted (Rows.updateWhere matched change rows) =
      (fetch key wanted rows).map change := by
  induction rows with
  | nil => rfl
  | cons row rest inductionHypothesis =>
      unfold fetch Rows.updateWhere at inductionHypothesis ⊢
      rw [List.map_cons, List.find?_cons, List.find?_cons, inductionHypothesis]
      by_cases isKey : key row = wanted
      · have isRow := (isMatched row).mpr isKey
        simp [isKey, isRow, kept]
      · have notRow := mt (isMatched row).mp isKey
        have apart : (key row == wanted) = false :=
          beq_eq_false_iff_ne.mpr isKey
        simp [notRow, apart]

/-- An update of one key leaves the row of another. -/
theorem fetch_updateWhere_of_ne {other : Key}
    (isMatched : ∀ row, matched row ↔ key row = wanted)
    (kept : ∀ row, key (change row) = key row) (apart : other ≠ wanted) :
    fetch key other (Rows.updateWhere matched change rows) =
      fetch key other rows := by
  induction rows with
  | nil => rfl
  | cons row rest inductionHypothesis =>
      unfold fetch Rows.updateWhere at inductionHypothesis ⊢
      rw [List.map_cons, List.find?_cons, List.find?_cons, inductionHypothesis]
      by_cases isKey : key row = wanted
      · have isRow := (isMatched row).mpr isKey
        have different : (wanted == other) = false :=
          beq_eq_false_iff_ne.mpr (Ne.symm apart)
        simp [isKey, isRow, kept, different]
      · have notRow := mt (isMatched row).mp isKey
        simp [notRow]

end Update

theorem map_key_save {saved : Row} : (save key saved rows).map key =
    rows.map key := by
  simp only [save, Rows.updateWhere, List.map_map]
  apply List.map_congr_left
  intro other _
  by_cases same : key other = key saved <;> simp [Function.comp, same]

theorem Keyed.save (keyed : Keyed key rows) {saved : Row} :
    Keyed key (save key saved rows) := by
  rw [Keyed, map_key_save]
  exact keyed

/-- A save keeps the columns that it does not move. -/
theorem map_save {Value : Type} {column : Row → Value} {saved was : Row}
    (keyed : Keyed key rows) (member : was ∈ rows)
    (isKey : key was = key saved) (kept : column was = column saved) :
    (Rows.save key saved rows).map column = rows.map column := by
  simp only [Rows.save, Rows.updateWhere, List.map_map]
  apply List.map_congr_left
  intro other isOther
  by_cases same : key other = key saved
  · obtain rfl := keyed.eq isOther member (same.trans isKey.symm)
    simp [Function.comp, same, kept]
  · simp [Function.comp, same]

theorem mem_map_save {Value : Type} {column : Row → Value} {value : Value}
    {saved was : Row} (keyed : Keyed key rows) (isRow : was ∈ rows)
    (isKey : key was = key saved) (kept : column was = column saved)
    (member : value ∈ rows.map column) :
    value ∈ (Rows.save key saved rows).map column := by
  rw [map_save keyed isRow isKey kept]
  exact member

/-- The rows of a table in which one row was saved. -/
theorem mem_save {saved other : Row} (member : other ∈ save key saved rows) :
    other = saved ∨ (other ∈ rows ∧ key other ≠ key saved) := by
  rcases mem_updateWhere.mp member with ⟨_, _, _, rfl⟩ | ⟨kept, different⟩
  · exact Or.inl rfl
  · exact Or.inr ⟨kept, by simpa using different⟩

end Keys

/-! ## Rows that come from earlier rows -/

/-- Every row comes from an earlier one, with the same columns. -/
def Derived {Value : Type} (columns : Row → Value) (old new : List Row) :
    Prop :=
  ∀ row ∈ new, ∃ was ∈ old, columns was = columns row

section Derived

variable {Value : Type} {columns : Row → Value} {middle new : List Row}

theorem Derived.refl (rows : List Row) : Derived columns rows rows :=
  fun row member => ⟨row, member, rfl⟩

theorem Derived.trans (first : Derived columns rows middle)
    (second : Derived columns middle new) : Derived columns rows new := by
  intro row member
  obtain ⟨was, isWas, same⟩ := second row member
  obtain ⟨old, isOld, sameOld⟩ := first was isWas
  exact ⟨old, isOld, sameOld.trans same⟩

theorem derived_deleteWhere (matched : Row → Bool) :
    Derived columns rows (deleteWhere matched rows) :=
  fun row member => ⟨row, (mem_deleteWhere.mp member).1, rfl⟩

theorem derived_updateWhere {matched : Row → Bool} {change : Row → Row}
    (kept : ∀ row, columns (change row) = columns row) :
    Derived columns rows (updateWhere matched change rows) := by
  intro row member
  obtain ⟨old, isOld, rfl⟩ := mem_of_mem_updateWhere member
  refine ⟨old, isOld, ?_⟩
  by_cases isMatched : matched old
  · simp [isMatched, kept]
  · simp [isMatched]

theorem derived_save [DecidableEq Key] {key : Row → Key} {saved was : Row}
    (member : was ∈ rows) (kept : columns was = columns saved) :
    Derived columns rows (save key saved rows) := by
  intro row isRow
  rcases mem_save isRow with rfl | ⟨isOld, _⟩
  · exact ⟨was, member, kept⟩
  · exact ⟨row, isOld, rfl⟩

end Derived

/-! ## Keys drawn from a sequence -/

/-- Every key lies behind a bound. -/
def Below (key : Row → Nat) (rows : List Row) (bound : Nat) : Prop :=
  ∀ row ∈ rows, key row < bound

section Below

variable {key : Row → Nat} {bound later : Nat}

theorem Below.mono (below : Below key rows bound) (reached : bound ≤ later) :
    Below key rows later :=
  fun row member => Nat.lt_of_lt_of_le (below row member) reached

theorem Below.updateWhere (below : Below key rows bound)
    {matched : Row → Bool} {change : Row → Row}
    (kept : ∀ row, key (change row) = key row) :
    Below key (updateWhere matched change rows) bound := by
  intro row member
  obtain ⟨old, isOld, rfl⟩ := mem_of_mem_updateWhere member
  by_cases isMatched : matched old
  · simpa [isMatched, kept] using below old isOld
  · simpa [isMatched] using below old isOld

theorem Below.of_map_eq {other : List Row} (below : Below key rows bound)
    (same : other.map key = rows.map key) : Below key other bound := by
  intro row member
  have isKey : key row ∈ other.map key := List.mem_map_of_mem member
  rw [same] at isKey
  obtain ⟨old, isOld, sameKey⟩ := List.mem_map.mp isKey
  exact sameKey ▸ below old isOld

theorem Below.deleteWhere (below : Below key rows bound)
    {matched : Row → Bool} : Below key (deleteWhere matched rows) bound :=
  fun row member => below row (mem_deleteWhere.mp member).1

theorem Below.append (below : Below key rows bound) {row : Row}
    (isNext : key row < later) (reached : bound ≤ later) :
    Below key (rows ++ [row]) later := by
  intro other member
  rcases List.mem_append.mp member with old | new
  · exact Nat.lt_of_lt_of_le (below other old) reached
  · obtain rfl := List.mem_singleton.mp new
    exact isNext

/-- A block of rows that takes the next keys. -/
theorem Below.append_range (below : Below key rows bound) {block : List Row}
    (isNext : block.map key = List.range' bound block.length) :
    Below key (rows ++ block) (bound + block.length) := by
  intro other member
  rcases List.mem_append.mp member with old | new
  · exact Nat.lt_of_lt_of_le (below other old) (Nat.le_add_right _ _)
  · have isKey : key other ∈ block.map key := List.mem_map_of_mem new
    rw [isNext, List.mem_range'_1] at isKey
    exact isKey.2

end Below

/-! ## Rows that come from earlier rows or are new -/

/-- Every row comes from an earlier one, with the same columns, or has a key
from a bound on. -/
def Grown {Value : Type} (key : Row → Nat) (columns : Row → Value)
    (bound : Nat) (old new : List Row) : Prop :=
  ∀ row ∈ new,
    (∃ was ∈ old, (key was, columns was) = (key row, columns row)) ∨
      bound ≤ key row

section Grown

variable {Value : Type} {key : Row → Nat} {columns : Row → Value}
variable {bound later : Nat} {middle new : List Row}

theorem Derived.grown
    (derived : Derived (fun row => (key row, columns row)) rows new) :
    Grown key columns bound rows new :=
  fun row member => Or.inl (derived row member)

theorem Grown.trans (first : Grown key columns bound rows middle)
    (second : Grown key columns later middle new) (reached : bound ≤ later) :
    Grown key columns bound rows new := by
  intro row member
  rcases second row member with ⟨was, isWas, same⟩ | isNew
  · rcases first was isWas with ⟨old, isOld, sameOld⟩ | isNew
    · exact Or.inl ⟨old, isOld, sameOld.trans same⟩
    · exact Or.inr ((Prod.mk.inj same).1 ▸ isNew)
  · exact Or.inr (Nat.le_trans reached isNew)

theorem Grown.append {added : List Row}
    (isNew : ∀ row ∈ added, bound ≤ key row) :
    Grown key columns bound rows (rows ++ added) := by
  intro row member
  rcases List.mem_append.mp member with old | new
  · exact Or.inl ⟨row, old, rfl⟩
  · exact Or.inr (isNew row new)

/-- The columns under an old key do not change. -/
theorem Grown.keeps (grown : Grown key columns bound rows new) {wanted : Nat}
    {value : Value} (isOld : wanted < bound)
    (was : ∀ row ∈ rows, key row = wanted → columns row = value) :
    ∀ row ∈ new, key row = wanted → columns row = value := by
  intro row member isKey
  rcases grown row member with ⟨old, isRow, same⟩ | isNew
  · obtain ⟨sameKey, sameColumns⟩ := Prod.mk.inj same
    rw [← sameColumns]
    exact was old isRow (sameKey.trans isKey)
  · omega

end Grown

/-! ## Constraints between rows -/

section Constraints

variable {Target : Type}

/-- UNIQUE over nullable columns: NULLs compare as distinct. -/
def Unique (key : Row → Option Key) (rows : List Row) : Prop :=
  (rows.filterMap key).Nodup

/-- Rows with the same unique key are one. -/
theorem Unique.eq {key : Row → Option Key} {rows : List Row}
    (unique : Unique key rows) {row same : Row} {wanted : Key}
    (member : row ∈ rows) (sameMember : same ∈ rows)
    (isKey : key row = some wanted) (sameKey : key same = some wanted) :
    row = same := by
  by_contra apart
  have pairs := List.pairwise_filterMap.mp unique
  have symmetric : Std.Symm fun first second : Row =>
      ∀ one ∈ key first, ∀ two ∈ key second, one ≠ two :=
    ⟨fun _ _ different two isTwo one isOne same =>
      different one isOne two isTwo same.symm⟩
  exact pairs.forall member sameMember apart wanted isKey wanted sameKey rfl

/-- FOREIGN KEY: whatever `column` names is the key of a row of `targets`. -/
def Refers (column : Row → Option Key) (rows : List Row)
    (key : Target → Key) (targets : List Target) : Prop :=
  ∀ row ∈ rows, ∀ wanted ∈ column row, ∃ target ∈ targets, key target = wanted

/-- References survive an update that keeps or clears them. -/
theorem Refers.updateWhere {column : Row → Option Key} {key : Target → Key}
    {targets : List Target} {matched : Row → Bool} {change : Row → Row}
    (refers : Refers column rows key targets)
    (fewer : ∀ row, column (change row) = none ∨
      column (change row) = column row) :
    Refers column (Rows.updateWhere matched change rows) key targets := by
  intro row member wanted names
  obtain ⟨old, isOld, rfl⟩ := mem_of_mem_updateWhere member
  split at names
  · rcases fewer old with isNone | same
    · rw [isNone] at names
      cases names
    · rw [same] at names
      exact refers old isOld wanted names
  · exact refers old isOld wanted names

/-- References only see the keys of what they refer to. -/
theorem Refers.of_map_eq {column : Row → Option Key} {key : Target → Key}
    {targets others : List Target} (refers : Refers column rows key targets)
    (same : others.map key = targets.map key) :
    Refers column rows key others := by
  intro row member wanted names
  have isKey : wanted ∈ targets.map key :=
    List.mem_map.mpr (refers row member wanted names)
  exact List.mem_map.mp (same ▸ isKey)

/-- References survive an update of what they refer to. -/
theorem Refers.updateTargets {column : Row → Option Key}
    {key : Target → Key} {targets : List Target} {matched : Target → Bool}
    {change : Target → Target} (refers : Refers column rows key targets)
    (kept : ∀ target, key (change target) = key target) :
    Refers column rows key (Rows.updateWhere matched change targets) :=
  refers.of_map_eq (map_updateWhere kept)

/-- References survive the deletion of what no row refers to. -/
theorem Refers.deleteTargets {column : Row → Option Key}
    {key : Target → Key} {targets : List Target} {matched : Target → Bool}
    (refers : Refers column rows key targets)
    (apart : ∀ row ∈ rows, ∀ target ∈ targets,
      column row = some (key target) → ¬matched target) :
    Refers column rows key (deleteWhere matched targets) := by
  intro row member wanted names
  obtain ⟨target, isTarget, rfl⟩ := refers row member wanted names
  exact ⟨target, mem_deleteWhere.mpr
    ⟨isTarget, apart row member target isTarget names⟩, rfl⟩

/-- A change of rows that merges no two keys. -/
theorem Keyed.map_of_inj {key : Row → Key} {change : Row → Row}
    (keyed : Keyed key rows)
    (injective : ∀ row ∈ rows, ∀ other ∈ rows,
      key (change row) = key (change other) → key row = key other) :
    Keyed key (rows.map change) := by
  have apart := List.pairwise_map.mp keyed
  rw [Keyed, List.map_map]
  apply List.pairwise_map.mpr
  apply List.Pairwise.imp_of_mem _ apart
  intro row other isRow isOther different same
  exact different (injective row isRow other isOther same)

/-- A save keeps another column apart where the value that it writes is free. -/
theorem Keyed.save_free {Value : Type} [DecidableEq Key] {key : Row → Key}
    {column : Row → Value} {saved : Row} (keyed : Keyed key rows)
    (columns : Keyed column rows)
    (free : ∀ other ∈ rows, column other = column saved →
      key other = key saved) :
    Keyed column (Rows.save key saved rows) := by
  apply columns.map_of_inj
  intro row member other isOther same
  by_cases isSaved : key row = key saved
  · by_cases alsoSaved : key other = key saved
    · rw [keyed.eq member isOther (isSaved.trans alsoSaved.symm)]
    · have written : column saved = column other := by
        simpa [isSaved, alsoSaved] using same
      exact absurd (free other isOther written.symm) alsoSaved
  · by_cases alsoSaved : key other = key saved
    · have written : column row = column saved := by
        simpa [isSaved, alsoSaved] using same
      exact absurd (free row member written) isSaved
    · simpa [isSaved, alsoSaved] using same

theorem Unique.map_of_inj {key : Row → Option Key} {change : Row → Row}
    (unique : Unique key rows)
    (injective : ∀ row ∈ rows, ∀ other ∈ rows, ∀ wanted,
      key (change row) = some wanted → key (change other) = some wanted →
        ∃ was, key row = some was ∧ key other = some was) :
    Unique key (rows.map change) := by
  have apart := List.pairwise_filterMap.mp unique
  rw [Unique, List.filterMap_map]
  apply List.pairwise_filterMap.mpr
  apply List.Pairwise.imp_of_mem _ apart
  intro row other isRow isOther different wanted isKey again isOtherKey same
  obtain ⟨was, isWas, isAgain⟩ := injective row isRow other isOther wanted
    isKey (same ▸ isOtherKey)
  exact different was isWas was isAgain rfl

/-- Unique columns survive an update that keeps them. -/
theorem Unique.updateWhere {key : Row → Option Key} {matched : Row → Bool}
    {change : Row → Row} (unique : Unique key rows)
    (kept : ∀ row, key (change row) = key row) :
    Unique key (Rows.updateWhere matched change rows) := by
  apply unique.map_of_inj
  intro row _ other _ wanted isKey isOtherKey
  have same (row : Row) :
      key (if matched row then change row else row) = key row := by
    split
    · exact kept row
    · rfl
  rw [same] at isKey isOtherKey
  exact ⟨wanted, isKey, isOtherKey⟩

/-- Fewer rows refer to less. -/
theorem Refers.of_sublist {column : Row → Option Key} {key : Target → Key}
    {targets : List Target} {kept : List Row}
    (refers : Refers column rows key targets) (fewer : kept.Sublist rows) :
    Refers column kept key targets :=
  fun row member => refers row (fewer.subset member)

/-- References survive a deletion that takes the referring rows along. -/
theorem Refers.deleteBoth {column : Row → Option Key} {key : Target → Key}
    {targets : List Target} {owned : Row → Bool} {ownedTarget : Target → Bool}
    (refers : Refers column rows key targets)
    (closed : ∀ row ∈ rows, ∀ target ∈ targets,
      column row = some (key target) → ownedTarget target → owned row) :
    Refers column (deleteWhere owned rows) key
      (deleteWhere ownedTarget targets) := by
  apply Refers.deleteTargets (refers.of_sublist List.filter_sublist)
  intro row member target isTarget names isOwned
  obtain ⟨isRow, kept⟩ := mem_deleteWhere.mp member
  exact kept (closed row isRow target isTarget names isOwned)

instance [DecidableEq Key] (key : Row → Key) :
    Decidable (Keyed key rows) :=
  inferInstanceAs (Decidable (rows.map key).Nodup)

instance [DecidableEq Key] (key : Row → Option Key) :
    Decidable (Unique key rows) :=
  inferInstanceAs (Decidable (rows.filterMap key).Nodup)

instance [DecidableEq Key] (column : Row → Option Key) (key : Target → Key)
    (targets : List Target) : Decidable (Refers column rows key targets) :=
  inferInstanceAs (Decidable (∀ row ∈ rows, ∀ wanted ∈ column row,
    ∃ target ∈ targets, key target = wanted))

end Constraints

end Rows
