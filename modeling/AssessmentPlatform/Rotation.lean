import Mathlib.Data.Int.CardIntervalMod

/-!
# Rotation

Items handed out in turn, over and over.  However many are handed out, no item
is more than one ahead of another.
-/

namespace Rotation

variable {Item : Type} {items : List Item} {start count turn : Nat}

/-- The item of a turn. -/
def itemAt (items : List Item) (turn : Nat) : Option Item :=
  items[turn % items.length]?

/-- What `count` turns from turn `start` on hand out. -/
def deal (items : List Item) (start count : Nat) : List Item :=
  (List.range' start count).filterMap (itemAt items)

/-- No item has been handed out more than once more often than another. -/
def Balanced [DecidableEq Item] (items dealt : List Item) : Prop :=
  ∀ first ∈ items, ∀ second ∈ items,
    dealt.count first ≤ dealt.count second + 1

@[simp] theorem deal_zero : deal items start 0 = [] :=
  rfl

theorem deal_add (first second : Nat) :
    deal items start (first + second) =
      deal items start first ++ deal items (start + first) second := by
  unfold deal
  rw [← List.filterMap_append, List.range'_append_1]

theorem deal_succ {item : Item}
    (isItem : itemAt items (start + count) = some item) :
    deal items start (count + 1) = deal items start count ++ [item] := by
  rw [deal_add]
  simp [deal, isItem]

/-- Only the place in the round matters. -/
theorem deal_congr {other : Nat} (same : start ≡ other [MOD items.length]) :
    deal items start count = deal items other count := by
  induction count with
  | zero => rfl
  | succ count inductionHypothesis =>
      rw [deal_add, deal_add, inductionHypothesis]
      have turn : itemAt items (start + count) =
          itemAt items (other + count) := by
        unfold itemAt
        rw [show (start + count) % items.length =
          (other + count) % items.length from same.add_right count]
      simp only [deal, List.range'_one, List.filterMap_cons, turn]

theorem mem_of_mem_deal {item : Item} (dealt : item ∈ deal items start count) :
    item ∈ items := by
  obtain ⟨turn, -, isItem⟩ := List.mem_filterMap.mp dealt
  exact List.mem_of_getElem? isItem

/-- How often an item has been handed out: as often as its turn has come. -/
theorem count_deal [DecidableEq Item] (distinct : items.Nodup) {place : Nat}
    (inRange : place < items.length) :
    (deal items 0 count).count items[place] =
      Nat.count (· ≡ place [MOD items.length]) count := by
  induction count with
  | zero => rfl
  | succ count inductionHypothesis =>
      have positive : 0 < items.length := Nat.zero_lt_of_lt inRange
      have isTurn := Nat.mod_lt count positive
      have isItem : itemAt items (0 + count) =
          some items[count % items.length] := by
        rw [Nat.zero_add]
        exact List.getElem?_eq_getElem isTurn
      rw [deal_succ isItem, List.count_append, inductionHypothesis,
        Nat.count_succ, List.count_singleton]
      have same : items[count % items.length] = items[place] ↔
          count ≡ place [MOD items.length] := by
        rw [distinct.getElem_inj_iff, Nat.ModEq, Nat.mod_eq_of_lt inRange]
      by_cases here : count ≡ place [MOD items.length]
      · simp [here, same.mpr here]
      · simp [here, mt same.mp here]

theorem balanced_deal [DecidableEq Item] (distinct : items.Nodup) :
    Balanced items (deal items 0 count) := by
  intro first isFirst second isSecond
  obtain ⟨place, inRange, rfl⟩ := List.getElem_of_mem isFirst
  obtain ⟨other, otherInRange, rfl⟩ := List.getElem_of_mem isSecond
  have positive : 0 < items.length := Nat.zero_lt_of_lt inRange
  rw [count_deal distinct inRange, count_deal distinct otherInRange,
    Nat.count_modEq_card _ positive, Nat.count_modEq_card _ positive]
  split <;> split <;> omega

end Rotation
