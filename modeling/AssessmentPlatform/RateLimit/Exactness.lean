import AssessmentPlatform.RateLimit.Limiter
import Mathlib.Data.Finset.Card
import Mathlib.Order.Interval.Finset.Nat

/-!
# The shared rate limiter admits exactly as many as it may

The committed count of a window is the number of calls that it has admitted, and
it never exceeds the limit.  A call is refused only at the limit, provided that
no call reads a row that is below the limit right after its UPDATE has found
none.
-/

namespace AssessmentPlatform.RateLimit

open Interleaving RowTable

variable {calls : Nat → Option Check} {tid total : Nat} {op : Op}
variable {resp : Resp op} {before after table : Counters}
variable {key : CounterKey} {limit : Int} {granted : Nat → Bool}

/-! ## What a statement writes -/

/-- The writes that a statement may stage. -/
inductive CounterWrite (table : Counters) :
    Op → CounterKey → Option RateLimitCounter → Prop
  | purge {cutoff : Int} {key : CounterKey} {counter : RateLimitCounter}
      (found : table.row key = some (some counter))
      (old : counter.key.windowStart < cutoff) :
      CounterWrite table (.purge cutoff) key none
  | increment {key : CounterKey} {maxRequests : Int}
      {counter : RateLimitCounter}
      (found : table.row key = some (some counter))
      (below : counter.count < maxRequests) :
      CounterWrite table (.increment key maxRequests) key
        (some { counter with count := counter.count + 1 })
  | insert {key : CounterKey} (absent : table.live key = none) :
      CounterWrite table (.insertCounter key) key (some ⟨key, 1⟩)

theorem exec_counters
    (executes : exec op tid () before = some (resp, after)) :
    Acts tid (CounterWrite before op) (op = .commit) (op = .rollback)
      before after := by
  cases op with
  | purge cutoff =>
      simp only [exec, Option.map_eq_some_iff] at executes
      obtain ⟨purged, updated, equal⟩ := executes
      cases equal
      refine Acts.stageAll updated ?_
      intro key row found isOld
      obtain ⟨counter, rfl, old⟩ := (Option.any_eq_true _ _).mp isOld
      exact .purge found (of_decide_eq_true old)
  | increment key maxRequests =>
      rcases tryUpdate_cases executes with
        ⟨-, free, row, found, isBelow, rfl⟩ | ⟨-, rfl, -⟩
      · obtain ⟨counter, rfl, below⟩ := (Option.any_eq_true _ _).mp isBelow
        exact Acts.stage key _ free (.increment found (of_decide_eq_true below))
      · exact Acts.same
  | selectCount key =>
      cases executes
      exact Acts.same
  | insertCounter key =>
      simp only [exec, Counters.tryInsertCounter] at executes
      split at executes
      · cases executes
      · next free =>
          split at executes
          · cases executes
            exact Acts.same
          · next absent =>
              cases executes
              have isFree : before.staged key = none := by simpa using free
              have isAbsent : before.live key = none := by simpa using absent
              exact Acts.stage key _ isFree (.insert isAbsent)
  | commit =>
      cases executes
      exact Acts.commit rfl
  | rollback =>
      cases executes
      exact Acts.rollback rfl

/-! ## The invariant -/

/-- The hits that a row counts. -/
def hitsOf (row : Option (Option RateLimitCounter)) : Int :=
  (row.join.map RateLimitCounter.count).getD 0

/-- The committed hits of a window. -/
def Counters.hits (table : Counters) (key : CounterKey) : Int :=
  hitsOf (table.row key)

/-- A write on the window counts one hit more, within the limit. -/
def HitWrite
    (key : CounterKey) (limit : Int) (_ : Nat) (written : CounterKey)
    (row : Option (Option RateLimitCounter))
    (value : Option RateLimitCounter) : Prop :=
  written = key →
    ∃ counter, value = some counter ∧ counter.key = key ∧
      counter.count = hitsOf row + 1 ∧ counter.count ≤ limit

/-- The threads whose hit has been committed. -/
def grantedBelow (total : Nat) (granted : Nat → Bool) : Finset Nat :=
  (Finset.range total).filter fun tid => granted tid

/-- What holds of the table and of the hits committed so far. -/
structure LimitInv
    (key : CounterKey) (limit : Int) (total : Nat) (table : Counters)
    (granted : Nat → Bool) : Prop where
  listed : table.Listed
  keyed : ∀ counter, table.live key = some counter → counter.key = key
  writes : table.Staged (HitWrite key limit)
  counted : table.hits key = (grantedBelow total granted).card
  capped : table.hits key ≤ limit
  waiting :
    ∀ owner value, table.staged key = some (owner, value) →
      granted owner = false ∧ owner < total

/-- The hit of a COMMIT. -/
def recordGranted (key : CounterKey) :
    (op : Op) → Nat → Resp op → Counters → Counters → (Nat → Bool) →
      Nat → Bool
  | .commit, tid, _, before, _, granted =>
      if (before.staged key).any fun write => write.1 = tid then
        Function.update granted tid true
      else granted
  | _, _, _, _, _, granted => granted

/-- What the other threads may rely on. -/
structure LimitGuar
    (key : CounterKey) (limit : Int) (total : Nat) (tid : Nat)
    (before after : Counters × (Nat → Bool)) : Prop where
  inv : LimitInv key limit total after.1 after.2
  moves : RowTable.Moves tid before.1 after.1
  granted : ∀ other, other ≠ tid → after.2 other = before.2 other
  live : (before.1.live key).isSome → (after.1.live key).isSome
  hits : before.1.hits key ≤ after.1.hits key

/-- The contract of every thread: while it runs, its hit is not committed. -/
def limitContract (key : CounterKey) (limit : Int) (total : Nat) :
    Contract Nat (Counters × (Nat → Bool)) where
  inv := fun recorded => LimitInv key limit total recorded.1 recorded.2
  guar := LimitGuar key limit total
  running := fun tid recorded => recorded.2 tid = false
  guar_inv := fun _ guaranteed => guaranteed.inv

theorem hitsOf_some (counter : RateLimitCounter) :
    hitsOf (some (some counter)) = counter.count :=
  rfl

theorem live_eq_some_iff {counter : RateLimitCounter} :
    table.live key = some counter ↔ table.row key = some (some counter) :=
  Option.join_eq_some_iff

/-- One statement: it stages only hits on the window, and only for a thread
that has none yet. -/
structure Hits
    (key : CounterKey) (limit : Int) (total tid : Nat) (op : Op)
    (granted : Nat → Bool) : Prop where
  purges : ∀ cutoff, op = .purge cutoff → cutoff ≤ key.windowStart
  increments :
    ∀ written maxRequests, op = .increment written maxRequests →
      written = key →
        maxRequests = limit ∧ granted tid = false ∧ tid < total
  inserts :
    ∀ written, op = .insertCounter written → written = key →
      granted tid = false ∧ tid < total

theorem CounterWrite.hitWrite
    {written : CounterKey} {value : Option RateLimitCounter}
    (write : CounterWrite before op written value)
    (hits : Hits key limit total tid op granted) (positive : 0 < limit)
    (keyed : ∀ counter, before.live key = some counter → counter.key = key) :
    HitWrite key limit tid written (before.row written) value := by
  intro isKey
  subst isKey
  cases write with
  | purge found old =>
      have cutoff := hits.purges _ rfl
      rw [keyed _ (live_eq_some_iff.mpr found)] at old
      omega
  | @increment _ maxRequests counter found below =>
      obtain ⟨isLimit, -⟩ := hits.increments _ _ rfl rfl
      have isKeyed := keyed counter (live_eq_some_iff.mpr found)
      rw [found]
      exact
        ⟨_, rfl, isKeyed, rfl, isLimit ▸ Int.add_one_le_iff.mpr below⟩
  | insert absent =>
      have none : hitsOf (before.row written) = 0 := by
        unfold hitsOf
        rw [show (before.row written).join = none from absent]
        rfl
      have atLeast : (1 : Int) ≤ limit := positive
      exact ⟨_, rfl, rfl, by rw [none]; rfl, atLeast⟩

theorem CounterWrite.waiting
    {value : Option RateLimitCounter}
    (write : CounterWrite before op key value)
    (hits : Hits key limit total tid op granted)
    (keyed : ∀ counter, before.live key = some counter → counter.key = key) :
    granted tid = false ∧ tid < total := by
  cases write with
  | purge found old =>
      have cutoff := hits.purges _ rfl
      rw [keyed _ (live_eq_some_iff.mpr found)] at old
      omega
  | increment => exact (hits.increments _ _ rfl rfl).2
  | insert => exact hits.inserts _ rfl rfl

theorem grantedBelow_update
    (below : tid < total) (ungranted : granted tid = false) :
    (grantedBelow total (Function.update granted tid true)).card =
      (grantedBelow total granted).card + 1 := by
  have isInsert :
      grantedBelow total (Function.update granted tid true) =
        insert tid (grantedBelow total granted) := by
    ext other
    by_cases same : other = tid
    · subst same
      simp [grantedBelow, below]
    · simp [grantedBelow, same]
  rw [isInsert, Finset.card_insert_of_notMem]
  simp [grantedBelow, ungranted]

/-- COMMIT of a hit. -/
theorem LimitInv.guar_of_hit
    {value : Option RateLimitCounter}
    (inv : LimitInv key limit total before granted)
    (staged : before.staged key = some (tid, value)) :
    LimitGuar key limit total tid (before, granted)
      (RowTable.commit before tid, Function.update granted tid true) := by
  obtain ⟨ungranted, below⟩ := inv.waiting tid value staged
  obtain ⟨counter, rfl, isKeyed, isNext, within⟩ :=
    inv.writes key tid value staged rfl
  have committed :
      (RowTable.commit before tid).row key = some (some counter) :=
    row_commit_of_staged staged
  have hits :
      Counters.hits (RowTable.commit before tid) key = counter.count := by
    rw [Counters.hits, committed, hitsOf_some]
  have isLive :
      Counters.live (RowTable.commit before tid) key = some counter :=
    live_eq_some_iff.mpr committed
  have acts :
      Acts tid (CounterWrite before .commit) (Op.commit = .commit)
        (Op.commit = .rollback) before (RowTable.commit before tid) :=
    Acts.commit rfl
  refine ⟨⟨inv.listed.commit, ?_, ?_, ?_, ?_, ?_⟩, acts.moves, ?_, ?_, ?_⟩
  · intro other found
    have same : some other = some counter := found.symm.trans isLive
    cases same
    exact isKeyed
  · exact inv.writes.acts acts fun _ _ write => nomatch write
  · have counted := inv.counted
    have next : counter.count = before.hits key + 1 := isNext
    change Counters.hits (RowTable.commit before tid) key = _
    rw [hits, grantedBelow_update below ungranted]
    push_cast
    omega
  · change Counters.hits (RowTable.commit before tid) key ≤ limit
    rw [hits]
    exact within
  · intro owner other found
    obtain ⟨earlier, different⟩ := unlock_eq_some_iff.mp found
    rw [staged] at earlier
    cases earlier
    exact absurd rfl different
  · exact fun other different => Function.update_of_ne different _ _
  · intro _
    change (Counters.live (RowTable.commit before tid) key).isSome
    rw [isLive]
    rfl
  · have next : counter.count = before.hits key + 1 := isNext
    change before.hits key ≤ Counters.hits (RowTable.commit before tid) key
    omega

/-- Any other statement leaves the committed row of the window. -/
theorem LimitInv.guar_of_row_eq
    (inv : LimitInv key limit total before granted)
    (hits : Hits key limit total tid op granted) (positive : 0 < limit)
    (executes : exec op tid () before = some (resp, after))
    (same : after.row key = before.row key) :
    LimitGuar key limit total tid (before, granted) (after, granted) := by
  have acts := exec_counters executes
  have sameHits : after.hits key = before.hits key := congrArg hitsOf same
  have sameLive : after.live key = before.live key :=
    congrArg Option.join same
  refine
    ⟨⟨acts.listed inv.listed, ?_, ?_, ?_, ?_, ?_⟩, acts.moves,
      fun _ _ => rfl, ?_, sameHits.ge⟩
  · intro counter found
    exact inv.keyed counter (sameLive ▸ found)
  · exact inv.writes.acts acts fun _ _ write =>
      write.hitWrite hits positive inv.keyed
  · exact sameHits.trans inv.counted
  · exact sameHits.le.trans inv.capped
  · intro owner value found
    rcases acts.staged found with earlier | ⟨rfl, -, -, write⟩
    · exact inv.waiting owner value earlier
    · exact write.waiting hits inv.keyed
  · intro isLive
    change (after.live key).isSome
    rw [sameLive]
    exact isLive

/-- Every statement keeps the guarantee. -/
theorem LimitInv.guar
    (inv : LimitInv key limit total before granted)
    (hits : Hits key limit total tid op granted) (positive : 0 < limit)
    (executes : exec op tid () before = some (resp, after)) :
    LimitGuar key limit total tid (before, granted)
      (after, recordGranted key op tid resp before after granted) := by
  have acts := exec_counters executes
  by_cases committing : op = .commit
  · subst committing
    cases executes
    by_cases mine : (before.staged key).any fun write => write.1 = tid
    · obtain ⟨⟨owner, value⟩, staged, isTid⟩ := (Option.any_eq_true _ _).mp mine
      have isOwner : owner = tid := of_decide_eq_true isTid
      subst isOwner
      rw [recordGranted, if_pos mine]
      exact inv.guar_of_hit staged
    · have notStaged : ∀ value, before.staged key ≠ some (tid, value) := by
        intro value staged
        simp [staged] at mine
      rw [recordGranted, if_neg mine]
      exact
        inv.guar_of_row_eq hits positive
          rfl (row_commit_of_not_staged notStaged)
  · have same := congrFun (acts.row_of_not_commits committing) key
    have unrecorded :
        recordGranted key op tid resp before after granted = granted := by
      cases op with
      | commit => exact absurd rfl committing
      | _ => rfl
    rw [unrecorded]
    exact inv.guar_of_row_eq hits positive executes same

/-! ## Where a thread is -/

/-- The thread has no hit on the window, committed or staged. -/
structure Clean
    (key : CounterKey) (tid : Nat) (recorded : Counters × (Nat → Bool)) :
    Prop where
  ungranted : recorded.2 tid = false
  unstaged : ∀ value, recorded.1.staged key ≠ some (tid, value)

/-- The thread has staged its hit. -/
structure Holding
    (key : CounterKey) (tid : Nat) (recorded : Counters × (Nat → Bool)) :
    Prop where
  ungranted : recorded.2 tid = false
  staged : ∃ value, recorded.1.staged key = some (tid, value)

/-- The limit of the window is reached. -/
def Full
    (key : CounterKey) (limit : Int) (recorded : Counters × (Nat → Bool)) :
    Prop :=
  limit ≤ recorded.1.hits key

/-- The row of the window exists. -/
def Live (key : CounterKey) (recorded : Counters × (Nat → Bool)) : Prop :=
  (recorded.1.live key).isSome

theorem clean_stable :
    (limitContract key limit total).Stable tid (Clean key tid) := by
  intro before after other different _ guaranteed clean
  have isOther : tid ≠ other := Ne.symm different
  constructor
  · rw [guaranteed.granted tid isOther]
    exact clean.ungranted
  · intro value staged
    exact clean.unstaged value ((guaranteed.moves.others isOther).mp staged)

theorem holding_stable :
    (limitContract key limit total).Stable tid (Holding key tid) := by
  intro before after other different _ guaranteed holding
  have isOther : tid ≠ other := Ne.symm different
  obtain ⟨value, staged⟩ := holding.staged
  constructor
  · rw [guaranteed.granted tid isOther]
    exact holding.ungranted
  · exact ⟨value, (guaranteed.moves.others isOther).mpr staged⟩

theorem full_stable :
    (limitContract key limit total).Stable tid (Full key limit) :=
  fun _ _ _ _ _ guaranteed full => le_trans full guaranteed.hits

theorem live_stable :
    (limitContract key limit total).Stable tid (Live key) :=
  fun _ _ _ _ _ guaranteed isLive => guaranteed.live isLive

/-- A statement that stages no hit leaves a clean thread clean. -/
theorem Clean.exec
    (clean : Clean key tid (before, granted))
    (executes : exec op tid () before = some (resp, after))
    (none : ∀ value, ¬CounterWrite before op key value) :
    Clean key tid
      (after, recordGranted key op tid resp before after granted) := by
  constructor
  · cases op with
    | commit =>
        have notMine :
            ¬(before.staged key).any fun write => write.1 = tid := by
          intro mine
          obtain ⟨⟨owner, value⟩, staged, isTid⟩ :=
            (Option.any_eq_true _ _).mp mine
          have isOwner : owner = tid := of_decide_eq_true isTid
          exact clean.unstaged value (isOwner ▸ staged)
        rw [recordGranted, if_neg notMine]
        exact clean.ungranted
    | _ => exact clean.ungranted
  · intro value staged
    rcases (exec_counters executes).staged staged with
      earlier | ⟨-, -, -, write⟩
    · exact clean.unstaged value earlier
    · exact none value write

/-- The hits of the recorded system are those of the limiter. -/
theorem exec_of_recorded
    {recorded later : Counters × (Nat → Bool)}
    (executes :
      ((limiting calls).withHistory (recordGranted key)).exec op tid ()
        recorded = some (resp, later)) :
    exec op tid () recorded.1 = some (resp, later.1) ∧
      later.2 = recordGranted key op tid resp recorded.1 later.1 recorded.2 := by
  simp only [System.withHistory, Option.map_eq_some_iff] at executes
  obtain ⟨⟨answer, table⟩, executed, equal⟩ := executes
  cases equal
  exact ⟨executed, rfl⟩

/-! ## Programs -/

/-- A call reads a row right after its UPDATE has found none only if the row is
at the limit. -/
def seesLimit (calls : Nat → Option Check) : Nat → Op → Counters → Prop
  | tid, .selectCount key, table =>
      ∀ call counter, calls tid = some call → table.live key = some counter →
        call.maxRequests ≤ counter.count
  | _, _, _ => True

/-- The triples of the calls. -/
abbrev LimitTriple
    (calls : Nat → Option Check) (key : CounterKey) (limit : Int)
    (total tid : Nat) {α : Type} (pre : Counters × (Nat → Bool) → Prop)
    (program : Prog α) (post : α → Counters × (Nat → Bool) → Prop) : Prop :=
  Triple ((limiting calls).withHistory (recordGranted key))
    (System.ignoringHistory (seesLimit calls))
    (limitContract key limit total) tid pre program post

/-- Statements that leave the window alone. -/
structure Spares (key : CounterKey) (op : Op) : Prop where
  purges : ∀ cutoff, op = .purge cutoff → cutoff ≤ key.windowStart
  increments : ∀ maxRequests, op ≠ .increment key maxRequests
  inserts : op ≠ .insertCounter key

theorem Spares.hits (spares : Spares key op) :
    Hits key limit total tid op granted where
  purges := spares.purges
  increments := by
    intro written maxRequests isIncrement isKey
    subst isKey
    exact absurd isIncrement (spares.increments maxRequests)
  inserts := by
    intro written isInsert isKey
    subst isKey
    exact absurd isInsert spares.inserts

theorem Spares.not_write
    (spares : Spares key op)
    (keyed : ∀ counter, before.live key = some counter → counter.key = key)
    (value : Option RateLimitCounter) :
    ¬CounterWrite before op key value := by
  intro write
  cases write with
  | purge found old =>
      have cutoff := spares.purges _ rfl
      rw [keyed _ (live_eq_some_iff.mpr found)] at old
      omega
  | increment => exact spares.increments _ rfl
  | insert => exact spares.inserts rfl

section Programs

variable (positive : 0 < limit)

include positive

/-- A statement that spares the window, from a clean thread. -/
theorem spare_statement
    {α : Type} {next : Resp op → Prog α} {fact : Counters × (Nat → Bool) → Prop}
    {post : α → Counters × (Nat → Bool) → Prop} (spares : Spares key op)
    (stable : (limitContract key limit total).Stable tid fact)
    (keeps :
      ∀ before after : Counters × (Nat → Bool),
        LimitGuar key limit total tid before after →
          fact before → fact after)
    (rest :
      ∀ resp, LimitTriple calls key limit total tid
        (fun recorded => Clean key tid recorded ∧ fact recorded) (next resp)
        post) :
    LimitTriple calls key limit total tid
      (fun recorded => Clean key tid recorded ∧ fact recorded)
      (issue op >>= next) post := by
  refine Triple.statement
    (fun _ recorded => Clean key tid recorded ∧ fact recorded)
    (clean_stable.and stable) (fun _ _ holds => holds.1.ungranted) ?_ rest
  intro recorded input resp later inv holds _ executes
  obtain ⟨executed, isRecord⟩ := exec_of_recorded executes
  obtain ⟨table, granted⟩ := recorded
  obtain ⟨after, noted⟩ := later
  dsimp only at executed isRecord
  subst isRecord
  have guaranteed := inv.guar spares.hits positive executed
  exact
    ⟨guaranteed,
      holds.1.exec executed (spares.not_write inv.keyed),
      keeps _ _ guaranteed holds.2⟩

/-- A program that spares the window leaves its thread clean. -/
theorem spare_program
    {α : Type} {program : Prog α} (spares : program.All (Spares key)) :
    LimitTriple calls key limit total tid (Clean key tid) program
      (fun _ => Clean key tid) := by
  refine Triple.of_all clean_stable (fun _ _ clean => clean.ungranted) spares ?_
  intro op spare recorded input resp later inv clean _ executes
  obtain ⟨executed, isRecord⟩ := exec_of_recorded executes
  obtain ⟨table, granted⟩ := recorded
  obtain ⟨after, noted⟩ := later
  dsimp only at executed isRecord
  subst isRecord
  exact
    ⟨inv.guar spare.hits positive executed,
      clean.exec executed (spare.not_write inv.keyed)⟩

/-- The UPDATE of a call: it stages the hit, or leaves the thread clean; where
the row is known to exist it finds it at the limit. -/
theorem increment_statement
    {α : Type} {next : Bool → Prog α}
    {post : α → Counters × (Nat → Bool) → Prop}
    {known : Prop} (below : tid < total)
    (won :
      LimitTriple calls key limit total tid (Holding key tid) (next true) post)
    (lost :
      LimitTriple calls key limit total tid
        (fun recorded =>
          Clean key tid recorded ∧ (known → Full key limit recorded))
        (next false) post) :
    LimitTriple calls key limit total tid
      (fun recorded =>
        Clean key tid recorded ∧ (known → Live key recorded))
      (issue (.increment key limit) >>= next) post := by
  refine Triple.statement
    (fun allowed recorded =>
      if allowed then Holding key tid recorded
      else Clean key tid recorded ∧ (known → Full key limit recorded))
    (clean_stable.and live_stable.imp) (fun _ _ holds => holds.1.ungranted)
    ?_ ?_
  · intro recorded input allowed later inv holds _ executes
    obtain ⟨executed, isRecord⟩ := exec_of_recorded executes
    obtain ⟨table, granted⟩ := recorded
    obtain ⟨after, noted⟩ := later
    have same : granted = noted := isRecord.symm
    subst same
    obtain ⟨clean, isLive⟩ := holds
    have ungranted : granted tid = false := clean.ungranted
    have hits :
        Hits key limit total tid (.increment key limit) granted := by
      refine
        ⟨fun _ isPurge => (nomatch isPurge), ?_,
          fun _ isInsert => (nomatch isInsert)⟩
      intro written maxRequests isIncrement _
      cases isIncrement
      exact ⟨rfl, ungranted, below⟩
    refine ⟨inv.guar hits positive executed, ?_⟩
    rcases tryUpdate_cases executed with
      ⟨rfl, -, row, -, -, isAfter⟩ | ⟨rfl, isAfter, notBelow⟩
    · have isStage : after = RowTable.stage table tid key _ := isAfter
      subst isStage
      exact ⟨ungranted, _, Function.update_self _ _ _⟩
    · have same : after = table := isAfter
      subst same
      refine ⟨⟨ungranted, clean.unstaged⟩, fun isKnown => ?_⟩
      obtain ⟨counter, found⟩ :=
        Option.isSome_iff_exists.mp (isLive isKnown)
      have isRow := live_eq_some_iff.mp found
      have full := notBelow _ isRow
      have atLimit : limit ≤ counter.count := by simpa using full
      change limit ≤ hitsOf (after.row key)
      rw [isRow]
      exact atLimit
  · intro allowed
    cases allowed with
    | true => exact won
    | false => exact lost

/-- The SELECT of a call shows a row only if the limit is reached. -/
theorem select_statement
    {α : Type} {call : Check} {next : Option Int → Prog α}
    {post : α → Counters × (Nat → Bool) → Prop}
    (isCall : calls tid = some call) (isLimit : call.maxRequests = limit)
    (rest :
      ∀ atCap : Option Int, LimitTriple calls key limit total tid
        (fun recorded =>
          Clean key tid recorded ∧ (atCap.isSome → Full key limit recorded))
        (next atCap) post) :
    LimitTriple calls key limit total tid (Clean key tid)
      (issue (.selectCount key) >>= next) post := by
  refine Triple.statement
    (fun atCap recorded =>
      Clean key tid recorded ∧ (atCap.isSome → Full key limit recorded))
    clean_stable (fun _ _ clean => clean.ungranted) ?_ rest
  intro recorded input atCap later inv clean allowed executes
  obtain ⟨executed, isRecord⟩ := exec_of_recorded executes
  obtain ⟨table, granted⟩ := recorded
  obtain ⟨after, noted⟩ := later
  have same : granted = noted := isRecord.symm
  subst same
  have spares : Spares key (.selectCount key) :=
    ⟨fun _ isPurge => (nomatch isPurge),
      fun _ isIncrement => (nomatch isIncrement),
      fun isInsert => (nomatch isInsert)⟩
  have guaranteed := inv.guar spares.hits positive executed
  cases executed
  refine ⟨guaranteed, clean, fun isSome => ?_⟩
  have isLive : (table.live key).isSome := by simpa using isSome
  obtain ⟨counter, found⟩ := Option.isSome_iff_exists.mp isLive
  have atLimit := allowed call counter isCall found
  rw [isLimit] at atLimit
  change limit ≤ hitsOf (table.row key)
  rw [live_eq_some_iff.mp found]
  exact atLimit

/-- The INSERT of a call. -/
theorem insert_statement
    {α : Type} {next : Bool → Prog α}
    {post : α → Counters × (Nat → Bool) → Prop} (below : tid < total)
    (won :
      LimitTriple calls key limit total tid (Holding key tid) (next true) post)
    (lost :
      LimitTriple calls key limit total tid
        (fun recorded => Clean key tid recorded ∧ Live key recorded)
        (next false) post) :
    LimitTriple calls key limit total tid (Clean key tid)
      (issue (.insertCounter key) >>= next) post := by
  refine Triple.statement
    (fun inserted recorded =>
      if inserted then Holding key tid recorded
      else Clean key tid recorded ∧ Live key recorded)
    clean_stable (fun _ _ clean => clean.ungranted) ?_ ?_
  · intro recorded input inserted later inv clean _ executes
    obtain ⟨executed, isRecord⟩ := exec_of_recorded executes
    obtain ⟨table, granted⟩ := recorded
    obtain ⟨after, noted⟩ := later
    have same : granted = noted := isRecord.symm
    subst same
    have ungranted : granted tid = false := clean.ungranted
    have hits : Hits key limit total tid (.insertCounter key) granted :=
      ⟨fun _ isPurge => (nomatch isPurge),
        fun _ _ isIncrement => (nomatch isIncrement),
        fun _ _ _ => ⟨ungranted, below⟩⟩
    refine ⟨inv.guar hits positive executed, ?_⟩
    simp only [exec, Counters.tryInsertCounter] at executed
    split at executed
    · cases executed
    · split at executed
      · next isLive =>
          cases executed
          exact ⟨clean, isLive⟩
      · cases executed
        exact ⟨ungranted, _, Function.update_self _ _ _⟩
  · intro inserted
    cases inserted with
    | true => exact won
    | false => exact lost

omit positive in
theorem spares_commit : Spares key .commit :=
  ⟨fun _ isPurge => (nomatch isPurge),
    fun _ isIncrement => (nomatch isIncrement),
    fun isInsert => (nomatch isInsert)⟩

omit positive in
theorem spares_rollback : Spares key .rollback :=
  ⟨fun _ isPurge => (nomatch isPurge),
    fun _ isIncrement => (nomatch isIncrement),
    fun isInsert => (nomatch isInsert)⟩

/-- What a call on the window has established when it ends. -/
def Ended
    (key : CounterKey) (limit : Int) (tid : Nat) :
    Outcome → Counters × (Nat → Bool) → Prop
  | .admitted, recorded => recorded.2 tid = true
  | .refused, recorded => Clean key tid recorded ∧ Full key limit recorded

omit positive in
theorem granted_stable {value : Bool} :
    (limitContract key limit total).Stable tid
      fun recorded => recorded.2 tid = value := by
  intro before after other different _ guaranteed isValue
  rw [guaranteed.granted tid (Ne.symm different)]
  exact isValue

/-- COMMIT of a hit admits the call. -/
theorem commit_hit :
    LimitTriple calls key limit total tid (Holding key tid)
      (do
        issue .commit
        return .admitted)
      (Ended key limit tid) := by
  refine Triple.statement (fun _ recorded => recorded.2 tid = true)
    holding_stable (fun _ _ holding => holding.ungranted) ?_ ?_
  · intro recorded input resp later inv holding _ executes
    obtain ⟨executed, isRecord⟩ := exec_of_recorded executes
    obtain ⟨table, granted⟩ := recorded
    obtain ⟨after, noted⟩ := later
    obtain ⟨value, staged⟩ := holding.staged
    have guaranteed :=
      inv.guar (spares_commit.hits) positive executed
    dsimp only at executed isRecord
    subst isRecord
    have mine : (table.staged key).any fun write => write.1 = tid := by
      have isStaged : table.staged key = some (tid, value) := staged
      simp [isStaged]
    refine ⟨guaranteed, ?_⟩
    change recordGranted key .commit tid resp table after granted tid = true
    rw [recordGranted, if_pos mine]
    exact Function.update_self _ _ _
  · intro _
    exact Triple.ret granted_stable fun _ _ holds => holds

/-- A call that has seen the limit is refused. -/
theorem refuse_full :
    LimitTriple calls key limit total tid
      (fun recorded => Clean key tid recorded ∧ Full key limit recorded)
      (do
        issue .commit
        return .refused)
      (Ended key limit tid) := by
  refine spare_statement positive spares_commit full_stable
    (fun _ _ guaranteed full => le_trans full guaranteed.hits) fun _ => ?_
  exact
    Triple.ret (clean_stable.and full_stable) fun _ _ holds => holds

/-- `check`, on the window. -/
theorem check_triple
    {call : Check} (isCall : calls tid = some call) (isKey : call.key = key)
    (isLimit : call.maxRequests = limit) (below : tid < total)
    (inWindow : call.now - purgeGraceS ≤ key.windowStart) :
    LimitTriple calls key limit total tid (Clean key tid) (check call)
      (Ended key limit tid) := by
  have spares : Spares key (.purge (call.now - purgeGraceS)) := by
    refine ⟨?_, fun _ isIncrement => (nomatch isIncrement),
      fun isInsert => (nomatch isInsert)⟩
    intro cutoff isPurge
    cases isPurge
    exact inWindow
  have withNothing :
      ∀ recorded : Counters × (Nat → Bool),
        Clean key tid recorded →
          Clean key tid recorded ∧ (False → Live key recorded) :=
    fun _ clean => ⟨clean, fun impossible => impossible.elim⟩
  unfold check
  rw [isKey, isLimit, if_neg (not_le.mpr positive)]
  refine Triple.strengthen ?_ fun recorded _ clean =>
    withNothing recorded clean
  refine spare_statement positive spares live_stable.imp
    (fun _ _ guaranteed isLive given => guaranteed.live (isLive given))
    fun _ => ?_
  refine increment_statement positive below (commit_hit positive) ?_
  refine Triple.strengthen ?_ fun _ _ holds => holds.1
  refine select_statement positive isCall isLimit fun atCap => ?_
  cases atCap with
  | some count =>
      refine (refuse_full positive).strengthen ?_
      exact fun _ _ holds => ⟨holds.1, holds.2 rfl⟩
  | none =>
      refine Triple.strengthen ?_ fun _ _ holds => holds.1
      refine insert_statement positive below (commit_hit positive) ?_
      refine spare_statement positive spares_rollback live_stable
        (fun _ _ guaranteed isLive => guaranteed.live isLive) fun _ => ?_
      have known :
          ∀ recorded : Counters × (Nat → Bool),
            (Clean key tid recorded ∧ Live key recorded) →
              Clean key tid recorded ∧ (True → Live key recorded) :=
        fun _ holds => ⟨holds.1, fun _ => holds.2⟩
      refine Triple.strengthen ?_ fun recorded _ holds => known recorded holds
      refine increment_statement positive below (commit_hit positive) ?_
      exact
        (refuse_full positive).strengthen fun _ _ holds =>
          ⟨holds.1, holds.2 trivial⟩

end Programs

/-! ## Every run -/

/-- The call counts on the window. -/
def callsOn (calls : Nat → Option Check) (key : CounterKey) (tid : Nat) :
    Bool :=
  (calls tid).any fun call => call.key = key

/-- What a thread has established when it ends. -/
def EndedCall
    (calls : Nat → Option Check) (key : CounterKey) (limit : Int)
    (tid : Nat) : Option Outcome → Counters × (Nat → Bool) → Prop
  | some outcome, recorded =>
      if callsOn calls key tid then Ended key limit tid outcome recorded
      else Clean key tid recorded
  | none, recorded => Clean key tid recorded ∧ calls tid = none

theorem check_spares
    {call : Check} (other : call.key ≠ key)
    (inWindow : call.now - purgeGraceS ≤ key.windowStart) :
    (check call).All (Spares key) := by
  have purge : Spares key (.purge (call.now - purgeGraceS)) := by
    refine ⟨?_, fun _ isIncrement => (nomatch isIncrement),
      fun isInsert => (nomatch isInsert)⟩
    intro cutoff isPurge
    cases isPurge
    exact inWindow
  have increment : Spares key (.increment call.key call.maxRequests) := by
    refine ⟨fun _ isPurge => (nomatch isPurge), ?_,
      fun isInsert => (nomatch isInsert)⟩
    intro maxRequests isIncrement
    cases isIncrement
    exact other rfl
  have select : Spares key (.selectCount call.key) :=
    ⟨fun _ isPurge => (nomatch isPurge),
      fun _ isIncrement => (nomatch isIncrement),
      fun isInsert => (nomatch isInsert)⟩
  have insert : Spares key (.insertCounter call.key) := by
    refine ⟨fun _ isPurge => (nomatch isPurge),
      fun _ isIncrement => (nomatch isIncrement), ?_⟩
    intro isInsert
    cases isInsert
    exact other rfl
  have ends :
      ∀ outcome : Outcome,
        (issue .commit >>= fun _ => pure outcome : Prog Outcome).All
          (Spares key) :=
    fun outcome =>
      Program.All.statement spares_commit fun _ => Program.All.pure _ _
  unfold check
  split
  · exact Program.All.pure _ _
  refine Program.All.statement purge fun _ => ?_
  refine Program.All.statement increment fun allowed => ?_
  split
  · refine Program.All.statement select fun atCap => ?_
    split
    · exact ends .refused
    · refine Program.All.statement insert fun inserted => ?_
      split
      · refine Program.All.statement spares_rollback fun _ => ?_
        refine Program.All.statement increment fun allowed => ?_
        split
        · exact ends .refused
        · exact ends .admitted
      · exact ends .admitted
  · exact ends .admitted

section Runs

variable {initial : Counters} {span : Int}
variable {config : Config Nat Op Resp (Option Outcome) Counters}

/-- The calls of a run: at most `total` of them, those on the window under one
limit, and all of them with clocks within the window. -/
structure Workload
    (calls : Nat → Option Check) (key : CounterKey) (limit span : Int)
    (total : Nat) : Prop where
  positive : 0 < limit
  finite : ∀ tid, total ≤ tid → calls tid = none
  oneLimit :
    ∀ tid call, calls tid = some call → call.key = key →
      call.maxRequests = limit
  short : span ≤ purgeGraceS
  clocks :
    ∀ tid call, calls tid = some call →
      key.windowStart ≤ call.now ∧ call.now < key.windowStart + span

theorem program_triple (workload : Workload calls key limit span total) :
    LimitTriple calls key limit total tid (Clean key tid)
      ((limiting calls).program tid) (EndedCall calls key limit tid) := by
  have below : ∀ call, calls tid = some call → tid < total := by
    intro call isCall
    by_contra large
    rw [workload.finite tid (Nat.le_of_not_lt large)] at isCall
    cases isCall
  cases isCall : calls tid with
  | none =>
      have idle : (limiting calls).program tid = pure none := by
        simp [isCall]
      rw [idle]
      exact
        Triple.ret clean_stable fun _ _ clean => ⟨clean, isCall⟩
  | some call =>
      have runs :
          (limiting calls).program tid =
            check call >>= fun outcome => pure (some outcome) := by
        simp [isCall]
      have inWindow : call.now - purgeGraceS ≤ key.windowStart := by
        have clock := (workload.clocks tid call isCall).2
        have short := workload.short
        omega
      rw [runs]
      by_cases isKey : call.key = key
      · have isOn : callsOn calls key tid = true := by
          simp [callsOn, isCall, isKey]
        refine Triple.bind
          (check_triple workload.positive isCall isKey
            (workload.oneLimit tid call isCall isKey) (below call isCall)
            inWindow) fun outcome => ?_
        have stable :
            (limitContract key limit total).Stable tid
              (Ended key limit tid outcome) := by
          cases outcome with
          | admitted => exact granted_stable
          | refused => exact clean_stable.and full_stable
        refine Triple.ret stable fun recorded _ ended => ?_
        rw [EndedCall, if_pos isOn]
        exact ended
      · have isOff : callsOn calls key tid = false := by
          simp [callsOn, isCall, isKey]
        refine Triple.bind
          (spare_program workload.positive (check_spares isKey inWindow))
          fun outcome => ?_
        refine Triple.ret clean_stable fun recorded _ clean => ?_
        rw [EndedCall, isOff]
        exact clean

/-- The calls on the window. -/
def callers (calls : Nat → Option Check) (key : CounterKey) (total : Nat) :
    Finset Nat :=
  (Finset.range total).filter fun tid => callsOn calls key tid

/-- The calls on the window that have been admitted. -/
def admitted
    (calls : Nat → Option Check) (key : CounterKey) (total : Nat)
    (config : Config Nat Op Resp (Option Outcome) Counters) : Finset Nat :=
  (callers calls key total).filter fun tid =>
    config.result tid = some (some .admitted)

/-- Before the first statement. -/
theorem LimitInv.of_unused
    (positive : 0 < limit) (listed : initial.Listed)
    (unlocked : ∀ other, initial.staged other = none)
    (unused : initial.live key = none) :
    LimitInv key limit total initial fun _ => false := by
  have nothing : initial.hits key = 0 := by
    unfold Counters.hits hitsOf
    rw [show (initial.row key).join = none from unused]
    rfl
  refine ⟨listed, ?_, ?_, ?_, ?_, ?_⟩
  · intro counter found
    rw [unused] at found
    cases found
  · intro written owner value staged
    rw [unlocked] at staged
    cases staged
  · rw [nothing]
    simp [grantedBelow]
  · rw [nothing]
    exact positive.le
  · intro owner value staged
    rw [unlocked] at staged
    cases staged

/-- The calls whose hit is committed are those that have been admitted. -/
theorem admitted_eq_granted
    {history : Nat → Bool}
    (holds :
      (limitContract key limit total).Holds
        ((limiting calls).withHistory (recordGranted key))
        (System.ignoringHistory (seesLimit calls))
        (EndedCall calls key limit) (System.recorded config history)) :
    admitted calls key total config = grantedBelow total history := by
  have ended :
      ∀ {tid value}, config.Returned tid value →
        EndedCall calls key limit tid value (config.store, history) :=
    fun returned => holds.post_of_returned returned
  ext tid
  simp only [admitted, callers, grantedBelow, Finset.mem_filter,
    Finset.mem_range, Config.result_eq_some_iff]
  constructor
  · intro isAdmitted
    obtain ⟨⟨below, isOn⟩, returned⟩ := isAdmitted
    have here := ended returned
    rw [EndedCall, if_pos isOn] at here
    exact ⟨below, here⟩
  · intro isGranted
    obtain ⟨below, isGranted⟩ := isGranted
    have finished : config.Finished tid := by
      by_contra unfinished
      have ungranted : history tid = false :=
        holds.running_of_unfinished unfinished
      rw [ungranted] at isGranted
      cases isGranted
    obtain ⟨value, returned⟩ := finished
    have notClean : ¬Clean key tid (config.store, history) := by
      intro clean
      have ungranted : history tid = false := clean.ungranted
      rw [ungranted] at isGranted
      cases isGranted
    have here := ended returned
    cases value with
    | none => exact absurd here.1 notClean
    | some outcome =>
        by_cases isOn : callsOn calls key tid
        · rw [EndedCall, if_pos isOn] at here
          cases outcome with
          | admitted => exact ⟨⟨below, isOn⟩, returned⟩
          | refused => exact absurd here.1 notClean
        · rw [EndedCall, if_neg isOn] at here
          exact absurd here notClean

/-- The limiter is exact in every run in which no call reads a row below the
limit right after its UPDATE has found none: no more calls are admitted than
may be, a refused call shows that the limit is reached, at the end as many are
admitted as may be, and the row of the window stays. -/
theorem limiter_exact
    (workload : Workload calls key limit span total)
    (listed : initial.Listed)
    (unlocked : ∀ other, initial.staged other = none)
    (unused : initial.live key = none)
    (reached :
      (limiting calls).Reaches (seesLimit calls)
        ((limiting calls).start initial) config) :
    ((admitted calls key total config).card : Int) ≤ limit ∧
      (∀ tid, callsOn calls key tid →
        config.Returned tid (some .refused) →
          ((admitted calls key total config).card : Int) = limit) ∧
      (config.Quiescent →
        ((admitted calls key total config).card : Int) =
          min ((callers calls key total).card : Int) limit) ∧
      ∀ tid after,
        (limiting calls).Step (seesLimit calls) tid config after →
          (config.store.live key).isSome → (after.store.live key).isSome := by
  obtain ⟨history, reachedRecorded⟩ :=
    reached.withHistory (recordGranted key) fun _ => false
  have holdsStart :
      (limitContract key limit total).Holds
        ((limiting calls).withHistory (recordGranted key))
        (System.ignoringHistory (seesLimit calls))
        (EndedCall calls key limit)
        (((limiting calls).withHistory (recordGranted key)).start
          (initial, fun _ => false)) := by
    refine Contract.holds_start
      (LimitInv.of_unused workload.positive listed unlocked unused) ?_
      fun tid => program_triple workload
    intro tid
    refine ⟨rfl, fun value staged => ?_⟩
    rw [unlocked] at staged
    cases staged
  have holds := holdsStart.reaches reachedRecorded
  have inv : LimitInv key limit total config.store history := holds.1
  have same := admitted_eq_granted holds
  have isHits :
      ((admitted calls key total config).card : Int) =
        config.store.hits key := by
    rw [same, inv.counted]
  have atLimit :
      ∀ tid, callsOn calls key tid → config.Returned tid (some .refused) →
        ((admitted calls key total config).card : Int) = limit := by
    intro tid isOn returned
    have ended := holds.post_of_returned returned
    rw [EndedCall, if_pos isOn] at ended
    have full : limit ≤ config.store.hits key := ended.2
    have capped := inv.capped
    omega
  refine ⟨isHits ▸ inv.capped, atLimit, ?_, ?_⟩
  · intro quiescent
    have subset :
        admitted calls key total config ⊆ callers calls key total :=
      Finset.filter_subset _ _
    have atMost : ((admitted calls key total config).card : Int) ≤ limit :=
      isHits ▸ inv.capped
    by_cases someRefused :
        ∃ tid, callsOn calls key tid ∧ config.Returned tid (some .refused)
    · obtain ⟨tid, isOn, returned⟩ := someRefused
      have isLimit := atLimit tid isOn returned
      have fewer := Finset.card_le_card subset
      omega
    · have everybody :
          admitted calls key total config = callers calls key total := by
        refine Finset.Subset.antisymm subset fun tid isCaller => ?_
        have isOn : callsOn calls key tid :=
          (Finset.mem_filter.mp isCaller).2
        obtain ⟨value, returned⟩ := quiescent tid
        refine
          Finset.mem_filter.mpr
            ⟨isCaller, Config.result_eq_some_iff.mpr ?_⟩
        have ended := holds.post_of_returned returned
        cases value with
        | none =>
            have idle : calls tid = none := ended.2
            simp [callsOn, idle] at isOn
        | some outcome =>
            cases outcome with
            | admitted => exact returned
            | refused => exact absurd ⟨tid, isOn, returned⟩ someRefused
      rw [everybody] at atMost ⊢
      omega
  · intro tid after step
    obtain ⟨later, recordedStep⟩ := step.withHistory (recordGranted key) history
    exact (holds.step recordedStep).1.live

end Runs

/-! ## The first hits of a window -/

/-- Calls of one client on one bucket, all at the same moment. -/
def firstHits (count : Nat) (tid : Nat) : Option Check :=
  if tid < count then some ⟨"login", "10.0.0.1", 2, 60, 600⟩ else none

/-- The window of these calls. -/
def firstWindow : CounterKey :=
  ⟨"login", "10.0.0.1", 600⟩

theorem workload_firstHits (count : Nat) :
    Workload (firstHits count) firstWindow 2 60 count where
  positive := by decide
  finite := fun tid large => if_neg (Nat.not_lt.mpr large)
  oneLimit := by
    intro tid call isCall _
    unfold firstHits at isCall
    split at isCall
    · cases isCall
      rfl
    · cases isCall
  short := by decide
  clocks := by
    intro tid call isCall
    unfold firstHits at isCall
    split at isCall
    · cases isCall
      decide
    · cases isCall

theorem callsOn_firstHits {count : Nat} (below : tid < count) :
    callsOn (firstHits count) firstWindow tid := by
  rw [callsOn, firstHits, if_pos below]
  decide

/-- Whether a SELECT shows a row at the limit, or none. -/
def permitsSelect (calls : Nat → Option Check) : Nat → Op → Counters → Bool
  | tid, .selectCount key, table =>
      (calls tid).all fun call => (table.live key).all fun counter =>
        call.maxRequests ≤ counter.count
  | _, _, _ => true

theorem seesLimit_of_permits
    (permitted : permitsSelect calls tid op table) :
    seesLimit calls tid op table := by
  cases op with
  | selectCount key =>
      intro call counter isCall isLive
      simpa [permitsSelect, isCall, isLive] using permitted
  | _ => trivial

/-- Two calls race to insert the row of the window and are both admitted, and
the third one is refused. -/
theorem limiter_exact_for_racing_inserts :
    ∃ config : Config Nat Op Resp (Option Outcome) Counters,
      config.Returned 2 (some .refused) ∧
        ((admitted (firstHits 3) firstWindow 3 config).card : Int) = 2 := by
  have ran :
      ((limiting (firstHits 3)).runSchedule (permitsSelect (firstHits 3))
        ((limiting (firstHits 3)).start .empty)
        (([0, 0, 1, 1, 0, 1, 1, 1, 0, 0, 0, 0, 2, 2, 2, 2] : List Nat).map
          fun tid => (tid, ()))).any
        fun config => config.result 2 = some (some .refused) := by
    decide +kernel
  obtain ⟨config, reached, seen⟩ :=
    System.exists_of_runSchedule
      (fun _ _ _ permitted => seesLimit_of_permits permitted) ran
  have refused : config.Returned 2 (some .refused) :=
    Config.result_eq_some_iff.mp (of_decide_eq_true seen)
  have exactness :=
    limiter_exact (workload_firstHits 3) Listed.empty (fun _ => rfl) rfl
      reached
  exact ⟨config, refused, exactness.2.1 2 (callsOn_firstHits (by decide)) refused⟩

/-- The row appears between a call's UPDATE and its SELECT: the call is refused
although only one call of two has been admitted. -/
theorem refused_below_limit :
    ∃ config : Config Nat Op Resp (Option Outcome) Counters,
      (limiting (firstHits 2)).Reaches System.anyRun
          ((limiting (firstHits 2)).start .empty) config ∧
        config.Quiescent ∧ config.Returned 0 (some .refused) ∧
        ((admitted (firstHits 2) firstWindow 2 config).card : Int) = 1 ∧
        min ((callers (firstHits 2) firstWindow 2).card : Int) 2 = 2 := by
  have ran :
      ((limiting (firstHits 2)).runSchedule (fun _ _ _ => true)
        ((limiting (firstHits 2)).start .empty)
        (([0, 0, 1, 1, 1, 1, 1, 0, 0] : List Nat).map
          fun tid => (tid, ()))).any
        fun config =>
          config.result 0 = some (some .refused) &&
            (List.range 2).all config.returned &&
            (admitted (firstHits 2) firstWindow 2 config).card = 1 := by
    decide +kernel
  obtain ⟨config, reached, seen⟩ :=
    System.exists_of_runSchedule (fun _ _ _ _ => trivial) ran
  simp only [Bool.and_eq_true, decide_eq_true_eq] at seen
  obtain ⟨⟨refused, finished⟩, one⟩ := seen
  have quiescent : config.Quiescent := by
    refine reached.quiescent finished fun tid large => ⟨none, ?_⟩
    have idle : firstHits 2 tid = none := if_neg (Nat.not_lt.mpr large)
    simp [System.start, Config.Returned, idle, Program.pure_eq]
  refine
    ⟨config, reached, quiescent, Config.result_eq_some_iff.mp refused, ?_, ?_⟩
  · rw [one]
    rfl
  · decide +kernel

end AssessmentPlatform.RateLimit
