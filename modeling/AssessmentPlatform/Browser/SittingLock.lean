import Mathlib.Logic.Function.Basic

/-!
# One sitting, one tab

`sittingLock.ts` in two tabs of one browser.  A tab claims the sitting by a
read, a write and a second read of `localStorage`, and nothing holds these
together: the other tab can get in between.
-/

namespace AssessmentPlatform.SittingLock

/-! ## Claims -/

/-- `Claim` -/
structure Claim where
  tab : String
  at' : Int
  deriving DecidableEq, Repr

/-- `STALE_MS` -/
def staleMs : Int := 7000

/-- `isStale` -/
def isStale (claim : Claim) (now : Int) : Bool :=
  staleMs < now - claim.at' || now < claim.at'

/-- The two tabs. -/
inductive Tab where
  | first
  | second
  deriving DecidableEq, Repr

/-- The tab next to a tab. -/
def Tab.other : Tab → Tab
  | .first => .second
  | .second => .first

/-- What the tabs call themselves. -/
structure Names where
  text : Tab → String
  distinct : text .first ≠ text .second

/-! ## Tabs -/

/-- Where a tab stands between two accesses to the storage. -/
inductive Phase where
  | idle
  /-- `claim()` has asked for the time. -/
  | called (now : Int)
  /-- It has read the storage, and may claim. -/
  | passed (now : Int)
  /-- It has written its claim. -/
  | written
  /-- `release()` has found the claim of its own tab. -/
  | releasing
  deriving DecidableEq, Repr

/-- One tab. -/
structure View where
  phase : Phase
  /-- The tab holds the sitting: its most recent `claim()` returned `true`, and
  it has not released since. -/
  won : Bool
  deriving DecidableEq, Repr

/-- The storage by what `read` makes of it, the clock in milliseconds, and the
tabs. -/
structure State where
  storage : Option Claim
  clock : Int
  tabs : Tab → View

/-- A tab goes on. -/
def State.settle (state : State) (tab : Tab) (phase : Phase) (won : Bool) :
    State :=
  { state with tabs := Function.update state.tabs tab ⟨phase, won⟩ }

/-- The first test of `claim`: a claim of another tab that is not stale. -/
def blocked (name : String) (now : Int) (existing : Option Claim) : Bool :=
  existing.any fun claim => claim.tab != name && !isStale claim now

/-- The second test of `claim`, on what it reads after its own write. -/
def owns (name : String) (settled : Option Claim) : Bool :=
  settled.all fun claim => claim.tab == name

section Steps

variable (names : Names)

/-- The next step of a tab: of `claim`, which the effect and its timer call, or
the removal at the end of `release`. -/
def act (state : State) (tab : Tab) : State :=
  let view := state.tabs tab
  match view.phase with
  | .idle => state.settle tab (.called state.clock) view.won
  | .called now =>
      if blocked (names.text tab) now state.storage then
        state.settle tab .idle false
      else state.settle tab (.passed now) view.won
  | .passed now =>
      { state.settle tab .written view.won with
        storage := some ⟨names.text tab, now⟩ }
  | .written =>
      state.settle tab .idle (owns (names.text tab) state.storage)
  | .releasing => { state.settle tab .idle false with storage := none }

/-- `release` up to its removal.  No event is handled within a `claim`. -/
def leave (state : State) (tab : Tab) : State :=
  let view := state.tabs tab
  match view.phase with
  | .idle =>
      if state.storage.any fun claim => claim.tab == names.text tab then
        state.settle tab .releasing view.won
      else state.settle tab .idle false
  | _ => state

/-- What happens next. -/
inductive Event where
  | acts (tab : Tab)
  | leaves (tab : Tab)
  | passes (ms : Nat)
  deriving DecidableEq, Repr

/-- One step of the browser. -/
def step (state : State) : Event → State
  | .acts tab => act names state tab
  | .leaves tab => leave names state tab
  | .passes ms => { state with clock := state.clock + ms }

/-- A run. -/
def run (state : State) (events : List Event) : State :=
  events.foldl (step names) state

/-- Two tabs that have just been opened, on whatever is stored. -/
def opened (storage : Option Claim) (clock : Int) : State :=
  ⟨storage, clock, fun _ => ⟨.idle, false⟩⟩

/-- Something happens at no step of a run. -/
def never (happens : State → Event → Bool) : State → List Event → Bool
  | _, [] => true
  | state, event :: rest =>
      !happens state event && never happens (step names state event) rest

end Steps

/-- In both tabs the most recent `claim()` has returned `true`, and neither tab
has released since. -/
def HeldByBoth (state : State) : Prop :=
  (state.tabs .first).won = true ∧ (state.tabs .second).won = true

instance (state : State) : Decidable (HeldByBoth state) :=
  inferInstanceAs (Decidable (_ ∧ _))

/-- A tab is about to write its claim. -/
def Phase.writes : Phase → Bool
  | .passed _ => true
  | _ => false

/-- A tab writes its claim while the other one holds the sitting. -/
def overwrites (state : State) : Event → Bool
  | .acts tab =>
      (state.tabs tab).phase.writes && (state.tabs tab.other).won
  | _ => false

/-- A tab that wants to claim finds a claim gone stale. -/
def findsStale (state : State) : Event → Bool
  | .acts tab =>
      match (state.tabs tab).phase with
      | .called now => state.storage.any fun claim => isStale claim now
      | _ => false
  | _ => false

/-! ## What a tab can rely on -/

variable {names : Names} {state : State} {tab : Tab}

@[simp] theorem Tab.other_other (tab : Tab) : tab.other.other = tab := by
  cases tab <;> rfl

theorem Tab.other_ne (tab : Tab) : tab.other ≠ tab := by
  cases tab <;> decide

theorem Tab.forall_iff (tab : Tab) {holds : Tab → Prop} :
    (∀ every, holds every) ↔ holds tab ∧ holds tab.other := by
  constructor
  · intro all
    exact ⟨all tab, all tab.other⟩
  · rintro ⟨own, others⟩ every
    cases tab <;> cases every <;> assumption

theorem Names.other_ne (names : Names) (tab : Tab) :
    names.text tab ≠ names.text tab.other := by
  cases tab with
  | first => exact names.distinct
  | second => exact names.distinct.symm

section Settle

variable (phase : Phase) (won : Bool)

@[simp] theorem settle_storage :
    (state.settle tab phase won).storage = state.storage := rfl

@[simp] theorem settle_own :
    (state.settle tab phase won).tabs tab = ⟨phase, won⟩ := by
  simp [State.settle]

@[simp] theorem settle_other :
    (state.settle tab phase won).tabs tab.other = state.tabs tab.other := by
  simp [State.settle, tab.other_ne]

end Settle

/-- What a tab can rely on against the other one, as long as no claim is written
over the other's. -/
structure Faces (names : Names) (state : State) (tab : Tab) : Prop where
  /-- The other tab does not hold the sitting as well. -/
  alone : (state.tabs tab).won = true → (state.tabs tab.other).won = false
  /-- The other tab has not claimed it since. -/
  kept : (state.tabs tab).won = true →
    ∀ claim ∈ state.storage, claim.tab ≠ names.text tab.other
  /-- Where the other tab holds the sitting, the read after a write shows it. -/
  shown : (state.tabs tab).phase = .written →
    (state.tabs tab.other).won = true →
      ∃ claim ∈ state.storage, claim.tab = names.text tab.other
  /-- Of two claims the later one is stored. -/
  stored : (state.tabs tab).phase = .written →
    (state.tabs tab.other).phase = .written → state.storage ≠ none

/-- Both tabs can rely on it. -/
def Orderly (names : Names) (state : State) : Prop :=
  ∀ tab, Faces names state tab

theorem orderly_iff (tab : Tab) :
    Orderly names state ↔
      Faces names state tab ∧ Faces names state tab.other :=
  tab.forall_iff

theorem orderly_opened (storage : Option Claim) (clock : Int) :
    Orderly names (opened storage clock) := by
  intro tab
  constructor <;> simp [opened]

/-- A tab that gives up, or that goes on without writing, disturbs nothing. -/
theorem Orderly.settle (orderly : Orderly names state) {phase : Phase}
    {won : Bool} (quiet : phase ≠ .written)
    (noGain : won = true → (state.tabs tab).won = true) :
    Orderly names (state.settle tab phase won) := by
  rw [orderly_iff tab]
  have own := orderly tab
  have others := orderly tab.other
  constructor
  · constructor
    · simpa using fun isWon => own.alone (noGain isWon)
    · simpa using fun isWon => own.kept (noGain isWon)
    · simp [quiet]
    · simp [quiet]
  · constructor
    · have alone := others.alone
      rw [Tab.other_other] at alone
      simp only [settle_other, Tab.other_other, settle_own]
      intro isWon
      have notOwn := alone isWon
      by_contra gained
      rw [Bool.not_eq_false] at gained
      rw [noGain gained] at notOwn
      cases notOwn
    · simpa using others.kept
    · have shown := others.shown
      rw [Tab.other_other] at shown
      simp only [settle_other, Tab.other_other, settle_own, settle_storage]
      exact fun isWritten isWon => shown isWritten (noGain isWon)
    · simp [quiet]

/-- The write of a claim, while the other tab does not hold the sitting. -/
theorem orderly_write {now : Int}
    (free : (state.tabs tab.other).won = false) :
    Orderly names { state.settle tab .written (state.tabs tab).won with
      storage := some ⟨names.text tab, now⟩ } := by
  rw [orderly_iff tab]
  constructor
  · constructor
    · simp [free]
    · simp [names.other_ne tab]
    · simp [free]
    · simp
  · constructor
    · simp [free]
    · simp [free]
    · simp
    · simp

/-- The read after a write decides for one tab at most. -/
theorem Orderly.readBack (orderly : Orderly names state)
    (isWritten : (state.tabs tab).phase = .written) :
    Orderly names
      (state.settle tab .idle (owns (names.text tab) state.storage)) := by
  have own := orderly tab
  have others := orderly tab.other
  have notBoth : owns (names.text tab) state.storage = true →
      (state.tabs tab.other).won = false := by
    intro isOwn
    by_contra isWon
    rw [Bool.not_eq_false] at isWon
    obtain ⟨claim, isStored, isOther⟩ := own.shown isWritten isWon
    rw [isStored, owns, Option.all_some, beq_iff_eq] at isOwn
    exact names.other_ne tab (isOwn.symm.trans isOther)
  rw [orderly_iff tab]
  constructor
  · constructor
    · simpa using notBoth
    · simp only [settle_own, settle_storage]
      intro isOwn claim isStored
      rw [isStored, owns, Option.all_some, beq_iff_eq] at isOwn
      rw [isOwn]
      exact names.other_ne tab
    · simp
    · simp
  · constructor
    · simp only [settle_other, Tab.other_other, settle_own]
      intro isWon
      by_contra isOwn
      rw [Bool.not_eq_false] at isOwn
      rw [notBoth isOwn] at isWon
      cases isWon
    · simpa using others.kept
    · simp only [settle_other, Tab.other_other, settle_own, settle_storage]
      intro otherWritten isOwn
      cases isStored : state.storage with
      | none =>
          exact absurd isStored (own.stored isWritten otherWritten)
      | some claim =>
          rw [isStored, owns, Option.all_some, beq_iff_eq] at isOwn
          exact ⟨claim, rfl, isOwn⟩
    · simp

/-- A tab removes its claim, and no longer holds the sitting. -/
theorem orderly_remove :
    Orderly names
      { state.settle tab .idle false with storage := none } := by
  rw [orderly_iff tab]
  constructor
  · constructor <;> simp
  · constructor <;> simp

/-- A step that overwrites no claim of a holder keeps the tabs in order. -/
theorem Orderly.step (orderly : Orderly names state) {event : Event}
    (fair : overwrites state event = false) :
    Orderly names (step names state event) := by
  cases event with
  | acts tab =>
      simp only [SittingLock.step, act]
      cases isPhase : (state.tabs tab).phase with
      | idle => exact orderly.settle nofun id
      | called now =>
          dsimp only
          split
          · exact orderly.settle nofun nofun
          · exact orderly.settle nofun id
      | passed now =>
          have free : (state.tabs tab.other).won = false := by
            simpa [overwrites, isPhase, Phase.writes] using fair
          exact orderly_write free
      | written => exact orderly.readBack isPhase
      | releasing => exact orderly_remove
  | leaves tab =>
      simp only [SittingLock.step, leave]
      split
      · split
        · exact orderly.settle nofun id
        · exact orderly.settle nofun nofun
      · exact orderly
  | passes ms =>
      intro tab
      exact ⟨(orderly tab).alone, (orderly tab).kept, (orderly tab).shown,
        (orderly tab).stored⟩

theorem Orderly.run (orderly : Orderly names state) {events : List Event}
    (fair : never names overwrites state events = true) :
    Orderly names (run names state events) := by
  induction events generalizing state with
  | nil => exact orderly
  | cons event rest inductionHypothesis =>
      rw [never, Bool.and_eq_true, Bool.not_eq_true'] at fair
      exact inductionHypothesis (orderly.step fair.1) fair.2

theorem Orderly.not_heldByBoth (orderly : Orderly names state) :
    ¬HeldByBoth state := by
  rintro ⟨isFirst, isSecond⟩
  have alone := (orderly .first).alone isFirst
  exact absurd isSecond (Bool.eq_false_iff.mp alone)

/-! ## The lock -/

/-- A claim that is written over the other tab's makes both hold the sitting as
soon as it is read back. -/
theorem heldByBoth_of_overwrites
    (wins : overwrites state (.acts tab) = true) :
    HeldByBoth (run names state [.acts tab, .acts tab]) := by
  rw [overwrites, Bool.and_eq_true] at wins
  obtain ⟨writes, isWon⟩ := wins
  cases isPhase : (state.tabs tab).phase with
  | passed now =>
      have wrote : act names state tab =
          { state.settle tab .written (state.tabs tab).won with
            storage := some ⟨names.text tab, now⟩ } := by
        simp [act, isPhase]
      have ends : ∀ every,
          ((run names state [.acts tab, .acts tab]).tabs every).won = true := by
        rw [tab.forall_iff]
        simp only [run, List.foldl_cons, List.foldl_nil, step, wrote]
        constructor
        · simp [act, owns]
        · simp [act, isWon]
      exact ⟨ends .first, ends .second⟩
  | _ => simp [isPhase, Phase.writes] at writes

/-- The lock is exclusive in every run in which no tab writes its claim while
the other one holds the sitting; and wherever a tab does, both hold it once that
tab has read its claim back. -/
theorem sitting_exclusive (names : Names) (storage : Option Claim)
    (clock : Int) (events : List Event) :
    (never names overwrites (opened storage clock) events = true →
      ¬HeldByBoth (run names (opened storage clock) events)) ∧
    ∀ tab,
      overwrites (run names (opened storage clock) events) (.acts tab) = true →
        HeldByBoth (run names (opened storage clock)
          (events ++ [.acts tab, .acts tab])) := by
  constructor
  · intro fair
    exact ((orderly_opened storage clock).run fair).not_heldByBoth
  · intro tab wins
    rw [run, List.foldl_append]
    exact heldByBoth_of_overwrites wins

/-- Two tabs. -/
def sampleNames : Names := ⟨fun
  | .first => "a"
  | .second => "b", by decide⟩

/-- The first tab claims the sitting and releases it, and the second one, which
was refused before, claims it after that. -/
theorem sitting_exclusive_handed_over :
    ¬HeldByBoth (run sampleNames (opened none 0)
      ([.acts .first, .acts .first, .acts .first, .acts .first,
        .passes 1000, .acts .second, .acts .second,
        .leaves .first, .acts .first,
        .acts .second, .acts .second, .acts .second, .acts .second])) :=
  (sitting_exclusive sampleNames none 0 _).1 (by decide)

/-- Both tabs read the storage before either writes: the second one writes after
the first has read its claim back, and both hold the sitting, though the clock
stands still and no claim goes stale. -/
theorem sitting_held_twice :
    let events : List Event :=
      [.acts .first, .acts .first, .acts .second, .acts .second,
        .acts .first, .acts .first, .acts .second, .acts .second]
    never sampleNames findsStale (opened none 0) events = true ∧
      HeldByBoth (run sampleNames (opened none 0) events) := by
  decide

end AssessmentPlatform.SittingLock
