import AssessmentPlatform.Models
import Mathlib.Algebra.BigOperators.Group.List.Basic
import Mathlib.Algebra.Order.BigOperators.Group.List
import Mathlib.Algebra.Order.Ring.Int
import Mathlib.Tactic.SplitIfs

/-!
# The risk score of a sitting

`integrity.risk_score` over the events of a sitting: points for every kind of
signal up to a cap of its own, the reasons that carry them, and their capped
sum.
-/

namespace AssessmentPlatform.Integrity

/-! ## Signals -/

/-- A label and its points. -/
abbrev Reason := String × Nat

/-- `_s` -/
def plural (n : Nat) : String :=
  if n = 1 then "" else "s"

/-- The signals that are counted, by the events that they consist of. -/
def isBlockedPaste (event : IntegrityEvent) : Bool :=
  event.kind == "paste_external" && event.blocked

/-- An event of one kind. -/
def isKind (kind : String) (event : IntegrityEvent) : Bool :=
  event.kind == kind

/-- The milliseconds away from the tab. -/
def awayMs (events : List IntegrityEvent) : Int :=
  ((events.filter (isKind "focus_loss")).map
    fun event => event.durationMs.getD 0).sum

/-- The reason of a signal that was counted: so many points each, up to a
cap. -/
def countedReason (points cap count : Nat) (label : String) : List Reason :=
  if count = 0 then [] else [(label, min (count * points) cap)]

/-- The reason of the time away, where the larger tier replaces the smaller. -/
def awayReason (ms : Int) : List Reason :=
  if 300000 ≤ ms then [(s!"{ms / 60000} min away from the tab", 20)]
  else if 120000 ≤ ms then [(s!"{ms / 60000} min away from the tab", 10)]
  else []

section Score

variable (events : List IntegrityEvent)

/-- The reasons in the order in which they are found. -/
def foundReasons : List Reason :=
  let pastes := events.countP isBlockedPaste
  let devtools := events.countP (isKind "devtools")
  let fsExits := events.countP (isKind "fullscreen_exit")
  let focus := events.countP (isKind "focus_loss")
  let ending := if focus ≠ 1 then "es" else ""
  countedReason 30 60 pastes
      s!"{pastes} outside paste{plural pastes} blocked" ++
    countedReason 15 30 devtools
      s!"devtools opened {devtools} time{plural devtools}" ++
    countedReason 8 24 fsExits
      s!"left fullscreen {fsExits} time{plural fsExits}" ++
    countedReason 4 20 focus
      s!"{focus} focus loss{ending}" ++
    awayReason (awayMs events)

/-- `risk_score`: the score, and its reasons with the largest first. -/
def riskScore : Nat × List Reason :=
  let reasons := (foundReasons events).mergeSort
    fun first second => second.2 ≤ first.2
  (min (reasons.map Prod.snd).sum 100, reasons)

end Score

/-- `RiskLevel` -/
inductive RiskLevel where
  | none
  | low
  | elevated
  | high
  deriving DecidableEq, Repr

/-- `risk_level` -/
def riskLevel (score : Nat) : RiskLevel :=
  if 50 ≤ score then .high
  else if 20 ≤ score then .elevated
  else if 0 < score then .low
  else .none

/-! ## Points -/

/-- The points of the time away. -/
def awayPoints (ms : Int) : Nat :=
  if 300000 ≤ ms then 20 else if 120000 ≤ ms then 10 else 0

/-- The points of all signals. -/
def totalPoints (events : List IntegrityEvent) : Nat :=
  min (events.countP isBlockedPaste * 30) 60 +
    min (events.countP (isKind "devtools") * 15) 30 +
    min (events.countP (isKind "fullscreen_exit") * 8) 24 +
    min (events.countP (isKind "focus_loss") * 4) 20 +
    awayPoints (awayMs events)

theorem sum_countedReason (points cap count : Nat) (label : String) :
    ((countedReason points cap count label).map Prod.snd).sum =
      min (count * points) cap := by
  unfold countedReason
  by_cases none : count = 0
  · simp [none]
  · simp [none]

theorem sum_awayReason (ms : Int) :
    ((awayReason ms).map Prod.snd).sum = awayPoints ms := by
  unfold awayReason awayPoints
  split
  · rfl
  · split <;> rfl

variable {events other : List IntegrityEvent}

theorem sum_foundReasons :
    ((foundReasons events).map Prod.snd).sum = totalPoints events := by
  simp only [foundReasons, totalPoints, List.map_append, List.sum_append,
    sum_countedReason, sum_awayReason]

/-- The score is the capped sum of the points of all signals. -/
theorem riskScore_eq : (riskScore events).1 = min (totalPoints events) 100 := by
  have sorted := List.mergeSort_perm (foundReasons events)
    fun first second => second.2 ≤ first.2
  have sameSum := (sorted.map Prod.snd).sum_eq
  rw [sum_foundReasons] at sameSum
  exact congrArg (min · 100) sameSum

/-! ## Laws -/

theorem totalPoints_perm (perm : events.Perm other) :
    totalPoints other = totalPoints events := by
  have away : awayMs other = awayMs events :=
    (((perm.filter _).map _).sum_eq).symm
  simp only [totalPoints, perm.countP_eq, away]

theorem awayPoints_mono {ms more : Int} (le : ms ≤ more) :
    awayPoints ms ≤ awayPoints more := by
  unfold awayPoints
  split_ifs <;> omega

/-- Another event adds no negative time away. -/
theorem awayMs_cons_le {event : IntegrityEvent}
    (nonneg : ∀ ms ∈ event.durationMs, 0 ≤ ms) :
    awayMs events ≤ awayMs (event :: events) := by
  unfold awayMs
  rw [List.filter_cons]
  split
  · have isNonneg : 0 ≤ event.durationMs.getD 0 := by
      cases duration : event.durationMs with
      | none => exact le_rfl
      | some ms => exact nonneg ms duration
    simpa using isNonneg
  · exact le_rfl

theorem totalPoints_cons_le {event : IntegrityEvent}
    (nonneg : ∀ ms ∈ event.durationMs, 0 ≤ ms) :
    totalPoints events ≤ totalPoints (event :: events) := by
  have counts (matched : IntegrityEvent → Bool) :
      events.countP matched ≤ (event :: events).countP matched :=
    (List.sublist_cons_self event events).countP_le
  have pastes := counts isBlockedPaste
  have devtools := counts (isKind "devtools")
  have fsExits := counts (isKind "fullscreen_exit")
  have focus := counts (isKind "focus_loss")
  have away : awayPoints (awayMs events) ≤
      awayPoints (awayMs (event :: events)) :=
    awayPoints_mono (awayMs_cons_le nonneg)
  unfold totalPoints
  omega

theorem awayPoints_le (ms : Int) : awayPoints ms ≤ 20 := by
  unfold awayPoints
  split
  · exact le_rfl
  · split <;> omega

/-- Events of one kind are not counted for another. -/
theorem countP_of_kind {kind : String} {matched : IntegrityEvent → Bool}
    (alone : ∀ event ∈ events, event.kind = kind)
    (apart : ∀ event, event.kind = kind → matched event = false) :
    events.countP matched = 0 := by
  rw [List.countP_eq_zero]
  intro event member isMatched
  rw [apart event (alone event member)] at isMatched
  cases isMatched

theorem awayMs_of_kind {kind : String}
    (alone : ∀ event ∈ events, event.kind = kind)
    (apart : kind ≠ "focus_loss") : awayMs events = 0 := by
  have none : events.filter (isKind "focus_loss") = [] := by
    rw [List.filter_eq_nil_iff]
    intro event member isFocus
    have isKind : event.kind = "focus_loss" := beq_iff_eq.mp isFocus
    exact apart ((alone event member).symm.trans isKind)
  rw [awayMs, none]
  rfl

/-- Signals of one kind other than outside pastes stay below the high level. -/
theorem totalPoints_of_kind {kind : String} (ambient : kind ≠ "paste_external")
    (alone : ∀ event ∈ events, event.kind = kind) :
    totalPoints events < 50 := by
  have noPastes : events.countP isBlockedPaste = 0 := by
    apply countP_of_kind alone
    intro event isOf
    simp [isBlockedPaste, isOf, ambient]
  have others (wanted : String) (apart : kind ≠ wanted) :
      events.countP (isKind wanted) = 0 := by
    apply countP_of_kind alone
    intro event isOf
    simp [isKind, isOf, apart]
  unfold totalPoints
  rw [noPastes]
  by_cases isFocus : kind = "focus_loss"
  · subst isFocus
    have away := awayPoints_le (awayMs events)
    rw [others "devtools" (by decide), others "fullscreen_exit" (by decide)]
    omega
  · rw [others "focus_loss" isFocus, awayMs_of_kind alone isFocus]
    have none : awayPoints 0 = 0 := rfl
    by_cases isDevtools : kind = "devtools"
    · subst isDevtools
      rw [others "fullscreen_exit" (by decide)]
      omega
    · rw [others "devtools" isDevtools]
      omega

/-- Reasons are sorted with the largest first. -/
theorem sorted_reasons (reasons : List Reason) :
    (reasons.mergeSort fun first second => second.2 ≤ first.2).Pairwise
      fun earlier later => later.2 ≤ earlier.2 := by
  have transitive : ∀ first second third : Reason,
      decide (second.2 ≤ first.2) = true →
      decide (third.2 ≤ second.2) = true →
      decide (third.2 ≤ first.2) = true := by
    intro first second third early late
    exact decide_eq_true
      (le_trans (of_decide_eq_true late) (of_decide_eq_true early))
  have total : ∀ first second : Reason,
      (decide (second.2 ≤ first.2) || decide (first.2 ≤ second.2)) = true := by
    intro first second
    rcases le_total second.2 first.2 with le | le <;> simp [le]
  have sorted := List.pairwise_mergeSort transitive total reasons
  exact sorted.imp of_decide_eq_true

/-- The laws of the score: it lies between 0 and 100, events may come in any
order, one more never lowers it, it is the capped sum of the points of its
reasons, these come in descending order, and one kind of signal alone, unless it
is outside pastes, never makes it high. -/
theorem risk_score_laws (events : List IntegrityEvent) :
    (0 ≤ (riskScore events).1 ∧ (riskScore events).1 ≤ 100) ∧
    (∀ other, events.Perm other →
      (riskScore other).1 = (riskScore events).1) ∧
    (∀ event more, (∀ ms ∈ event.durationMs, 0 ≤ ms) →
      more.Perm (event :: events) →
      (riskScore events).1 ≤ (riskScore more).1) ∧
    (riskScore events).1 =
      min ((riskScore events).2.map Prod.snd).sum 100 ∧
    (riskScore events).2.Pairwise
      (fun earlier later => later.2 ≤ earlier.2) ∧
    ∀ kind, kind ≠ "paste_external" →
      (∀ event ∈ events, event.kind = kind) →
      riskLevel (riskScore events).1 ≠ .high := by
  refine ⟨⟨Nat.zero_le _, min_le_right _ _⟩, ?_, ?_, rfl, ?_, ?_⟩
  · intro other perm
    rw [riskScore_eq, riskScore_eq, totalPoints_perm perm]
  · intro event more isNonneg perm
    have grows : totalPoints events ≤ totalPoints (event :: events) :=
      totalPoints_cons_le isNonneg
    rw [riskScore_eq, riskScore_eq, ← totalPoints_perm perm]
    exact min_le_min_right 100 grows
  · exact sorted_reasons (foundReasons events)
  · intro kind ambient alone isHigh
    have below := totalPoints_of_kind ambient alone
    rw [riskScore_eq] at isHigh
    unfold riskLevel at isHigh
    rw [if_neg (by omega)] at isHigh
    split at isHigh
    · cases isHigh
    · split at isHigh <;> cases isHigh

/-- An event of a kind, with a duration. -/
def sampleEvent (kind : String) (durationMs : Option Int) : IntegrityEvent where
  id := 1
  inviteId := 1
  candidateEmail := "ada@acme.io"
  questionId := none
  kind := kind
  offsetMs := 0
  durationMs := durationMs
  size := none
  blocked := true

/-- Six long focus losses make two reasons and no high risk. -/
def sampleLosses : List IntegrityEvent :=
  List.replicate 6 (sampleEvent "focus_loss" (some 60000))

theorem risk_score_laws_losses :
    (riskScore sampleLosses).1 ≤
        (riskScore (sampleEvent "devtools" none :: sampleLosses)).1 ∧
      riskLevel (riskScore sampleLosses).1 ≠ .high := by
  obtain ⟨-, -, grows, -, -, ambient⟩ := risk_score_laws sampleLosses
  constructor
  · exact grows (sampleEvent "devtools" none) _ nofun (.refl _)
  · exact ambient "focus_loss" (by decide) (by decide)

end AssessmentPlatform.Integrity
