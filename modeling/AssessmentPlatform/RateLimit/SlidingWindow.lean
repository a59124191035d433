import AssessmentPlatform.Refusals
import Mathlib.Algebra.Order.Ring.Int
import Mathlib.Data.List.AList
import Mathlib.Data.List.Infix

/-!
# The rate limiter in memory

`RateLimiter` keeps the recent hits of every key and forgets the others when it
likes.  Over it stands a limiter that forgets nothing, whose decisions are those
of the source.  Times are from any ordered group.
-/

namespace AssessmentPlatform.RateLimit

/-! ## A limiter that forgets nothing -/

section Remembering

variable {Key Instant : Type} [DecidableEq Key]

/-- A check of a key, and whether it was admitted. -/
structure Checked (Key Instant : Type) where
  key : Key
  now : Instant
  admitted : Bool
  deriving DecidableEq, Repr

/-- The times at which the checks of a key were admitted. -/
def admittedTimes (history : List (Checked Key Instant)) (key : Key) :
    List Instant :=
  (history.filter fun check => check.key == key && check.admitted).map
    Checked.now

@[simp] theorem admittedTimes_append
    {history more : List (Checked Key Instant)} {key : Key} :
    admittedTimes (history ++ more) key =
      admittedTimes history key ++ admittedTimes more key := by
  simp [admittedTimes]

theorem admittedTimes_refused {key other : Key} {now : Instant} :
    admittedTimes [(⟨other, now, false⟩ : Checked Key Instant)] key = [] := by
  simp [admittedTimes]

theorem admittedTimes_admitted {key : Key} {now : Instant} :
    admittedTimes [(⟨key, now, true⟩ : Checked Key Instant)] key = [now] := by
  simp [admittedTimes]

theorem admittedTimes_other {key other : Key} {now : Instant} {admitted : Bool}
    (differs : other ≠ key) :
    admittedTimes [(⟨other, now, admitted⟩ : Checked Key Instant)] key =
      [] := by
  simp [admittedTimes, differs]

variable [AddCommGroup Instant] [LinearOrder Instant]
variable {window : Instant} {limit : Nat}

/-- The admitted checks of a key after the instant that is `window` ago. -/
def recent (window : Instant) (history : List (Checked Key Instant))
    (key : Key) (now : Instant) : List Instant :=
  (admittedTimes history key).filter fun time => now - window < time

theorem recent_append_refused {history : List (Checked Key Instant)}
    {key other : Key} {now later : Instant} :
    recent window (history ++ [⟨other, now, false⟩]) key later =
      recent window history key later := by
  simp [recent, admittedTimes_refused]

theorem recent_append_admitted {history : List (Checked Key Instant)}
    {key : Key} {now later : Instant} :
    recent window (history ++ [⟨key, now, true⟩]) key later =
      recent window history key later ++
        [now].filter fun time => later - window < time := by
  simp [recent, admittedTimes_admitted]

theorem recent_append_other {history : List (Checked Key Instant)}
    {key other : Key} {now later : Instant}
    {admitted : Bool} (differs : key ≠ other) :
    recent window (history ++ [⟨other, now, admitted⟩]) key later =
      recent window history key later := by
  simp [recent, admittedTimes_other differs.symm]

/-- A check is admitted if and only if fewer than `limit` checks of its key have
been admitted within the window that it ends. -/
inductive Remembering (window : Instant) (limit : Nat) :
    List (Checked Key Instant) → Prop
  | nil : Remembering window limit []
  | check {history : List (Checked Key Instant)} (key : Key) (now : Instant) :
      Remembering window limit history →
        Remembering window limit
          (history ++
            [⟨key, now, (recent window history key now).length < limit⟩])

/-- What a history of checks determines. -/
theorem Remembering.unique {history other : List (Checked Key Instant)}
    (remembers : Remembering window limit history)
    (otherRemembers : Remembering window limit other)
    (same : history.map (fun check => (check.key, check.now)) =
      other.map fun check => (check.key, check.now)) :
    history = other := by
  induction remembers generalizing other with
  | nil => exact (List.map_eq_nil_iff.mp same.symm).symm
  | @check history key now remembers inductionHypothesis =>
      cases otherRemembers with
      | nil => simp at same
      | @check other otherKey otherNow otherRemembers =>
          simp only [List.map_append, List.map_cons, List.map_nil] at same
          obtain ⟨earlier, last⟩ := List.append_inj' same rfl
          obtain ⟨rfl, rfl⟩ : key = otherKey ∧ now = otherNow := by
            simpa using last
          rw [inductionHypothesis otherRemembers earlier]

/-- Each check was decided by the checks before it. -/
theorem Remembering.decided {before after : List (Checked Key Instant)}
    {check : Checked Key Instant}
    (remembers : Remembering window limit (before ++ check :: after)) :
    check.admitted =
      decide ((recent window before check.key check.now).length < limit) := by
  generalize whole : before ++ check :: after = history at remembers
  induction remembers generalizing after with
  | nil => simp at whole
  | @check history key now remembers inductionHypothesis =>
      cases after using List.reverseRecOn with
      | nil =>
          obtain ⟨rfl, last⟩ := List.append_inj' whole rfl
          rw [List.singleton_inj.mp last]
      | append_singleton after last _ =>
          rw [← List.cons_append, ← List.append_assoc] at whole
          exact inductionHypothesis (List.append_inj' whole rfl).1

variable [IsOrderedAddMonoid Instant]

/-- Times that are all less than a window apart: no more than `limit` checks of
a key are admitted at them. -/
theorem Remembering.countP_le {history : List (Checked Key Instant)}
    (remembers : Remembering window limit history) (key : Key)
    (inside : Instant → Bool)
    (close : ∀ earlier later, inside earlier → inside later →
      later - earlier < window) :
    (admittedTimes history key).countP inside ≤ limit := by
  induction remembers with
  | nil => exact Nat.zero_le _
  | @check history other now remembers inductionHypothesis =>
      by_cases isKey : other = key
      · subst isKey
        by_cases admitted :
            (recent window history other now).length < limit
        · simp only [admitted, decide_true, admittedTimes_append,
            admittedTimes_admitted, List.countP_append]
          by_cases within : inside now
          · -- all that the window of `now` misses is outside
            have counted : (admittedTimes history other).countP inside ≤
                (recent window history other now).length := by
              unfold recent
              rw [← List.countP_eq_length_filter]
              apply List.countP_mono_left
              intro time _ isInside
              have apart := close time now isInside within
              simpa using sub_lt_comm.mp apart
            simp only [List.countP_cons, List.countP_nil, within, if_pos]
            omega
          · simpa [within] using inductionHypothesis
        · simpa [admitted, admittedTimes_refused] using inductionHypothesis
      · simpa [admittedTimes_other isKey] using inductionHypothesis

end Remembering

/-! ## The limiter of the source -/

section Limiter

variable {Instant : Type} [LinearOrder Instant]

/-- `_MAX_TRACKED_KEYS` -/
def maxTrackedKeys : Nat := 10000

/-- A bucket and a client. -/
abbrev HitKey : Type := String × String

/-- `_hits` -/
abbrev HitTable (Instant : Type) : Type := AList fun _ : HitKey => List Instant

/-- `_purge_expired` -/
def purgeExpired (cutoff : Instant) (hits : HitTable Instant) :
    HitTable Instant where
  entries := hits.entries.filter fun entry =>
    entry.2.any fun hit => cutoff < hit
  nodupKeys := hits.nodupKeys.sublist List.filter_sublist

theorem lookup_purgeExpired {cutoff : Instant} {hits : HitTable Instant}
    {key : HitKey} :
    (purgeExpired cutoff hits).lookup key =
      (hits.lookup key).filter fun times =>
        times.any fun hit => cutoff < hit := by
  apply Option.ext
  intro times
  rw [← Option.mem_def, AList.mem_lookup_iff, purgeExpired, List.mem_filter,
    ← AList.mem_lookup_iff, Option.mem_def, Option.filter_eq_some_iff]

/-- The 429 of the limiters. -/
def tooManyRequests : HTTPException where
  statusCode := 429
  detail := "too many requests; slow down and retry shortly."

variable [AddCommGroup Instant]

/-- `RateLimiter.check`, which purges once more than `tracked` keys are
remembered; the source has `maxTrackedKeys` there. -/
def checkHits (tracked : Nat) (bucket client : String) (maxRequests : Int)
    (window now : Instant) (hits : HitTable Instant) :
    Except HTTPException Unit × HitTable Instant :=
  if maxRequests ≤ 0 then (.ok (), hits)
  else
    let cutoff := now - window
    let key := (bucket, client)
    let hits :=
      if hits.entries.length > tracked then purgeExpired cutoff hits else hits
    let live := ((hits.lookup key).getD []).filter fun hit => cutoff < hit
    if live.length ≥ maxRequests then (.error tooManyRequests, hits)
    else (.ok (), hits.insert key (live ++ [now]))

/-- What happens to a limiter: a call of `check`, or a purge of its own. -/
inductive LimiterEvent (Instant : Type) where
  | check (bucket client : String) (now : Instant)
  | purge (now : Instant)
  deriving DecidableEq, Repr

/-- The instant of an event. -/
def LimiterEvent.time : LimiterEvent Instant → Instant
  | .check _ _ now | .purge now => now

/-- The key and the instant of a check. -/
def LimiterEvent.call? : LimiterEvent Instant → Option (HitKey × Instant)
  | .check bucket client now => some ((bucket, client), now)
  | .purge _ => none

/-- The limiter, with all checks so far. -/
structure Limiting (Instant : Type) where
  hits : HitTable Instant := ∅
  history : List (Checked HitKey Instant) := []

/-- One event, under a common limit and window. -/
def Limiting.step (tracked : Nat) (maxRequests : Int) (window : Instant)
    (state : Limiting Instant) : LimiterEvent Instant → Limiting Instant
  | .check bucket client now =>
      let outcome :=
        checkHits tracked bucket client maxRequests window now state.hits
      { hits := outcome.2
        history :=
          state.history ++ [⟨(bucket, client), now, outcome.1.isOk⟩] }
  | .purge now =>
      { state with hits := purgeExpired (now - window) state.hits }

/-- A run from a new limiter. -/
def runLimiter (tracked : Nat) (maxRequests : Int) (window : Instant)
    (events : List (LimiterEvent Instant)) : Limiting Instant :=
  events.foldl (Limiting.step tracked maxRequests window) {}

theorem runLimiter_append {tracked : Nat} {maxRequests : Int} {window : Instant}
    {events : List (LimiterEvent Instant)} {event : LimiterEvent Instant} :
    runLimiter tracked maxRequests window (events ++ [event]) =
      (runLimiter tracked maxRequests window events).step tracked maxRequests
        window event :=
  List.foldl_append

/-- The history lists the checks of the run. -/
theorem calls_runLimiter (tracked : Nat) (maxRequests : Int) (window : Instant)
    (events : List (LimiterEvent Instant)) :
    ((runLimiter tracked maxRequests window events).history.map fun check =>
        (check.key, check.now)) =
      events.filterMap LimiterEvent.call? := by
  induction events using List.reverseRecOn with
  | nil => rfl
  | append_singleton events event inductionHypothesis =>
      rw [runLimiter_append, List.filterMap_append, ← inductionHypothesis]
      cases event with
      | check bucket client now => simp [Limiting.step, LimiterEvent.call?]
      | purge now => simp [Limiting.step, LimiterEvent.call?]

end Limiter

/-! ## It remembers enough -/

section Refinement

variable {Instant : Type} [AddCommGroup Instant] [LinearOrder Instant]
variable {tracked : Nat} {maxRequests : Int} {window now later : Instant}
variable {hits : HitTable Instant} {key other : HitKey}

/-- The hits of a key within the window that ends at `now`. -/
def liveHits (window : Instant) (hits : HitTable Instant) (key : HitKey)
    (now : Instant) : List Instant :=
  ((hits.lookup key).getD []).filter fun hit => now - window < hit

theorem liveHits_insert_other {times : List Instant} (differs : key ≠ other) :
    liveHits window (hits.insert other times) key later =
      liveHits window hits key later := by
  unfold liveHits
  rw [AList.lookup_insert_ne differs]

variable [IsOrderedAddMonoid Instant]

/-- A purge drops no hit that a later check looks at. -/
theorem liveHits_purgeExpired (le : now ≤ later) :
    liveHits window (purgeExpired (now - window) hits) key later =
      liveHits window hits key later := by
  unfold liveHits
  rw [lookup_purgeExpired]
  cases hits.lookup key with
  | none => rfl
  | some times =>
      by_cases kept : times.any fun hit => now - window < hit
      · simp [Option.filter, kept]
      · have expired :
            (times.filter fun hit => later - window < hit) = [] := by
          apply List.filter_eq_nil_iff.mpr
          intro hit member isLive
          apply kept
          apply List.any_eq_true.mpr
          have isEarlier : now - window ≤ later - window :=
            sub_le_sub_right le window
          exact ⟨hit, member,
            decide_eq_true (isEarlier.trans_lt (of_decide_eq_true isLive))⟩
        simp [Option.filter, kept, expired]

/-- What is filtered now is there to be filtered again. -/
theorem filter_filter_of_le {times : List Instant} (le : now ≤ later) :
    (times.filter fun hit => now - window < hit).filter
        (fun hit => later - window < hit) =
      times.filter fun hit => later - window < hit := by
  rw [List.filter_filter]
  apply List.filter_congr
  intro hit _
  have isEarlier : now - window ≤ later - window := sub_le_sub_right le window
  by_cases isLive : later - window < hit
  · simp [isLive, isEarlier.trans_lt isLive]
  · simp [isLive]

theorem liveHits_insert {times : List Instant} (le : now ≤ later)
    (isLive : times = liveHits window hits key now)
    {stored : HitTable Instant} :
    liveHits window (stored.insert key (times ++ [now])) key later =
      liveHits window hits key later ++
        [now].filter fun hit => later - window < hit := by
  unfold liveHits
  rw [AList.lookup_insert, Option.getD_some, List.filter_append, isLive,
    liveHits, filter_filter_of_le le]

/-- The hits that a check works on, after its purge. -/
def purged (tracked : Nat) (cutoff : Instant) (hits : HitTable Instant) :
    HitTable Instant :=
  if hits.entries.length > tracked then purgeExpired cutoff hits else hits

theorem liveHits_purged (le : now ≤ later) :
    liveHits window (purged tracked (now - window) hits) key later =
      liveHits window hits key later := by
  unfold purged
  split
  · exact liveHits_purgeExpired le
  · rfl

/-- All that a check does: it is refused and leaves what a purge leaves, or it
is admitted and its time joins the live hits of its key. -/
theorem checkHits_cases (tracked : Nat) (window now : Instant)
    (hits : HitTable Instant) (bucket client : String)
    (positive : 0 < maxRequests) :
    (maxRequests ≤ (liveHits window hits (bucket, client) now).length ∧
      checkHits tracked bucket client maxRequests window now hits =
        (.error tooManyRequests, purged tracked (now - window) hits)) ∨
    (((liveHits window hits (bucket, client) now).length : Int) < maxRequests ∧
      checkHits tracked bucket client maxRequests window now hits =
        (.ok (), (purged tracked (now - window) hits).insert (bucket, client)
          (liveHits window hits (bucket, client) now ++ [now]))) := by
  have same : liveHits window (purged tracked (now - window) hits)
      (bucket, client) now = liveHits window hits (bucket, client) now :=
    liveHits_purged le_rfl
  have unfolded :
      checkHits tracked bucket client maxRequests window now hits =
        if (liveHits window hits (bucket, client) now).length ≥ maxRequests then
          (.error tooManyRequests, purged tracked (now - window) hits)
        else
          (.ok (), (purged tracked (now - window) hits).insert (bucket, client)
            (liveHits window hits (bucket, client) now ++ [now])) := by
    rw [← same]
    exact if_neg (not_le.mpr positive)
  rw [unfolded]
  by_cases full :
      maxRequests ≤ (liveHits window hits (bucket, client) now).length
  · exact .inl ⟨full, if_pos full⟩
  · exact .inr ⟨not_le.mp full, if_neg full⟩

/-- Every later check of a key finds the hits that a limiter which forgets
nothing finds. -/
structure Remembers (maxRequests : Int) (window clock : Instant)
    (state : Limiting Instant) : Prop where
  history : Remembering window maxRequests.toNat state.history
  hits : ∀ key later, clock ≤ later →
    liveHits window state.hits key later = recent window state.history key later

theorem Remembers.step {state : Limiting Instant} {clock : Instant}
    {event : LimiterEvent Instant} (positive : 0 < maxRequests)
    (remembers : Remembers maxRequests window clock state)
    (le : clock ≤ event.time) :
    Remembers maxRequests window event.time
      (state.step tracked maxRequests window event) := by
  cases event with
  | purge now =>
      constructor
      · exact remembers.history
      · intro key later isLater
        exact (liveHits_purgeExpired isLater).trans
          (remembers.hits key later (le.trans isLater))
  | check bucket client now =>
      have seen := remembers.hits (bucket, client) now le
      have decided := remembers.history.check (bucket, client) now
      rcases checkHits_cases tracked window now state.hits bucket client
          positive with ⟨full, isRefused⟩ | ⟨room, isAdmitted⟩
      · have isFull :
            ¬(recent window state.history (bucket, client) now).length <
              maxRequests.toNat := by
          rw [← seen]
          omega
        unfold Limiting.step
        dsimp only
        rw [isRefused]
        constructor
        · simpa [isFull, Except.isOk, Except.toBool] using decided
        · intro key later isLater
          simp only [Except.isOk, Except.toBool]
          rw [recent_append_refused]
          exact (liveHits_purged isLater).trans
            (remembers.hits key later (le.trans isLater))
      · have hasRoom :
            (recent window state.history (bucket, client) now).length <
              maxRequests.toNat := by
          rw [← seen]
          omega
        unfold Limiting.step
        dsimp only
        rw [isAdmitted]
        constructor
        · simpa [hasRoom, Except.isOk, Except.toBool] using decided
        · intro key later isLater
          have before := remembers.hits key later (le.trans isLater)
          simp only [Except.isOk, Except.toBool]
          by_cases isKey : key = (bucket, client)
          · subst isKey
            rw [recent_append_admitted, ← before]
            exact liveHits_insert isLater rfl
          · rw [recent_append_other isKey, liveHits_insert_other isKey,
              ← before]
            exact liveHits_purged isLater

end Refinement

/-! ## Every run -/

section Runs

variable {Instant : Type} [AddCommGroup Instant] [LinearOrder Instant]
variable {tracked : Nat} {maxRequests : Int} {window now : Instant}
variable {hits : HitTable Instant} {events : List (LimiterEvent Instant)}

/-- The events come in the order of their instants. -/
def InOrder (events : List (LimiterEvent Instant)) : Prop :=
  events.Pairwise fun earlier later => earlier.time ≤ later.time

theorem history_inOrder (inOrder : InOrder events) :
    (runLimiter tracked maxRequests window events).history.Pairwise
      fun earlier later => earlier.now ≤ later.now := by
  have ordered : (events.filterMap LimiterEvent.call?).Pairwise
      fun earlier later => earlier.2 ≤ later.2 := by
    apply List.Pairwise.filterMap _ _ inOrder
    intro earlier later le call isCall other isOther
    cases earlier <;> cases later <;> cases isCall <;> cases isOther
    exact le
  rw [← calls_runLimiter tracked maxRequests window,
    List.pairwise_map] at ordered
  exact ordered

variable [IsOrderedAddMonoid Instant]

theorem remembers_runLimiter (positive : 0 < maxRequests)
    (inOrder : InOrder events) {clock : Instant}
    (past : ∀ event ∈ events, event.time ≤ clock) :
    Remembers maxRequests window clock
      (runLimiter tracked maxRequests window events) := by
  induction events using List.reverseRecOn generalizing clock with
  | nil => exact ⟨.nil, fun _ _ _ => rfl⟩
  | append_singleton events event inductionHypothesis =>
      obtain ⟨earlier, -, last⟩ := List.pairwise_append.mp inOrder
      have before : Remembers maxRequests window event.time
          (runLimiter tracked maxRequests window events) := by
        apply inductionHypothesis earlier
        intro other member
        exact last other member event (List.mem_singleton.mpr rfl)
      have after : Remembers maxRequests window event.time
          (runLimiter tracked maxRequests window (events ++ [event])) := by
        rw [runLimiter_append]
        exact before.step positive le_rfl
      have isPast : event.time ≤ clock :=
        past event (List.mem_append_right _ (List.mem_singleton.mpr rfl))
      exact ⟨after.history, fun key later isLater =>
        after.hits key later (isPast.trans isLater)⟩

theorem remembering_runLimiter (positive : 0 < maxRequests)
    (inOrder : InOrder events) :
    Remembering window maxRequests.toNat
      (runLimiter tracked maxRequests window events).history := by
  rcases List.eq_nil_or_concat events with rfl | ⟨before, event, rfl⟩
  · exact .nil
  · rw [List.concat_eq_append] at inOrder ⊢
    obtain ⟨-, -, last⟩ := List.pairwise_append.mp inOrder
    have past : ∀ other ∈ before ++ [event], other.time ≤ event.time := by
      intro other member
      rcases List.mem_append.mp member with isBefore | isLast
      · exact last other isBefore event (List.mem_singleton.mpr rfl)
      · rw [List.mem_singleton.mp isLast]
    exact (remembers_runLimiter positive inOrder past).history

/-- A refused check leaves the hits of its key. -/
theorem lookup_refused {bucket client : String} (positive : 0 < maxRequests)
    (refused : (checkHits tracked bucket client maxRequests window now
      hits).1.isOk = false) :
    (checkHits tracked bucket client maxRequests window now hits).2.lookup
        (bucket, client) =
      hits.lookup (bucket, client) := by
  rcases checkHits_cases tracked window now hits bucket client positive with
    ⟨full, outcome⟩ | ⟨_, outcome⟩
  · rw [outcome]
    unfold purged
    split
    · rw [lookup_purgeExpired]
      unfold liveHits at full
      cases stored : hits.lookup (bucket, client) with
      | none => rfl
      | some times =>
          -- the check was refused over a hit that the purge keeps
          rw [stored, Option.getD_some] at full
          have isLive :
              0 < (times.filter fun hit => now - window < hit).length := by
            omega
          obtain ⟨hit, member⟩ := List.exists_mem_of_length_pos isLive
          apply Option.filter_eq_some_iff.mpr
          refine ⟨rfl, List.any_eq_true.mpr ⟨hit, List.mem_filter.mp member⟩⟩
    · rfl
  · rw [outcome] at refused
    cases refused

/-- Under a positive limit, in every run: no window admits more checks of a key
than the limit, a check is refused only after the limit was reached within the
window that it ends, a refused check leaves the hits of its key, and purges
change no decision. -/
theorem checks_limited (tracked : Nat) (maxRequests : Int) (window : Instant)
    (events : List (LimiterEvent Instant)) (positive : 0 < maxRequests)
    (inOrder : InOrder events) :
    let history := (runLimiter tracked maxRequests window events).history
    (∀ key start,
      ((admittedTimes history key).countP fun time =>
          start < time ∧ time ≤ start + window : Int) ≤ maxRequests ∧
        ((admittedTimes history key).countP fun time =>
          start ≤ time ∧ time < start + window : Int) ≤ maxRequests) ∧
    (∀ before check after, history = before ++ check :: after →
      check.admitted = false →
        ((admittedTimes before check.key).countP fun time =>
            check.now - window < time ∧ time ≤ check.now : Int) =
          maxRequests) ∧
    (∀ before bucket client now after,
      events = before ++ .check bucket client now :: after →
        let hits := (runLimiter tracked maxRequests window before).hits
        let outcome :=
          checkHits tracked bucket client maxRequests window now hits
        outcome.1.isOk = false →
          outcome.2.lookup (bucket, client) = hits.lookup (bucket, client)) ∧
    ∀ otherTracked others, InOrder others →
      others.filterMap LimiterEvent.call? =
          events.filterMap LimiterEvent.call? →
        (runLimiter otherTracked maxRequests window others).history =
          history := by
  intro history
  have remembers : Remembering window maxRequests.toNat history :=
    remembering_runLimiter positive inOrder
  have ending (key : HitKey) (start : Instant) :
      (admittedTimes history key).countP (fun time =>
        start < time ∧ time ≤ start + window) ≤ maxRequests.toNat := by
    apply remembers.countP_le
    intro earlier later isEarlier isLater
    obtain ⟨above, -⟩ := of_decide_eq_true isEarlier
    obtain ⟨-, below⟩ := of_decide_eq_true isLater
    exact sub_lt_iff_lt_add'.mpr
      (below.trans_lt (add_lt_add_left above window))
  have starting (key : HitKey) (start : Instant) :
      (admittedTimes history key).countP (fun time =>
        start ≤ time ∧ time < start + window) ≤ maxRequests.toNat := by
    apply remembers.countP_le
    intro earlier later isEarlier isLater
    obtain ⟨above, -⟩ := of_decide_eq_true isEarlier
    obtain ⟨-, below⟩ := of_decide_eq_true isLater
    exact sub_lt_iff_lt_add'.mpr
      (below.trans_le (add_le_add_left above window))
  have isLimit : (maxRequests.toNat : Int) = maxRequests :=
    Int.toNat_of_nonneg positive.le
  refine ⟨fun key start => ⟨?_, ?_⟩, ?_, ?_, ?_⟩
  · exact isLimit ▸ Nat.cast_le.mpr (ending key start)
  · exact isLimit ▸ Nat.cast_le.mpr (starting key start)
  · intro before check after whole refused
    have decided := (whole ▸ remembers).decided
    have past : ∀ time ∈ admittedTimes before check.key, time ≤ check.now := by
      intro time member
      obtain ⟨other, isOther, rfl⟩ := List.mem_map.mp member
      have ordered : history.Pairwise fun earlier later =>
          earlier.now ≤ later.now := history_inOrder inOrder
      rw [whole] at ordered
      exact (List.pairwise_append.mp ordered).2.2 other
        (List.mem_of_mem_filter isOther) check List.mem_cons_self
    have counted : ((admittedTimes before check.key).countP fun time =>
        check.now - window < time ∧ time ≤ check.now) =
          (recent window before check.key check.now).length := by
      rw [recent, ← List.countP_eq_length_filter]
      apply List.countP_congr
      intro time member
      simp [past time member]
    rw [refused] at decided
    have reached := of_decide_eq_false decided.symm
    have allowed := ending check.key (check.now - window)
    rw [whole, admittedTimes_append, List.countP_append,
      sub_add_cancel] at allowed
    omega
  · intro before bucket client now after _ hits outcome refused
    exact lookup_refused positive refused
  · intro otherTracked others isInOrder same
    apply (remembering_runLimiter positive isInOrder).unique remembers
    rw [calls_runLimiter, calls_runLimiter, same]

/-- A limit of one: the second check of a client is refused, the third one comes
as the window ends. -/
def sampleChecks : List (LimiterEvent Int) :=
  [.check "login" "10.0.0.1" 0, .check "login" "10.0.0.1" 30,
    .check "login" "10.0.0.1" 60]

theorem checks_limited_sample :
    (((admittedTimes (runLimiter maxTrackedKeys 1 60 sampleChecks).history
        ("login", "10.0.0.1")).countP fun time => 0 < time ∧ time ≤ 60 : Nat) :
          Int) ≤ 1 ∧
      (((admittedTimes [⟨("login", "10.0.0.1"), 0, true⟩]
        ("login", "10.0.0.1")).countP fun time =>
          -30 < time ∧ time ≤ 30 : Nat) : Int) = 1 := by
  obtain ⟨limited, reached, -, -⟩ := checks_limited maxTrackedKeys 1 60
    sampleChecks (by decide)
    (by simp [InOrder, sampleChecks, LimiterEvent.time])
  constructor
  · exact (limited ("login", "10.0.0.1") 0).1
  · exact reached [⟨("login", "10.0.0.1"), 0, true⟩]
      ⟨("login", "10.0.0.1"), 30, false⟩ [⟨("login", "10.0.0.1"), 60, true⟩]
      (by decide) rfl

/-- A limit of zero limits nothing, and a limit of one admits a check at both
ends of a closed window. -/
theorem disabled_bucket_admits :
    ¬(∀ key start,
        (((admittedTimes (runLimiter maxTrackedKeys 0 60 sampleChecks).history
          key).countP fun time => start < time ∧ time ≤ start + 60 : Nat) :
            Int) ≤ 0) ∧
      ¬∀ key start,
        (((admittedTimes (runLimiter maxTrackedKeys 1 60 sampleChecks).history
          key).countP fun time => start ≤ time ∧ time ≤ start + 60 : Nat) :
            Int) ≤ 1 := by
  constructor
  · intro limited
    exact absurd (limited ("login", "10.0.0.1") 0) (by decide)
  · intro limited
    exact absurd (limited ("login", "10.0.0.1") 0) (by decide)

end Runs

end AssessmentPlatform.RateLimit
