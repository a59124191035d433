import AssessmentPlatform.Grading.AgentClient
import Mathlib.Data.ENat.Lattice

/-!
# The retries of one request

`_post_with_retry` with everything that it does: the calls, the pauses between
them, and what surfaces at the end.
-/

namespace AssessmentPlatform

/-! ## The loop -/

/-- What the loop does: a call, or the pause before the next one. -/
inductive RetryEvent where
  | post (attempt : Nat)
  | sleep (seconds : Rat)
  deriving DecidableEq, Repr

/-- How the function ends. -/
inductive RetryOutcome where
  | returned (response : AgentResponse)
  | raised (failure : Raised)
  /-- `raise last`, where no failure was ever bound to `last`. -/
  | unbound

/-- What one call ends with, when nothing comes after it. -/
def RetryOutcome.of : Except Raised AgentResponse → RetryOutcome
  | .ok response => .returned response
  | .error failure => .raised failure

section Loop

variable (attempts : Int) (backoff : Rat) (retryable : Raised → Bool)
variable (exchanges : Nat → Exchange)

/-- The `for` of `_post_with_retry` over the attempts that are left, and the
`raise last` behind it. -/
def retryLoop : Option Raised → List Nat → List RetryEvent × RetryOutcome
  | none, [] => ([], .unbound)
  | some last, [] => ([], .raised last)
  | _, attempt :: later =>
      match raiseForStatus (exchanges attempt) with
      | .ok response => ([.post attempt], .returned response)
      | .error failure =>
          if attempts ≤ attempt || !retryable failure then
            ([.post attempt], .raised failure)
          else
            let rest := retryLoop (some failure) later
            (.post attempt :: .sleep (backoff * attempt) :: rest.1, rest.2)

/-- `_post_with_retry`: `for attempt in range(1, max(1, attempts) + 1)`. -/
def retryRun : List RetryEvent × RetryOutcome :=
  retryLoop attempts backoff retryable exchanges none
    (List.range' 1 (max 1 attempts).toNat)

end Loop

/-- Whether an event is a call. -/
def RetryEvent.isPost : RetryEvent → Bool
  | .post _ => true
  | .sleep _ => false

/-- The number of calls of a run. -/
def callCountOf (events : List RetryEvent) : Nat :=
  events.countP RetryEvent.isPost

variable {attempts : Int} {backoff : Rat} {retryable : Raised → Bool}
variable {exchanges : Nat → Exchange}

/-! ## The calls of a run -/

/-- A call ends the loop by itself: it succeeds, or its failure is not one that
a retry could fix. -/
def Decisive (retryable : Raised → Bool) (exchange : Exchange) : Prop :=
  ∀ failure, raiseForStatus exchange = .error failure →
    retryable failure = false

/-- A number of further calls after a first one, with the pauses between. -/
def eventsFrom (backoff : Rat) : Nat → Nat → List RetryEvent
  | first, 0 => [.post first]
  | first, extra + 1 =>
      .post first :: .sleep (backoff * first) ::
        eventsFrom backoff (first + 1) extra

theorem callCountOf_eventsFrom (first extra : Nat) :
    callCountOf (eventsFrom backoff first extra) = extra + 1 := by
  induction extra generalizing first with
  | zero => rfl
  | succ extra inductionHypothesis =>
      have later := inductionHypothesis (first + 1)
      simp only [callCountOf, eventsFrom, List.countP_cons,
        RetryEvent.isPost, if_true, Bool.false_eq_true, if_false] at later ⊢
      omega

/-- What the loop does with the attempts `first`, …, `first + left`, the last of
which is the last one allowed. -/
theorem retryLoop_range' {first left : Nat} (last : Option Raised)
    (bound : (max 1 attempts).toNat = first + left) (positive : 1 ≤ first) :
    ∃ extra ≤ left,
      retryLoop attempts backoff retryable exchanges last
          (List.range' first (left + 1)) =
        (eventsFrom backoff first extra,
          .of (raiseForStatus (exchanges (first + extra)))) ∧
      (∀ earlier < extra, ¬Decisive retryable (exchanges (first + earlier))) ∧
      (Decisive retryable (exchanges (first + extra)) ∨ extra = left) := by
  induction left generalizing first last with
  | zero =>
      refine ⟨0, le_rfl, ?_, by simp, .inr rfl⟩
      have isLast : attempts ≤ (first : Int) := by omega
      cases outcome : raiseForStatus (exchanges first) <;>
        simp [retryLoop, outcome, eventsFrom, RetryOutcome.of, isLast]
  | succ left inductionHypothesis =>
      have isBefore : ¬attempts ≤ (first : Int) := by omega
      rw [List.range'_succ]
      cases outcome : raiseForStatus (exchanges first) with
      | ok response =>
          refine ⟨0, Nat.zero_le _, ?_, by simp, .inl ?_⟩
          · simp [retryLoop, outcome, eventsFrom, RetryOutcome.of]
          · intro failure fails
            cases outcome.symm.trans fails
      | error failure =>
          cases again : retryable failure with
          | false =>
              refine ⟨0, Nat.zero_le _, ?_, by simp, .inl ?_⟩
              · simp [retryLoop, outcome, again, eventsFrom, RetryOutcome.of]
              · intro other fails
                cases outcome.symm.trans fails
                exact again
          | true =>
              obtain ⟨extra, within, runs, notBefore, ends⟩ :=
                @inductionHypothesis (first + 1) (some failure) (by omega)
                  (by omega)
              refine ⟨extra + 1, by omega, ?_, ?_, ?_⟩
              · simp [retryLoop, outcome, again, isBefore, runs, eventsFrom,
                  Nat.add_assoc, Nat.add_comm 1]
              · intro earlier below decisive
                cases earlier with
                | zero =>
                    exact absurd (decisive failure outcome) (by simp [again])
                | succ earlier =>
                    refine notBefore earlier (by omega) ?_
                    rwa [Nat.add_assoc, Nat.add_comm 1]
              · rw [Nat.add_right_comm, Nat.add_assoc] at ends
                exact ends.imp id (congrArg (· + 1))

/-- The call number of the first decisive call, when there is one. -/
noncomputable def firstDecisive (retryable : Raised → Bool)
    (exchanges : Nat → Exchange) : ℕ∞ :=
  ⨅ call : Nat, ⨅ _ : 1 ≤ call ∧ Decisive retryable (exchanges call),
    (call : ℕ∞)

/-- A call before which none is decisive, and which is decisive itself or the
last one allowed, is the earlier of the two. -/
theorem eq_min_firstDecisive {call bound : Nat} (positive : 1 ≤ call)
    (within : call ≤ bound)
    (notBefore : ∀ earlier, 1 ≤ earlier → earlier < call →
      ¬Decisive retryable (exchanges earlier))
    (ends : Decisive retryable (exchanges call) ∨ call = bound) :
    (call : ℕ∞) = min (firstDecisive retryable exchanges) bound := by
  apply le_antisymm
  · refine le_min (le_iInf₂ fun other decisive => ?_)
      (Nat.cast_le.mpr within)
    by_contra late
    exact notBefore other decisive.1 (Nat.cast_lt.mp (not_le.mp late))
      decisive.2
  · rcases ends with decisive | rfl
    · exact (min_le_left _ _).trans (iInf₂_le call ⟨positive, decisive⟩)
    · exact min_le_right _ _

/-! ## One request -/

/-- The loop ends with what the callers work with. -/
theorem retryLoop_outcome {first left : Nat} (last : Option Raised)
    (bound : (max 1 attempts).toNat = first + left) (positive : 1 ≤ first) :
    (retryLoop attempts backoff retryable exchanges last
        (List.range' first (left + 1))).2 =
      .of (postFrom retryable exchanges first left) := by
  induction left generalizing first last with
  | zero =>
      have isLast : attempts ≤ (first : Int) := by omega
      cases outcome : raiseForStatus (exchanges first) <;>
        simp [retryLoop, postFrom, outcome, RetryOutcome.of, isLast]
  | succ left inductionHypothesis =>
      have isBefore : ¬attempts ≤ (first : Int) := by omega
      rw [List.range'_succ]
      cases outcome : raiseForStatus (exchanges first) with
      | ok response => simp [retryLoop, postFrom, outcome, RetryOutcome.of]
      | error failure =>
          have later :=
            @inductionHypothesis (first + 1) (some failure) (by omega)
              (by omega)
          cases again : retryable failure with
          | false =>
              simp [retryLoop, postFrom, outcome, again, RetryOutcome.of]
          | true =>
              simpa [retryLoop, postFrom, outcome, again, isBefore] using later

/-- There is a first attempt, whatever is configured. -/
theorem attempts_split :
    (max 1 attempts).toNat = 1 + ((max 1 attempts).toNat - 1) := by
  omega

theorem retryRun_outcome :
    (retryRun attempts backoff retryable exchanges).2 =
      .of (postWithRetry attempts retryable exchanges) := by
  rw [retryRun, attempts_split, Nat.add_comm 1]
  exact retryLoop_outcome none attempts_split le_rfl

/-- A whole run: the calls, a pause after each but the last, and the outcome of
the last. -/
theorem retryRun_calls (attempts : Int) (backoff : Rat)
    (retryable : Raised → Bool) (exchanges : Nat → Exchange) :
    ∃ extra,
      retryRun attempts backoff retryable exchanges =
        (eventsFrom backoff 1 extra,
          .of (raiseForStatus (exchanges (extra + 1)))) ∧
      ((extra + 1 : Nat) : ℕ∞) =
        min (firstDecisive retryable exchanges) (max 1 attempts).toNat := by
  obtain ⟨extra, within, runs, notBefore, ends⟩ :=
    @retryLoop_range' attempts backoff retryable exchanges 1 _ none
      attempts_split le_rfl
  rw [Nat.add_comm 1 extra] at runs ends
  refine ⟨extra, ?_, ?_⟩
  · rw [retryRun, attempts_split, Nat.add_comm 1]
    exact runs
  · apply eq_min_firstDecisive (Nat.le_add_left 1 extra) (by omega)
    · intro earlier positive below
      have shifted := notBefore (earlier - 1) (by omega)
      rwa [Nat.add_sub_cancel' positive] at shifted
    · exact ends.imp id fun all => by omega

/-- For every sequence of outcomes and every configured number of attempts, the
calls are as many as the first decisive call or the number of attempts allows,
whichever comes first, and what surfaces is what the last call ended with. -/
theorem post_with_retry_exact (attempts : Int) (backoff : Rat)
    (retryable : Raised → Bool) (exchanges : Nat → Exchange) :
    (callCountOf (retryRun attempts backoff retryable exchanges).1 : ℕ∞) =
      min (firstDecisive retryable exchanges) (max 1 attempts).toNat ∧
    (retryRun attempts backoff retryable exchanges).2 =
      .of (raiseForStatus (exchanges
        (callCountOf (retryRun attempts backoff retryable exchanges).1))) := by
  obtain ⟨extra, runs, isMin⟩ :=
    retryRun_calls attempts backoff retryable exchanges
  rw [runs, callCountOf_eventsFrom]
  exact ⟨isMin, rfl⟩

end AssessmentPlatform
