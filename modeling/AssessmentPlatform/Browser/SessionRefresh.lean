import Mathlib.Algebra.BigOperators.Group.List.Basic
import Mathlib.Algebra.Order.Ring.Nat

/-!
# One refresh for all calls

`request`, `authedFetch` and `tryRefresh` of `api.ts` on a page with an
`AuthProvider`.  A call that is answered 401 awaits the refresh of the session,
one refresh for all calls that await it, and is sent once more where the
refresh succeeds.  Answers arrive in any order, and anything else on the page
can happen between two of them.
-/

namespace AssessmentPlatform.SessionRefresh

/-! ## Calls and refreshes -/

/-- What `fetch` comes to. -/
inductive Answer where
  | failed
  | status (code : Nat)
  deriving DecidableEq, Repr

/-- Where a call stands. -/
inductive CallPhase where
  | sent (retried : Bool)
  /-- `await tryRefresh()` -/
  | waits (shared : Nat)
  | ended (answer : Answer)
  deriving DecidableEq, Repr

/-- A call of `request`, or of `authedFetch`, which is always authenticated.
Which tokens it has been sent with and which refresh it has awaited is kept for
the record. -/
structure Call where
  auth : Bool
  bearers : List (Option String)
  awaited : Option Nat
  phase : CallPhase
  deriving DecidableEq, Repr

/-- Where a promise of `tryRefresh` stands: its `fetch` is under way, its
`then` and `catch` have run, its `finally` has run. -/
inductive RefreshPhase where
  | asked
  | answered (renewed : Bool)
  | cleared (renewed : Bool)
  deriving DecidableEq, Repr

/-- The module's state, the calls and the refreshes of the page in the order in
which they were made, and how often a call has signed the user out. -/
structure Page where
  accessToken : Option String
  refreshing : Option Nat
  refreshes : List RefreshPhase
  calls : List Call
  signOuts : Nat
  deriving DecidableEq, Repr

/-- A page that has just been loaded. -/
def opened : Page := ⟨none, none, [], [], 0⟩

namespace Page

variable (page : Page)

/-- The token that a call is sent with. -/
def bearer (auth : Bool) : Option String :=
  if auth then page.accessToken else none

/-- `request` up to its answer. -/
def request (auth : Bool) : Page :=
  { page with
    calls := page.calls ++ [⟨auth, [page.bearer auth], none, .sent false⟩] }

/-- `logout` of the `AuthProvider`. -/
def logout : Page :=
  { page.request false with accessToken := none }

/-- `unauthorizedHandler`, which is `logout`. -/
def unauthorized : Page :=
  { page.logout with signOuts := page.signOuts + 1 }

/-- `tryRefresh`: the page, and the promise that it returns. -/
def tryRefresh : Page × Nat :=
  match page.refreshing with
  | some shared => (page, shared)
  | none =>
      ({ page with
          refreshing := some page.refreshes.length
          refreshes := page.refreshes ++ [.asked] },
        page.refreshes.length)

/-- A call goes on. -/
def put (index : Nat) (call : Call) : Page :=
  { page with calls := page.calls.set index call }

/-- A refresh goes on. -/
def settle (shared : Nat) (phase : RefreshPhase) : Page :=
  { page with refreshes := page.refreshes.set shared phase }

/-- `request` from its answer on. -/
def answered (index : Nat) (answer : Answer) : Page :=
  match page.calls[index]? with
  | none => page
  | some call =>
      match call.phase with
      | .sent retried =>
          if answer = .status 401 ∧ call.auth = true then
            if retried then
              page.unauthorized.put index { call with phase := .ended answer }
            else
              let (asked, shared) := page.tryRefresh
              asked.put index
                { call with awaited := some shared, phase := .waits shared }
          else page.put index { call with phase := .ended answer }
      | _ => page

/-- `request` after `await tryRefresh()`: the replay, or the sign-out. -/
def resumed (index : Nat) : Page :=
  match page.calls[index]? with
  | none => page
  | some call =>
      match call.phase with
      | .waits shared =>
          match page.refreshes[shared]? with
          | some (.cleared true) =>
              page.put index
                { call with
                  bearers := call.bearers ++ [page.bearer call.auth]
                  phase := .sent true }
          | some (.cleared false) =>
              page.unauthorized.put index
                { call with phase := .ended (.status 401) }
          | _ => page
      | _ => page

/-- The `then` and the `catch` of `tryRefresh`, on the token that the refresh
has brought. -/
def refreshed (token : Option String) : Page :=
  match page.refreshing with
  | none => page
  | some shared =>
      match page.refreshes[shared]? with
      | some .asked =>
          { page.settle shared (.answered token.isSome) with
            accessToken := token.or page.accessToken }
      | _ => page

/-- The `finally` of `tryRefresh`. -/
def cleared : Page :=
  match page.refreshing with
  | none => page
  | some shared =>
      match page.refreshes[shared]? with
      | some (.answered renewed) =>
          { page.settle shared (.cleared renewed) with refreshing := none }
      | _ => page

end Page

/-- What happens next on the page. -/
inductive Event where
  /-- A component makes a call. -/
  | requests (auth : Bool)
  /-- The `AuthProvider` resumes the session. -/
  | mounts
  /-- `setToken` after a login or a change of the password. -/
  | signsIn (token : String)
  /-- The user signs out. -/
  | signsOut
  /-- The `AuthProvider` could not resume the session. -/
  | drops
  | answered (index : Nat) (answer : Answer)
  | refreshed (token : Option String)
  | cleared
  | resumed (index : Nat)
  deriving DecidableEq, Repr

/-- One step of the page. -/
def step (page : Page) : Event → Page
  | .requests auth => page.request auth
  | .mounts => page.tryRefresh.1
  | .signsIn token => { page with accessToken := some token }
  | .signsOut => page.logout
  | .drops => { page with accessToken := none }
  | .answered index answer => page.answered index answer
  | .refreshed token => page.refreshed token
  | .cleared => page.cleared
  | .resumed index => page.resumed index

/-- A run. -/
def run (page : Page) (events : List Event) : Page :=
  events.foldl step page

/-- What goes on by itself once it has been asked for. -/
def Event.inner : Event → Bool
  | .answered _ _ | .refreshed _ | .cleared | .resumed _ => true
  | _ => false

/-! ## What is left to happen -/

/-- How many events a call can still cause. -/
def Call.work (call : Call) : Nat :=
  match call.phase with
  | .sent retried => if !call.auth then 1 else if retried then 2 else 6
  | .waits _ => 3
  | .ended _ => 0

/-- How many events a refresh still causes. -/
def RefreshPhase.work : RefreshPhase → Nat
  | .asked => 2
  | .answered _ => 1
  | .cleared _ => 0

/-- A bound on the events to come if nothing else is asked for. -/
def Page.work (page : Page) : Nat :=
  (page.calls.map Call.work).sum + (page.refreshes.map RefreshPhase.work).sum

/-- A call that has signed the user out. -/
def Call.refused (call : Call) : Bool :=
  call.auth && call.phase == .ended (.status 401)

/-- A refresh that others can still share. -/
def RefreshPhase.shareable : RefreshPhase → Bool
  | .cleared _ => false
  | _ => true

/-- The six histories that a call can have. -/
inductive History (refreshes : List RefreshPhase) : Call → Prop where
  | first {auth : Bool} {bearer : Option String}
      (plain : auth = false → bearer = none) :
      History refreshes ⟨auth, [bearer], none, .sent false⟩
  | once {auth : Bool} {bearer : Option String} {answer : Answer}
      (plain : auth = false → bearer = none)
      (accepted : auth = true → answer ≠ .status 401) :
      History refreshes ⟨auth, [bearer], none, .ended answer⟩
  | awaits {bearer : Option String} {shared : Nat}
      (known : shared < refreshes.length) :
      History refreshes ⟨true, [bearer], some shared, .waits shared⟩
  | unrenewed {bearer : Option String} {shared : Nat}
      (failed : refreshes[shared]? = some (.cleared false)) :
      History refreshes ⟨true, [bearer], some shared, .ended (.status 401)⟩
  | replayed {bearer again : Option String} {shared : Nat}
      (renewed : refreshes[shared]? = some (.cleared true)) :
      History refreshes ⟨true, [bearer, again], some shared, .sent true⟩
  | twice {bearer again : Option String} {shared : Nat} {answer : Answer}
      (renewed : refreshes[shared]? = some (.cleared true)) :
      History refreshes ⟨true, [bearer, again], some shared, .ended answer⟩

/-! ## One entry of a list -/

theorem sum_map_set_add {alpha : Type*} {items : List alpha} {index : Nat}
    {before : alpha} (found : items[index]? = some before) (after : alpha)
    (measure : alpha → Nat) :
    ((items.set index after).map measure).sum + measure before =
      (items.map measure).sum + measure after := by
  induction items generalizing index with
  | nil => simp at found
  | cons head tail inductionHypothesis =>
      cases index with
      | zero =>
          simp only [List.getElem?_cons_zero, Option.some.injEq] at found
          subst found
          simp only [List.set_cons_zero, List.map_cons, List.sum_cons]
          omega
      | succ index =>
          rw [List.getElem?_cons_succ] at found
          have rest := inductionHypothesis found
          simp only [List.set_cons_succ, List.map_cons, List.sum_cons]
          omega

theorem countP_eq_sum {alpha : Type*} (items : List alpha)
    (holds : alpha → Bool) :
    items.countP holds = (items.map fun item => (holds item).toNat).sum := by
  induction items with
  | nil => rfl
  | cons head tail inductionHypothesis =>
      rw [List.countP_cons, List.map_cons, List.sum_cons, inductionHypothesis]
      cases holds head <;> simp [Nat.add_comm]

theorem countP_set_add {alpha : Type*} {items : List alpha} {index : Nat}
    {before : alpha} (found : items[index]? = some before) (after : alpha)
    (holds : alpha → Bool) :
    (items.set index after).countP holds + (holds before).toNat =
      items.countP holds + (holds after).toNat := by
  simp only [countP_eq_sum]
  exact sum_map_set_add found after fun item => (holds item).toNat

/-! ## Histories -/

variable {page : Page} {refreshes later : List RefreshPhase} {call : Call}

/-- What is settled stays settled, and no promise is forgotten. -/
structure Grows (refreshes later : List RefreshPhase) : Prop where
  length : refreshes.length ≤ later.length
  cleared : ∀ (shared : Nat) (renewed : Bool),
    refreshes[shared]? = some (.cleared renewed) →
      later[shared]? = some (.cleared renewed)

theorem Grows.append (phase : RefreshPhase) :
    Grows refreshes (refreshes ++ [phase]) := by
  constructor
  · simp
  · intro shared renewed settled
    obtain ⟨bound, _⟩ := List.getElem?_eq_some_iff.mp settled
    rw [List.getElem?_append_left bound]
    exact settled

/-- A refresh that is not settled yet goes on. -/
theorem Grows.set {shared : Nat} {before : RefreshPhase}
    (found : refreshes[shared]? = some before) (open' : before.shareable = true)
    (phase : RefreshPhase) :
    Grows refreshes (refreshes.set shared phase) := by
  constructor
  · simp
  · intro other renewed settled
    by_cases same : shared = other
    · subst same
      rw [found] at settled
      cases settled
      simp [RefreshPhase.shareable] at open'
    · rw [List.getElem?_set_ne same]
      exact settled

theorem History.grows (history : History refreshes call)
    (grows : Grows refreshes later) : History later call := by
  cases history with
  | first plain => exact .first plain
  | once plain accepted => exact .once plain accepted
  | awaits known => exact .awaits (Nat.lt_of_lt_of_le known grows.length)
  | unrenewed failed => exact .unrenewed (grows.cleared _ _ failed)
  | replayed renewed => exact .replayed (grows.cleared _ _ renewed)
  | twice renewed => exact .twice (grows.cleared _ _ renewed)

theorem History.auth {shared : Nat} (history : History refreshes call)
    (isWaiting : call.phase = .waits shared) : call.auth = true := by
  cases history with
  | awaits known => rfl
  | first plain => cases isWaiting
  | once plain accepted => cases isWaiting
  | unrenewed failed => cases isWaiting
  | replayed renewed => cases isWaiting
  | twice renewed => cases isWaiting

theorem History.known {shared : Nat} (history : History refreshes call)
    (isWaiting : call.phase = .waits shared) :
    ∃ bound : shared < refreshes.length,
      refreshes[shared]? = some refreshes[shared] := by
  cases history with
  | awaits known =>
      cases isWaiting
      exact ⟨known, List.getElem?_eq_getElem known⟩
  | first plain => cases isWaiting
  | once plain accepted => cases isWaiting
  | unrenewed failed => cases isWaiting
  | replayed renewed => cases isWaiting
  | twice renewed => cases isWaiting

/-! ## The invariant -/

/-- Only the refresh that `tryRefresh` hands out is unsettled. -/
structure SingleFlight (page : Page) : Prop where
  current : ∀ shared ∈ page.refreshing, ∃ phase,
    page.refreshes[shared]? = some phase ∧ phase.shareable = true
  others : ∀ (shared : Nat) (phase : RefreshPhase),
    page.refreshes[shared]? = some phase → phase.shareable = true →
      page.refreshing = some shared

/-- What holds of a page at any time. -/
structure Coherent (page : Page) : Prop where
  singleFlight : SingleFlight page
  histories : ∀ call ∈ page.calls, History page.refreshes call
  counted : page.signOuts = page.calls.countP Call.refused

theorem coherent_opened : Coherent opened := by
  constructor
  · constructor <;> simp [opened]
  · simp [opened]
  · rfl

theorem Coherent.request (coherent : Coherent page) (auth : Bool) :
    Coherent (page.request auth) := by
  constructor
  · exact ⟨coherent.singleFlight.current, coherent.singleFlight.others⟩
  · intro call member
    rcases List.mem_append.mp member with earlier | made
    · exact coherent.histories call earlier
    · obtain rfl := List.mem_singleton.mp made
      refine .first fun plain => ?_
      simp [Page.bearer, plain]
  · simpa [Page.request, Call.refused] using coherent.counted

/-- The token is of no consequence. -/
theorem Coherent.token (coherent : Coherent page) (token : Option String) :
    Coherent { page with accessToken := token } :=
  ⟨⟨coherent.singleFlight.current, coherent.singleFlight.others⟩,
    coherent.histories, coherent.counted⟩

theorem Coherent.logout (coherent : Coherent page) : Coherent page.logout :=
  (coherent.request false).token none

/-- The promise that `tryRefresh` returns is the only one unsettled. -/
theorem Coherent.tryRefresh (coherent : Coherent page) :
    Coherent page.tryRefresh.1 ∧
      page.tryRefresh.2 < page.tryRefresh.1.refreshes.length ∧
      page.tryRefresh.1.calls = page.calls := by
  have flight := coherent.singleFlight
  cases pending : page.refreshing with
  | some shared =>
      simp only [Page.tryRefresh, pending]
      obtain ⟨phase, found, _⟩ := flight.current shared pending
      obtain ⟨bound, _⟩ := List.getElem?_eq_some_iff.mp found
      exact ⟨coherent, bound, trivial⟩
  | none =>
      simp only [Page.tryRefresh, pending]
      refine ⟨⟨⟨?_, ?_⟩, ?_, coherent.counted⟩, by simp, trivial⟩
      · intro shared member
        obtain rfl := Option.mem_some.mp member
        exact ⟨.asked, by simp, rfl⟩
      · intro shared phase found shareable
        by_cases bound : shared < page.refreshes.length
        · rw [List.getElem?_append_left bound] at found
          have known := flight.others shared phase found shareable
          rw [pending] at known
          cases known
        · obtain ⟨below, _⟩ := List.getElem?_eq_some_iff.mp found
          simp only [List.length_append, List.length_singleton] at below
          have last : shared = page.refreshes.length := by omega
          rw [last]
      · intro call member
        exact (coherent.histories call member).grows (.append .asked)

/-- A call that goes on, and signs the user out if it is refused now. -/
theorem Coherent.put {index : Nat} {before after : Call}
    (flight : SingleFlight page)
    (histories : ∀ call ∈ page.calls, History page.refreshes call)
    (found : page.calls[index]? = some before)
    (history : History page.refreshes after)
    (counted : page.signOuts + before.refused.toNat =
      page.calls.countP Call.refused + after.refused.toNat) :
    Coherent (page.put index after) := by
  constructor
  · exact ⟨flight.current, flight.others⟩
  · intro call member
    rcases List.mem_or_eq_of_mem_set member with earlier | rfl
    · exact histories call earlier
    · exact history
  · have counts := countP_set_add found after Call.refused
    simp only [Page.put]
    omega

/-- A call that goes on without being refused. -/
theorem Coherent.goesOn {index : Nat} {before after : Call}
    (coherent : Coherent page) (found : page.calls[index]? = some before)
    (history : History page.refreshes after)
    (wasOpen : before.refused = false) (stays : after.refused = false) :
    Coherent (page.put index after) := by
  refine .put coherent.singleFlight coherent.histories found history ?_
  rw [wasOpen, stays, coherent.counted]

/-- A call that is refused for good. -/
theorem Coherent.signsOut {index : Nat} {before after : Call}
    (coherent : Coherent page) (found : page.calls[index]? = some before)
    (history : History page.refreshes after)
    (wasOpen : before.refused = false) (isRefused : after.refused = true) :
    Coherent (page.unauthorized.put index after) := by
  have out := coherent.logout
  obtain ⟨bound, _⟩ := List.getElem?_eq_some_iff.mp found
  have found' : page.unauthorized.calls[index]? = some before := by
    simpa [Page.unauthorized, Page.logout, Page.request,
      List.getElem?_append_left bound] using found
  have flight : SingleFlight page.unauthorized :=
    ⟨out.singleFlight.current, out.singleFlight.others⟩
  refine Coherent.put flight out.histories found' history ?_
  have counted := out.counted
  simp only [Page.unauthorized]
  rw [wasOpen, isRefused, ← counted]
  rfl

theorem Coherent.answered (coherent : Coherent page) (index : Nat)
    (answer : Answer) : Coherent (page.answered index answer) := by
  unfold Page.answered
  cases found : page.calls[index]? with
  | none => exact coherent
  | some call =>
      have history := coherent.histories call (List.mem_of_getElem? found)
      cases history with
      | first plain =>
          rename_i auth bearer
          by_cases refused : answer = .status 401 ∧ auth = true
          · obtain ⟨rfl, rfl⟩ := refused
            obtain ⟨asked, known, sameCalls⟩ := coherent.tryRefresh
            simp only [and_self, if_true, Bool.false_eq_true, if_false]
            rw [← sameCalls] at found
            exact asked.goesOn found (.awaits known) (by simp [Call.refused])
              (by simp [Call.refused])
          · simp only [refused, if_false]
            refine coherent.goesOn found
              (.once plain fun isAuth is401 => refused ⟨is401, isAuth⟩)
              (by simp [Call.refused]) ?_
            simp only [Call.refused, Bool.and_eq_false_iff, beq_eq_false_iff_ne]
            by_cases isAuth : auth = true
            · exact .inr fun same => refused ⟨by simpa using same, isAuth⟩
            · exact .inl (by simpa using isAuth)
      | replayed renewed =>
          by_cases refused : answer = .status 401
          · subst refused
            simp only [and_self, if_true]
            exact coherent.signsOut found (.twice renewed)
              (by simp [Call.refused]) (by simp [Call.refused])
          · simp only [refused, false_and, if_false]
            exact coherent.goesOn found (.twice renewed)
              (by simp [Call.refused]) (by simpa [Call.refused] using refused)
      | once plain accepted => exact coherent
      | awaits known => exact coherent
      | unrenewed failed => exact coherent
      | twice renewed => exact coherent

theorem Coherent.resumed (coherent : Coherent page) (index : Nat) :
    Coherent (page.resumed index) := by
  unfold Page.resumed
  cases found : page.calls[index]? with
  | none => exact coherent
  | some call =>
      have history := coherent.histories call (List.mem_of_getElem? found)
      cases history with
      | awaits known =>
          rename_i bearer shared
          cases settled : page.refreshes[shared]? with
          | none => simpa only [settled] using coherent
          | some phase =>
              cases phase with
              | asked => simpa only [settled] using coherent
              | answered renewed => simpa only [settled] using coherent
              | cleared renewed =>
                  cases renewed with
                  | true =>
                      simp only [settled]
                      exact coherent.goesOn found (.replayed settled)
                        (by simp [Call.refused]) (by simp [Call.refused])
                  | false =>
                      simp only [settled]
                      exact coherent.signsOut found (.unrenewed settled)
                        (by simp [Call.refused]) (by simp [Call.refused])
      | first plain => exact coherent
      | once plain accepted => exact coherent
      | unrenewed failed => exact coherent
      | replayed renewed => exact coherent
      | twice renewed => exact coherent

/-- The refresh that is shared goes on, and stays the shared one until it is
settled. -/
theorem Coherent.settle {shared : Nat} {before : RefreshPhase}
    (coherent : Coherent page) (isShared : page.refreshing = some shared)
    (found : page.refreshes[shared]? = some before)
    (open' : before.shareable = true) (phase : RefreshPhase) :
    Coherent { page.settle shared phase with
      refreshing := if phase.shareable then some shared else none } := by
  obtain ⟨bound, _⟩ := List.getElem?_eq_some_iff.mp found
  refine ⟨⟨?_, ?_⟩, ?_, coherent.counted⟩
  · intro other member
    by_cases shareable : phase.shareable = true
    · simp only [shareable, if_true, Option.mem_def, Option.some.injEq]
        at member
      subst member
      exact ⟨phase, by simp [Page.settle, bound], shareable⟩
    · simp [shareable] at member
  · intro other otherPhase isOther shareable
    simp only [Page.settle] at isOther ⊢
    by_cases same : shared = other
    · subst same
      rw [List.getElem?_set_self bound] at isOther
      cases isOther
      simp [shareable]
    · rw [List.getElem?_set_ne same] at isOther
      have known :=
        coherent.singleFlight.others other otherPhase isOther shareable
      rw [isShared, Option.some.injEq] at known
      exact absurd known same
  · intro call member
    exact (coherent.histories call member).grows (.set found open' phase)

theorem Coherent.refreshed (coherent : Coherent page) (token : Option String) :
    Coherent (page.refreshed token) := by
  unfold Page.refreshed
  cases isShared : page.refreshing with
  | none => exact coherent
  | some shared =>
      cases found : page.refreshes[shared]? with
      | none => simpa only [found] using coherent
      | some phase =>
          cases phase with
          | asked =>
              simp only [found]
              have settled := coherent.settle isShared found rfl
                (.answered token.isSome)
              have same := settled.token (token.or page.accessToken)
              simpa [RefreshPhase.shareable, ← isShared, Page.settle]
                using same
          | answered renewed => simpa only [found] using coherent
          | cleared renewed => simpa only [found] using coherent

theorem Coherent.cleared (coherent : Coherent page) :
    Coherent page.cleared := by
  unfold Page.cleared
  cases isShared : page.refreshing with
  | none => exact coherent
  | some shared =>
      cases found : page.refreshes[shared]? with
      | none => simpa only [found] using coherent
      | some phase =>
          cases phase with
          | asked => simpa only [found] using coherent
          | answered renewed =>
              simp only [found]
              exact coherent.settle isShared found rfl (.cleared renewed)
          | cleared renewed => simpa only [found] using coherent

theorem Coherent.step (coherent : Coherent page) (event : Event) :
    Coherent (step page event) := by
  cases event with
  | requests auth => exact coherent.request auth
  | mounts => exact coherent.tryRefresh.1
  | signsIn token => exact coherent.token (some token)
  | signsOut => exact coherent.logout
  | drops => exact coherent.token none
  | answered index answer => exact coherent.answered index answer
  | refreshed token => exact coherent.refreshed token
  | cleared => exact coherent.cleared
  | resumed index => exact coherent.resumed index

theorem Coherent.run (coherent : Coherent page) (events : List Event) :
    Coherent (run page events) := by
  induction events generalizing page with
  | nil => exact coherent
  | cons event rest inductionHypothesis =>
      exact inductionHypothesis (coherent.step event)

/-! ## Work -/

theorem work_put {index : Nat} {before : Call} (after : Call)
    (found : page.calls[index]? = some before) :
    (page.put index after).work + before.work = page.work + after.work := by
  have calls := sum_map_set_add found after Call.work
  simp only [Page.work, Page.put]
  omega

theorem work_settle {shared : Nat} {before : RefreshPhase}
    (phase : RefreshPhase) (found : page.refreshes[shared]? = some before) :
    (page.settle shared phase).work + before.work =
      page.work + phase.work := by
  have settled := sum_map_set_add found phase RefreshPhase.work
  simp only [Page.work, Page.settle]
  omega

theorem work_unauthorized : page.unauthorized.work = page.work + 1 := by
  simp only [Page.work, Page.unauthorized, Page.logout, Page.request,
    List.map_append, List.sum_append, List.map_singleton, List.sum_singleton,
    Call.work, Bool.not_false, if_true]
  omega

theorem work_tryRefresh_le : page.tryRefresh.1.work ≤ page.work + 2 := by
  cases pending : page.refreshing with
  | some shared => simp [Page.tryRefresh, pending]
  | none =>
      simp only [Page.tryRefresh, pending, Page.work, List.map_append,
        List.sum_append, List.map_singleton, List.sum_singleton,
        RefreshPhase.work]
      omega

theorem answered_work {index : Nat} {retried : Bool}
    (coherent : Coherent page) (answer : Answer)
    (found : page.calls[index]? = some call)
    (isSent : call.phase = .sent retried) :
    (page.answered index answer).work < page.work := by
  obtain ⟨auth, bearers, awaited, phase⟩ := call
  obtain rfl : phase = .sent retried := isSent
  obtain ⟨bound, _⟩ := List.getElem?_eq_some_iff.mp found
  simp only [Page.answered, found]
  by_cases refused : answer = .status 401 ∧ auth = true
  · obtain ⟨rfl, rfl⟩ := refused
    cases retried with
    | true =>
        simp only [and_self, if_true]
        have found' :
            page.unauthorized.calls[index]? =
              some ⟨true, bearers, awaited, .sent true⟩ := by
          simpa [Page.unauthorized, Page.logout, Page.request,
            List.getElem?_append_left bound] using found
        have put := work_put
          ⟨true, bearers, awaited, .ended (.status 401)⟩ found'
        rw [work_unauthorized] at put
        simp only [Call.work, Bool.not_true, Bool.false_eq_true, if_false,
          if_true] at put
        omega
    | false =>
        simp only [and_self, if_true, Bool.false_eq_true, if_false]
        obtain ⟨asked, _, sameCalls⟩ := coherent.tryRefresh
        rw [← sameCalls] at found
        have put := work_put
          ⟨true, bearers, some page.tryRefresh.2, .waits page.tryRefresh.2⟩
          found
        have more : page.tryRefresh.1.work ≤ page.work + 2 :=
          work_tryRefresh_le
        simp only [Call.work, Bool.not_true, Bool.false_eq_true, if_false]
          at put
        omega
  · simp only [refused, if_false]
    have put := work_put ⟨auth, bearers, awaited, .ended answer⟩ found
    have some' : 0 < Call.work ⟨auth, bearers, awaited, .sent retried⟩ := by
      cases auth <;> cases retried <;> simp [Call.work]
    simp only [Call.work] at put some'
    omega

theorem resumed_work {index shared : Nat} {renewed : Bool}
    (found : page.calls[index]? = some call)
    (isWaiting : call.phase = .waits shared) (isAuth : call.auth = true)
    (settled : page.refreshes[shared]? = some (.cleared renewed)) :
    (page.resumed index).work < page.work := by
  obtain ⟨auth, bearers, awaited, phase⟩ := call
  obtain rfl : phase = .waits shared := isWaiting
  obtain rfl : auth = true := isAuth
  obtain ⟨bound, _⟩ := List.getElem?_eq_some_iff.mp found
  simp only [Page.resumed, found, settled]
  cases renewed with
  | true =>
      have put := work_put
        ⟨true, bearers ++ [page.bearer true], awaited, .sent true⟩ found
      simp only [Call.work, Bool.not_true, Bool.false_eq_true, if_false,
        if_true] at put
      simp only
      omega
  | false =>
      have found' :
          page.unauthorized.calls[index]? =
            some ⟨true, bearers, awaited, .waits shared⟩ := by
        simpa [Page.unauthorized, Page.logout, Page.request,
          List.getElem?_append_left bound] using found
      have put := work_put
        ⟨true, bearers, awaited, .ended (.status 401)⟩ found'
      rw [work_unauthorized] at put
      simp only [Call.work] at put
      simp only
      omega

theorem refreshed_work {shared : Nat} (token : Option String)
    (isShared : page.refreshing = some shared)
    (found : page.refreshes[shared]? = some .asked) :
    (page.refreshed token).work < page.work := by
  have settled := work_settle (.answered token.isSome) found
  simp only [RefreshPhase.work] at settled
  simp only [Page.refreshed, isShared, found]
  change (page.settle shared (.answered token.isSome)).work < page.work
  omega

theorem cleared_work {shared : Nat} {renewed : Bool}
    (isShared : page.refreshing = some shared)
    (found : page.refreshes[shared]? = some (.answered renewed)) :
    page.cleared.work < page.work := by
  have settled := work_settle (.cleared renewed) found
  simp only [RefreshPhase.work] at settled
  simp only [Page.cleared, isShared, found]
  change (page.settle shared (.cleared renewed)).work < page.work
  omega

/-- What goes on by itself brings the page nearer to its end, or finds nothing
to do. -/
theorem Coherent.inner (coherent : Coherent page) {event : Event}
    (inner : event.inner = true) :
    SessionRefresh.step page event = page ∨
      (SessionRefresh.step page event).work < page.work := by
  cases event with
  | answered index answer =>
      cases found : page.calls[index]? with
      | none => exact .inl (by simp [SessionRefresh.step, Page.answered, found])
      | some call =>
          cases isSent : call.phase with
          | sent retried =>
              exact .inr (answered_work coherent answer found isSent)
          | waits shared =>
              exact .inl
                (by simp [SessionRefresh.step, Page.answered, found, isSent])
          | ended ending =>
              exact .inl
                (by simp [SessionRefresh.step, Page.answered, found, isSent])
  | refreshed token =>
      cases isShared : page.refreshing with
      | none =>
          exact .inl (by simp [SessionRefresh.step, Page.refreshed, isShared])
      | some shared =>
          obtain ⟨phase, found, shareable⟩ :=
            coherent.singleFlight.current shared isShared
          cases phase with
          | asked => exact .inr (refreshed_work token isShared found)
          | answered renewed =>
              exact .inl (by
                simp [SessionRefresh.step, Page.refreshed, isShared, found])
          | cleared renewed => simp [RefreshPhase.shareable] at shareable
  | cleared =>
      cases isShared : page.refreshing with
      | none =>
          exact .inl (by simp [SessionRefresh.step, Page.cleared, isShared])
      | some shared =>
          obtain ⟨phase, found, shareable⟩ :=
            coherent.singleFlight.current shared isShared
          cases phase with
          | asked =>
              exact .inl (by
                simp [SessionRefresh.step, Page.cleared, isShared, found])
          | answered renewed => exact .inr (cleared_work isShared found)
          | cleared renewed => simp [RefreshPhase.shareable] at shareable
  | resumed index =>
      cases found : page.calls[index]? with
      | none => exact .inl (by simp [SessionRefresh.step, Page.resumed, found])
      | some call =>
          cases isWaiting : call.phase with
          | waits shared =>
              have isAuth :=
                (coherent.histories call (List.mem_of_getElem? found)).auth
                  isWaiting
              cases settled : page.refreshes[shared]? with
              | none =>
                  exact .inl (by
                    simp [SessionRefresh.step, Page.resumed, found, isWaiting,
                      settled])
              | some phase =>
                  cases phase with
                  | cleared renewed =>
                      exact .inr (resumed_work found isWaiting isAuth settled)
                  | asked =>
                      exact .inl (by
                        simp [SessionRefresh.step, Page.resumed, found,
                          isWaiting, settled])
                  | answered renewed =>
                      exact .inl (by
                        simp [SessionRefresh.step, Page.resumed, found,
                          isWaiting, settled])
          | sent retried =>
              exact .inl (by
                simp [SessionRefresh.step, Page.resumed, found, isWaiting])
          | ended answer =>
              exact .inl (by
                simp [SessionRefresh.step, Page.resumed, found, isWaiting])
  | requests auth => cases inner
  | mounts => cases inner
  | signsIn token => cases inner
  | signsOut => cases inner
  | drops => cases inner

/-- As long as something is left to happen, something can. -/
theorem Coherent.progress (coherent : Coherent page) (left : 0 < page.work) :
    ∃ event : Event, event.inner = true ∧
      (SessionRefresh.step page event).work < page.work := by
  cases isShared : page.refreshing with
  | some shared =>
      obtain ⟨phase, found, shareable⟩ :=
        coherent.singleFlight.current shared isShared
      cases phase with
      | asked =>
          exact ⟨.refreshed none, rfl, refreshed_work none isShared found⟩
      | answered renewed => exact ⟨.cleared, rfl, cleared_work isShared found⟩
      | cleared renewed => simp [RefreshPhase.shareable] at shareable
  | none =>
      have settled (shared : Nat) (phase : RefreshPhase)
          (found : page.refreshes[shared]? = some phase) :
          phase.shareable = false := by
        by_contra shareable
        have known := coherent.singleFlight.others shared phase found
          (by simpa using shareable)
        rw [isShared] at known
        cases known
      have noRefresh : (page.refreshes.map RefreshPhase.work).sum = 0 := by
        rw [List.sum_eq_zero_iff_forall_eq_nat]
        intro work member
        obtain ⟨phase, isPhase, rfl⟩ := List.mem_map.mp member
        obtain ⟨shared, found⟩ := List.getElem?_of_mem isPhase
        have isSettled := settled shared phase found
        cases phase with
        | asked => cases isSettled
        | answered renewed => cases isSettled
        | cleared renewed => rfl
      have busy : ∃ call ∈ page.calls, 0 < call.work := by
        have someCall : 0 < (page.calls.map Call.work).sum := by
          simp only [Page.work] at left
          omega
        simpa [List.sum_pos_iff_exists_pos_nat] using someCall
      obtain ⟨call, member, isBusy⟩ := busy
      obtain ⟨index, found⟩ := List.getElem?_of_mem member
      have history := coherent.histories call member
      cases phase : call.phase with
      | sent retried =>
          exact ⟨.answered index .failed, rfl,
            answered_work coherent .failed found phase⟩
      | waits shared =>
          obtain ⟨bound, isKnown⟩ := history.known phase
          cases refresh : page.refreshes[shared] with
          | asked =>
              have open' := settled shared _ isKnown
              rw [refresh] at open'
              cases open'
          | answered renewed =>
              have open' := settled shared _ isKnown
              rw [refresh] at open'
              cases open'
          | cleared renewed =>
              rw [refresh] at isKnown
              exact ⟨.resumed index, rfl,
                resumed_work found phase (history.auth phase) isKnown⟩
      | ended answer => simp [Call.work, phase] at isBusy

/-- How many of a run's events went on by themselves and did something. -/
def effective : Page → List Event → Nat
  | _, [] => 0
  | page, event :: rest =>
      (if event.inner = true ∧ step page event ≠ page then 1 else 0) +
        effective (step page event) rest

/-- What the user or a component asks for brings six events at most. -/
theorem work_outer {event : Event} (outer : event.inner = false) :
    (step page event).work ≤ page.work + 6 := by
  have requested (auth : Bool) : (page.request auth).work ≤ page.work + 6 := by
    simp only [Page.work, Page.request, List.map_append, List.sum_append,
      List.map_singleton, List.sum_singleton]
    cases auth <;> simp [Call.work] <;> omega
  cases event with
  | requests auth => exact requested auth
  | mounts =>
      have asked : page.tryRefresh.1.work ≤ page.work + 2 :=
        work_tryRefresh_le
      simp only [step]
      omega
  | signsIn token => exact Nat.le_add_right page.work 6
  | signsOut => exact requested false
  | drops => exact Nat.le_add_right page.work 6
  | answered index answer => cases outer
  | refreshed token => cases outer
  | cleared => cases outer
  | resumed index => cases outer

theorem Coherent.effective_le (coherent : Coherent page)
    (events : List Event) :
    effective page events + (SessionRefresh.run page events).work ≤
      page.work + 6 * events.countP fun event => !event.inner := by
  induction events generalizing page with
  | nil => simp [effective, SessionRefresh.run]
  | cons event rest inductionHypothesis =>
      have later := inductionHypothesis (coherent.step event)
      have shift : SessionRefresh.run page (event :: rest) =
          SessionRefresh.run (SessionRefresh.step page event) rest := rfl
      rw [shift, List.countP_cons]
      simp only [effective]
      cases inner : event.inner with
      | false =>
          have outer : (SessionRefresh.step page event).work ≤
              page.work + 6 := work_outer inner
          simp only [Bool.false_eq_true, false_and, if_false, Bool.not_false,
            if_true]
          omega
      | true =>
          simp only [true_and, Bool.not_true, Bool.false_eq_true, if_false]
          rcases coherent.inner inner with same | less
          · rw [same] at later ⊢
            simp only [ne_eq, not_true_eq_false, if_false]
            omega
          · split <;> omega

theorem work_eq_zero_iff :
    page.work = 0 ↔
      (∀ call ∈ page.calls, ∃ answer, call.phase = .ended answer) ∧
        ∀ phase ∈ page.refreshes, phase.shareable = false := by
  have callDone (call : Call) :
      call.work = 0 ↔ ∃ answer, call.phase = .ended answer := by
    cases isPhase : call.phase with
    | sent retried =>
        cases auth : call.auth <;> cases retried <;>
          simp [Call.work, isPhase, auth]
    | waits shared => simp [Call.work, isPhase]
    | ended answer => simp [Call.work, isPhase]
  have refreshDone (phase : RefreshPhase) :
      phase.work = 0 ↔ phase.shareable = false := by
    cases phase <;> simp [RefreshPhase.work, RefreshPhase.shareable]
  simp only [Page.work, Nat.add_eq_zero_iff, List.sum_eq_zero_iff_forall_eq_nat,
    List.forall_mem_map, callDone, refreshDone]

theorem SingleFlight.settled_iff (flight : SingleFlight page) :
    (∀ phase ∈ page.refreshes, phase.shareable = false) ↔
      page.refreshing = none := by
  constructor
  · intro settled
    cases isShared : page.refreshing with
    | none => rfl
    | some shared =>
        obtain ⟨phase, found, shareable⟩ := flight.current shared isShared
        have isSettled := settled phase (List.mem_of_getElem? found)
        rw [shareable] at isSettled
        cases isSettled
  · intro isNone phase member
    obtain ⟨shared, found⟩ := List.getElem?_of_mem member
    by_contra shareable
    have known := flight.others shared phase found (by simpa using shareable)
    rw [isNone] at known
    cases known

/-- At most one refresh is under way, and `tryRefresh` hands out that one. -/
theorem SingleFlight.countP (flight : SingleFlight page) :
    page.refreshes.countP RefreshPhase.shareable =
      page.refreshing.isSome.toNat := by
  cases isShared : page.refreshing with
  | none =>
      have settled := flight.settled_iff.mpr isShared
      simpa [List.countP_eq_zero] using settled
  | some shared =>
      obtain ⟨phase, found, shareable⟩ := flight.current shared isShared
      have counts :=
        countP_set_add found (.cleared true) RefreshPhase.shareable
      have others : (page.refreshes.set shared (.cleared true)).countP
          RefreshPhase.shareable = 0 := by
        rw [List.countP_eq_zero]
        intro other member
        obtain ⟨index, isOther⟩ := List.getElem?_of_mem member
        obtain ⟨bound, _⟩ := List.getElem?_eq_some_iff.mp found
        by_cases same : shared = index
        · subst same
          rw [List.getElem?_set_self bound] at isOther
          cases isOther
          simp [RefreshPhase.shareable]
        · rw [List.getElem?_set_ne same] at isOther
          intro isShareable
          have known := flight.others index other isOther isShareable
          rw [isShared, Option.some.injEq] at known
          exact same known
      rw [others, shareable] at counts
      simp only [RefreshPhase.shareable, Bool.toNat_true, Bool.toNat_false]
        at counts
      simp only [Option.isSome_some, Bool.toNat_true]
      exact counts.symm

/-- A page on which nothing can go on by itself has ended every call. -/
theorem Coherent.resting_iff (coherent : Coherent page) :
    (∀ event : Event, event.inner = true →
        SessionRefresh.step page event = page) ↔
      (∀ call ∈ page.calls, ∃ answer, call.phase = .ended answer) ∧
        page.refreshing = none := by
  rw [← coherent.singleFlight.settled_iff, ← work_eq_zero_iff]
  constructor
  · intro resting
    by_contra left
    obtain ⟨event, inner, less⟩ :=
      coherent.progress (Nat.pos_of_ne_zero left)
    rw [resting event inner] at less
    exact Nat.lt_irrefl _ less
  · intro done event inner
    rcases coherent.inner inner with same | less
    · exact same
    · omega

/-- One refresh, the one that `tryRefresh` hands out, serves all calls that await
it, whatever the order of the answers: a call is sent again only once the refresh
it awaited has succeeded, and only once; the user is signed out by exactly those
calls that are refused without a refresh or after it; and no call waits for
ever. -/
theorem refresh_shared (events : List Event) :
    let page := run opened events
    (page.refreshes.countP RefreshPhase.shareable =
        page.refreshing.isSome.toNat) ∧
      (∀ shared ∈ page.refreshing, ∃ phase,
        page.refreshes[shared]? = some phase ∧ phase.shareable = true) ∧
      (∀ call ∈ page.calls, History page.refreshes call) ∧
      page.signOuts = page.calls.countP Call.refused ∧
      effective opened events ≤
        6 * events.countP (fun event => !event.inner) ∧
      ((∀ event : Event, event.inner = true → step page event = page) ↔
        (∀ call ∈ page.calls, ∃ answer, call.phase = .ended answer) ∧
          page.refreshing = none) := by
  intro page
  have coherent : Coherent page := coherent_opened.run events
  have bound := coherent_opened.effective_le events
  have nothing : opened.work = 0 := rfl
  refine ⟨coherent.singleFlight.countP, coherent.singleFlight.current,
    coherent.histories, coherent.counted, ?_, coherent.resting_iff⟩
  omega

/-! ## Signing out for good -/

/-- A refresh whose `fetch` is under way. -/
def Page.asking (page : Page) : Bool :=
  page.refreshes.contains .asked

/-- A call whose first answer can still ask for a refresh. -/
def Call.renews (call : Call) : Bool :=
  call.auth && call.phase == .sent false

/-- How many calls have been sent with a token. -/
def Page.tokensSent (page : Page) : Nat :=
  (page.calls.map fun call => call.bearers.countP Option.isSome).sum

/-- What asks for a session: a sign-in, the resumption of one, or a call of a
page that takes the user to be signed in. -/
def Event.asksSession : Event → Bool
  | .requests auth => auth
  | .mounts | .signsIn _ => true
  | _ => false

/-- Nothing on the page can bring a token. -/
structure Quiet (page : Page) : Prop where
  token : page.accessToken = none
  refreshes : page.asking = false
  calls : ∀ call ∈ page.calls, call.renews = false

theorem tokensSent_put {index : Nat} {before : Call} (after : Call)
    (found : page.calls[index]? = some before) :
    (page.put index after).tokensSent + before.bearers.countP Option.isSome =
      page.tokensSent + after.bearers.countP Option.isSome :=
  sum_map_set_add found after fun call => call.bearers.countP Option.isSome

theorem tokensSent_request (isNone : page.bearer auth = none) :
    (page.request auth).tokensSent = page.tokensSent := by
  simp [Page.tokensSent, Page.request, isNone]

theorem Quiet.put {index : Nat} {before : Call} (after : Call)
    (quiet : Quiet page) (found : page.calls[index]? = some before)
    (stays : after.renews = false)
    (same : after.bearers.countP Option.isSome =
      before.bearers.countP Option.isSome) :
    Quiet (page.put index after) ∧
      (page.put index after).tokensSent = page.tokensSent := by
  constructor
  · refine ⟨quiet.token, quiet.refreshes, fun call member => ?_⟩
    rcases List.mem_or_eq_of_mem_set member with earlier | rfl
    · exact quiet.calls call earlier
    · exact stays
  · have put := tokensSent_put after found
    omega

theorem Quiet.logout (quiet : Quiet page) :
    Quiet page.logout ∧ page.logout.tokensSent = page.tokensSent := by
  constructor
  · refine ⟨rfl, quiet.refreshes, fun call member => ?_⟩
    rcases List.mem_append.mp member with earlier | made
    · exact quiet.calls call earlier
    · obtain rfl := List.mem_singleton.mp made
      rfl
  · exact tokensSent_request rfl

/-- Signing out once more. -/
theorem Quiet.signsOut {index : Nat} {before : Call} (after : Call)
    (quiet : Quiet page) (found : page.calls[index]? = some before)
    (stays : after.renews = false)
    (same : after.bearers.countP Option.isSome =
      before.bearers.countP Option.isSome) :
    Quiet (page.unauthorized.put index after) ∧
      (page.unauthorized.put index after).tokensSent = page.tokensSent := by
  obtain ⟨out, sent⟩ := quiet.logout
  obtain ⟨bound, _⟩ := List.getElem?_eq_some_iff.mp found
  have found' : page.unauthorized.calls[index]? = some before := by
    simpa [Page.unauthorized, Page.logout, Page.request,
      List.getElem?_append_left bound] using found
  have again : Quiet page.unauthorized := ⟨out.token, out.refreshes, out.calls⟩
  obtain ⟨stillQuiet, put⟩ := again.put after found' stays same
  exact ⟨stillQuiet, put.trans sent⟩

theorem Quiet.answered (quiet : Quiet page) (index : Nat) (answer : Answer) :
    Quiet (page.answered index answer) ∧
      (page.answered index answer).tokensSent = page.tokensSent := by
  unfold Page.answered
  cases found : page.calls[index]? with
  | none => exact ⟨quiet, rfl⟩
  | some call =>
      obtain ⟨auth, bearers, awaited, phase⟩ := call
      cases phase with
      | waits shared => exact ⟨quiet, rfl⟩
      | ended ending => exact ⟨quiet, rfl⟩
      | sent retried =>
          by_cases refused : answer = .status 401 ∧ auth = true
          · obtain ⟨rfl, rfl⟩ := refused
            cases retried with
            | true =>
                simp only [and_self, if_true]
                exact quiet.signsOut _ found (by simp [Call.renews]) rfl
            | false =>
                have renews := quiet.calls _ (List.mem_of_getElem? found)
                simp [Call.renews] at renews
          · simp only [refused, if_false]
            exact quiet.put _ found (by simp [Call.renews]) rfl

theorem Quiet.resumed (quiet : Quiet page) (index : Nat) :
    Quiet (page.resumed index) ∧
      (page.resumed index).tokensSent = page.tokensSent := by
  unfold Page.resumed
  cases found : page.calls[index]? with
  | none => exact ⟨quiet, rfl⟩
  | some call =>
      obtain ⟨auth, bearers, awaited, phase⟩ := call
      cases phase with
      | sent retried => exact ⟨quiet, rfl⟩
      | ended ending => exact ⟨quiet, rfl⟩
      | waits shared =>
          have noToken : page.bearer auth = none := by
            cases auth <;> simp [Page.bearer, quiet.token]
          simp only
          split
          · exact quiet.put _ found (by simp [Call.renews])
              (by simp [noToken])
          · exact quiet.signsOut _ found (by simp [Call.renews]) rfl
          · exact ⟨quiet, rfl⟩

theorem Quiet.refreshed (quiet : Quiet page) (token : Option String) :
    page.refreshed token = page := by
  unfold Page.refreshed
  cases page.refreshing with
  | none => rfl
  | some shared =>
      have notAsked : page.refreshes[shared]? ≠ some .asked := by
        intro found
        have asking := quiet.refreshes
        simp only [Page.asking, List.contains_eq_mem,
          decide_eq_false_iff_not] at asking
        exact asking (List.mem_of_getElem? found)
      cases found : page.refreshes[shared]? with
      | none => simp only [found]
      | some phase =>
          cases phase with
          | asked => exact absurd found notAsked
          | answered renewed => simp only [found]
          | cleared renewed => simp only [found]

theorem Quiet.cleared (quiet : Quiet page) :
    Quiet page.cleared ∧ page.cleared.tokensSent = page.tokensSent := by
  unfold Page.cleared
  cases page.refreshing with
  | none => exact ⟨quiet, rfl⟩
  | some shared =>
      simp only
      split
      · refine ⟨⟨quiet.token, ?_, quiet.calls⟩, rfl⟩
        have asking := quiet.refreshes
        simp only [Page.asking, List.contains_eq_mem,
          decide_eq_false_iff_not, Page.settle] at asking ⊢
        intro member
        rcases List.mem_or_eq_of_mem_set member with earlier | same
        · exact asking earlier
        · cases same
      · exact ⟨quiet, rfl⟩

theorem Quiet.step (quiet : Quiet page) {event : Event}
    (idle : event.asksSession = false) :
    Quiet (step page event) ∧
      (step page event).tokensSent = page.tokensSent := by
  cases event with
  | requests auth =>
      obtain rfl : auth = false := idle
      refine ⟨⟨quiet.token, quiet.refreshes, fun call member => ?_⟩,
        tokensSent_request rfl⟩
      rcases List.mem_append.mp member with earlier | made
      · exact quiet.calls call earlier
      · obtain rfl := List.mem_singleton.mp made
        rfl
  | mounts => cases idle
  | signsIn token => cases idle
  | signsOut => exact quiet.logout
  | drops => exact ⟨⟨rfl, quiet.refreshes, quiet.calls⟩, rfl⟩
  | answered index answer => exact quiet.answered index answer
  | refreshed token =>
      have same := quiet.refreshed token
      simp only [SessionRefresh.step]
      rw [same]
      exact ⟨quiet, rfl⟩
  | cleared => exact quiet.cleared
  | resumed index => exact quiet.resumed index

theorem Quiet.run (quiet : Quiet page) {events : List Event}
    (idle : ∀ event ∈ events, event.asksSession = false) :
    Quiet (run page events) ∧
      (run page events).tokensSent = page.tokensSent := by
  induction events generalizing page with
  | nil => exact ⟨quiet, rfl⟩
  | cons event rest inductionHypothesis =>
      obtain ⟨first, others⟩ := List.forall_mem_cons.mp idle
      obtain ⟨next, sent⟩ := quiet.step first
      obtain ⟨last, total⟩ := inductionHypothesis next others
      exact ⟨last, total.trans sent⟩

theorem refreshed_accessToken {shared : Nat} {token : String}
    (isShared : page.refreshing = some shared)
    (found : page.refreshes[shared]? = some .asked) :
    (page.refreshed (some token)).accessToken = some token := by
  simp [Page.refreshed, isShared, found]

theorem answered_asks {index : Nat} (isNone : page.refreshing = none)
    (found : page.calls[index]? = some call) (renews : call.renews = true) :
    (page.answered index (.status 401)).refreshing =
        some page.refreshes.length ∧
      (page.answered index (.status 401)).refreshes =
        page.refreshes ++ [.asked] := by
  simp only [Call.renews, Bool.and_eq_true, beq_iff_eq] at renews
  simp [Page.answered, found, renews.1, renews.2, Page.tryRefresh, isNone,
    Page.put]

theorem Coherent.refreshing_cleared (coherent : Coherent page)
    (noneAsked : page.asking = false) :
    page.cleared.refreshing = none ∧ page.cleared.calls = page.calls := by
  cases isShared : page.refreshing with
  | none => simp [Page.cleared, isShared]
  | some shared =>
      obtain ⟨phase, found, shareable⟩ :=
        coherent.singleFlight.current shared isShared
      cases phase with
      | asked =>
          simp only [Page.asking, List.contains_eq_mem,
            decide_eq_false_iff_not] at noneAsked
          exact absurd (List.mem_of_getElem? found) noneAsked
      | answered renewed =>
          simp [Page.cleared, isShared, found, Page.settle]
      | cleared renewed => simp [RefreshPhase.shareable] at shareable

/-- A page that is not quiet can bring a token by itself. -/
theorem Coherent.revives (coherent : Coherent page)
    (loud : page.asking = true ∨ ∃ call ∈ page.calls, call.renews = true) :
    ∃ later : List Event, (∀ event ∈ later, event.asksSession = false) ∧
      (SessionRefresh.run page later).accessToken ≠ none := by
  by_cases asking : page.asking = true
  · simp only [Page.asking, List.contains_eq_mem, decide_eq_true_eq] at asking
    obtain ⟨shared, found⟩ := List.getElem?_of_mem asking
    have isShared := coherent.singleFlight.others shared _ found rfl
    refine ⟨[.refreshed (some "t")], by simp [Event.asksSession], ?_⟩
    have token : (page.refreshed (some "t")).accessToken = some "t" :=
      refreshed_accessToken isShared found
    simp only [SessionRefresh.run, List.foldl_cons, List.foldl_nil,
      SessionRefresh.step]
    rw [token]
    exact Option.some_ne_none _
  · have noneAsked : page.asking = false := by simpa using asking
    obtain ⟨call, member, renews⟩ := loud.resolve_left asking
    obtain ⟨index, found⟩ := List.getElem?_of_mem member
    obtain ⟨isNone, sameCalls⟩ := coherent.refreshing_cleared noneAsked
    rw [← sameCalls] at found
    obtain ⟨isShared, refreshes⟩ := answered_asks isNone found renews
    refine ⟨[.cleared, .answered index (.status 401), .refreshed (some "t")],
      by simp [Event.asksSession], ?_⟩
    have token : ((page.cleared.answered index (.status 401)).refreshed
        (some "t")).accessToken = some "t" :=
      refreshed_accessToken isShared (by rw [refreshes]; simp)
    simp only [SessionRefresh.run, List.foldl_cons, List.foldl_nil,
      SessionRefresh.step]
    rw [token]
    exact Option.some_ne_none _

/-- Signing out is final, until a session is asked for again, exactly when no
refresh is under way then and no authenticated call still awaits its first
answer. -/
theorem signOut_final_iff (events : List Event) :
    let page := run opened events
    (∀ later : List Event, (∀ event ∈ later, event.asksSession = false) →
        (run page.logout later).accessToken = none ∧
          (run page.logout later).tokensSent = page.tokensSent) ↔
      page.asking = false ∧ ∀ call ∈ page.calls, call.renews = false := by
  intro page
  have coherent : Coherent page.logout :=
    (coherent_opened.run events).logout
  constructor
  · intro final
    have quietOut : ¬(page.logout.asking = true ∨
        ∃ call ∈ page.logout.calls, call.renews = true) := by
      intro loud
      obtain ⟨later, idle, brings⟩ := coherent.revives loud
      exact brings (final later idle).1
    constructor
    · exact Bool.eq_false_iff.mpr fun asking => quietOut (.inl asking)
    · intro call member
      refine Bool.eq_false_iff.mpr fun renews => quietOut (.inr ?_)
      exact ⟨call, List.mem_append_left _ member, renews⟩
  · rintro ⟨asking, calls⟩ later idle
    have quiet : Quiet page.logout := by
      refine ⟨rfl, asking, fun call member => ?_⟩
      rcases List.mem_append.mp member with earlier | made
      · exact calls call earlier
      · obtain rfl := List.mem_singleton.mp made
        rfl
    obtain ⟨last, sent⟩ := quiet.run idle
    exact ⟨last.token, sent.trans (tokensSent_request rfl)⟩

end AssessmentPlatform.SessionRefresh
