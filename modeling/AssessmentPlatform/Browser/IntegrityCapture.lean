import AssessmentPlatform.Browser.Clipboard
import AssessmentPlatform.Records.Candidates

/-!
# What a candidate's browser records

The hook `useIntegrity` of `integrity.ts` during one page load: which signals it
records, which of them a full queue drops, and which batches it posts.  The
hook's own record of all signals and of all samples of the window is kept
beside its state.
-/

namespace AssessmentPlatform.Capture

open Clipboard

/-- `MAX_BATCH` -/
def maxBatch : Nat := 50

/-- `AWAY_NOTICE_MS` -/
def awayNoticeMs : Int := 1500

/-- `DEVTOOLS_GROWTH_PX` -/
def devtoolsGrowthPx : Int := 200

/-- What the page is, for as long as it is loaded. -/
structure Setting where
  candidateEmail : String
  /-- `fullscreenSupported()` -/
  fullscreenSupported : Bool

/-- The window's state at a `check`: whether the page is in fullscreen, and
`currentGap()`. -/
structure Sample where
  fullscreen : Bool
  gap : Int
  deriving DecidableEq, Repr

/-- The queue; every signal that was seen, also those that a full queue has
dropped; and the batches that were posted. -/
structure Log where
  queue : List IntegrityEventIn
  observed : List IntegrityEventIn
  dropped : Nat
  posted : List IntegrityEventsIn
  deriving DecidableEq, Repr

/-- What the devtools heuristic keeps, and all samples it was given. -/
structure Watch where
  devtoolsReported : Bool
  narrowestWindowed : Option Int
  narrowestFullscreen : Option Int
  samples : List Sample
  deriving DecidableEq, Repr

/-- What the paste rule keeps, and all texts copied or cut under it. -/
structure Memory where
  copied : List String
  texts : List String
  deriving DecidableEq, Repr

/-- The hook: its props, refs and state. -/
structure Hook extends Log, Watch, Memory where
  enabled : Bool
  questionId : Option String
  startedAt : Option Int
  awaySince : Option Int
  fullscreenLeftAt : Option Int
  mustReturn : Bool
  fullscreenExits : Nat
  pasteBlocked : Option Nat
  awayNotice : Option Int
  deriving DecidableEq, Repr

/-- The hook of a page that has just been loaded. -/
def loaded : Hook where
  toLog := ⟨[], [], 0, []⟩
  toWatch := ⟨false, none, none, []⟩
  toMemory := ⟨[], []⟩
  enabled := false
  questionId := none
  startedAt := none
  awaySince := none
  fullscreenLeftAt := none
  mustReturn := false
  fullscreenExits := 0
  pasteBlocked := none
  awayNotice := none

/-- `text.length`, which counts UTF-16 code units. -/
def utf16Length (text : String) : Nat :=
  (text.toList.map fun char => if char.toNat < 0x10000 then 1 else 2).sum

/-- The queue with one more signal. -/
def Log.enqueue (log : Log) (event : IntegrityEventIn) : Log :=
  if maxBatch ≤ log.queue.length then
    { log with
      observed := log.observed ++ [event], dropped := log.dropped + 1 }
  else
    { log with
      observed := log.observed ++ [event], queue := log.queue ++ [event] }

/-- The queue as one batch. -/
def Log.flush (log : Log) (candidateEmail : String)
    (questionId : Option String) : Log :=
  if log.queue.isEmpty then log
  else
    { log with
      queue := []
      posted := log.posted ++ [⟨candidateEmail, questionId, log.queue⟩] }

namespace Watch

variable (watch : Watch)

/-- The narrowest gap seen in the window's present state. -/
def narrowestGap (fullscreen : Bool) : Option Int :=
  if fullscreen then watch.narrowestFullscreen else watch.narrowestWindowed

/-- The narrowest gap with one more sample. -/
def narrowed (sample : Sample) : Watch :=
  let seen := { watch with samples := watch.samples ++ [sample] }
  if (watch.narrowestGap sample.fullscreen).all (sample.gap < ·) then
    if sample.fullscreen then
      { seen with narrowestFullscreen := some sample.gap }
    else { seen with narrowestWindowed := some sample.gap }
  else seen

/-- The gap has grown too far. -/
def grown (sample : Sample) : Bool :=
  (watch.narrowestGap sample.fullscreen).any
    fun baseline => devtoolsGrowthPx < sample.gap - baseline

end Watch

namespace Hook

variable (setting : Setting) (now : Int) (hook : Hook)

/-! ## The queue -/

/-- The signal that `enqueue` makes. -/
def signal (kind : String) (durationMs size : Option Int) (blocked : Bool) :
    IntegrityEventIn where
  kind := kind
  offsetMs := max 0 (now - hook.startedAt.getD now)
  durationMs := durationMs
  size := size
  blocked := blocked

/-- `enqueue` -/
def enqueue (kind : String) (durationMs size : Option Int) (blocked : Bool) :
    Hook :=
  { hook with
    toLog := hook.toLog.enqueue
      (hook.signal now kind durationMs size blocked) }

/-- `record` -/
def record (kind : String) (durationMs size : Option Int) (blocked : Bool) :
    Hook :=
  if hook.enabled then hook.enqueue now kind durationMs size blocked else hook

/-- `flush` -/
def flush : Hook :=
  if hook.enabled then
    { hook with
      toLog := hook.toLog.flush setting.candidateEmail hook.questionId }
  else hook

/-! ## The listeners -/

/-- `onVisibility` -/
def onVisibility (hidden : Bool) : Hook :=
  if !hook.enabled then hook
  else if hidden then { hook with awaySince := some now }
  else
    match hook.awaySince with
    | none => hook
    | some since =>
        let away := now - since
        let seen := { hook with awaySince := none }.record now "focus_loss"
          (some away) none false
        if awayNoticeMs ≤ away then { seen with awayNotice := some away }
        else seen

/-- `onChange` -/
def onFullscreenChange (inside : Bool) : Hook :=
  if !hook.enabled || !setting.fullscreenSupported then hook
  else if inside then
    match hook.fullscreenLeftAt with
    | none => { hook with mustReturn := false }
    | some leftAt =>
        let seen := hook.record now "fullscreen_exit" (some (now - leftAt))
          none false
        { seen with fullscreenLeftAt := none, mustReturn := false }
  else
    { hook with
      fullscreenLeftAt := some now
      fullscreenExits := hook.fullscreenExits + 1
      mustReturn := true }

/-- `remember` of the paste rule. -/
def onCopy (text : String) : Hook :=
  if hook.enabled then
    { hook with
      copied := remember hook.copied text, texts := hook.texts ++ [text] }
  else hook

/-- `onPaste`, and whether it keeps the paste from the editor. -/
def onPaste (text : String) : Hook × Bool :=
  let key := normalizeClipboard text
  if !hook.enabled || key == "" then (hook, false)
  else if hook.copied.contains key then
    (hook.record now "paste_internal" none (some (utf16Length text)) false,
      false)
  else
    let seen := hook.record now "paste_external" none
      (some (utf16Length text)) true
    ({ seen with pasteBlocked := some (utf16Length text) }, true)

/-- `check` -/
def check (sample : Sample) : Hook :=
  let seen := { hook with toWatch := hook.toWatch.narrowed sample }
  if seen.devtoolsReported then seen
  else if seen.grown sample then
    { seen with devtoolsReported := true }.record now "devtools" none none false
  else seen

/-- `startedAt.current ??= Date.now()` -/
def begin' : Hook :=
  { hook with startedAt := some (hook.startedAt.getD now) }

end Hook

/-- What happens next to the page. -/
inductive Event where
  /-- The sitting becomes monitored, and stops being so. -/
  | enables (sample : Sample)
  | disables
  | startedAtMs (start : Int)
  | opens (questionId : Option String)
  | visibility (hidden : Bool)
  | fullscreenChange (inside : Bool)
  | copies (text : String)
  | pastes (text : String)
  | resizes (sample : Sample)
  /-- The timer, `pagehide`, or a submit. -/
  | flushes
  | entersFullscreen
  | fullscreenGranted
  | fullscreenDenied
  | dismissesPasteBlock
  | dismissesAwayNotice
  deriving DecidableEq, Repr

/-- One step of the page at one time. -/
def step (setting : Setting) (hook : Hook) : Int × Event → Hook
  | (now, .enables sample) =>
      if hook.enabled then hook
      else ({ hook with enabled := true }.check now sample).begin' now
  | (_, .disables) => { hook.flush setting with enabled := false }
  | (_, .startedAtMs start) => { hook with startedAt := some start }
  | (_, .opens questionId) => { hook with questionId := questionId }
  | (now, .visibility hidden) => hook.onVisibility now hidden
  | (now, .fullscreenChange inside) =>
      hook.onFullscreenChange setting now inside
  | (_, .copies text) => hook.onCopy text
  | (now, .pastes text) => (hook.onPaste now text).1
  | (now, .resizes sample) =>
      if hook.enabled then hook.check now sample else hook
  | (_, .flushes) => hook.flush setting
  | (now, .entersFullscreen) =>
      if setting.fullscreenSupported then hook.begin' now else hook
  | (_, .fullscreenGranted) => { hook with mustReturn := false }
  | (now, .fullscreenDenied) =>
      { hook.enqueue now "fullscreen_denied" none none false with
        mustReturn := false }
  | (_, .dismissesPasteBlock) => { hook with pasteBlocked := none }
  | (_, .dismissesAwayNotice) => { hook with awayNotice := none }

/-- A page load. -/
def run (setting : Setting) (events : List (Int × Event)) : Hook :=
  events.foldl (step setting) loaded

/-! ## What the server's schema asks -/

/-- `IntegrityEventKind` -/
def eventKinds : List String :=
  ["focus_loss", "fullscreen_exit", "fullscreen_denied", "paste_external",
    "paste_internal", "devtools"]

/-- The constraints of `IntegrityEventIn`. -/
def validEvent (event : IntegrityEventIn) : Bool :=
  eventKinds.contains event.kind && decide (0 ≤ event.offsetMs) &&
    event.durationMs.all (0 ≤ ·) && event.size.all (0 ≤ ·)

/-- The constraints of `IntegrityEventsIn`, its address apart. -/
def validBatch (body : IntegrityEventsIn) : Bool :=
  1 ≤ body.events.length && body.events.length ≤ 50 &&
    body.events.all validEvent

/-! ## The log -/

/-- The signals that were posted. -/
def Log.sent (log : Log) : List IntegrityEventIn :=
  log.posted.flatMap IntegrityEventsIn.events

/-- Nothing is recorded twice or out of order, and a full queue is what loses a
signal. -/
structure Log.Accounted (log : Log) : Prop where
  bounded : log.queue.length ≤ maxBatch
  sublist : (log.sent ++ log.queue).Sublist log.observed
  counted : log.observed.length =
    log.sent.length + log.queue.length + log.dropped
  batches : ∀ body ∈ log.posted,
    1 ≤ body.events.length ∧ body.events.length ≤ maxBatch

variable {log : Log}

theorem Log.Accounted.enqueue (accounted : log.Accounted)
    (event : IntegrityEventIn) : (log.enqueue event).Accounted := by
  have counted := accounted.counted
  by_cases full : maxBatch ≤ log.queue.length
  · simp only [Log.enqueue, full, if_true]
    refine ⟨accounted.bounded, ?_, ?_, accounted.batches⟩
    · exact accounted.sublist.trans (List.sublist_append_left _ _)
    · simp only [Log.sent] at counted ⊢
      rw [List.length_append, List.length_singleton]
      omega
  · simp only [Log.enqueue, full, if_false]
    refine ⟨?_, ?_, ?_, accounted.batches⟩
    · rw [List.length_append, List.length_singleton]
      omega
    · simp only [Log.sent]
      rw [← List.append_assoc]
      exact accounted.sublist.append_right [event]
    · simp only [Log.sent] at counted ⊢
      rw [List.length_append, List.length_append, List.length_singleton]
      omega

theorem Log.Accounted.flush (accounted : log.Accounted)
    (candidateEmail : String) (questionId : Option String) :
    (log.flush candidateEmail questionId).Accounted := by
  by_cases empty : log.queue.isEmpty = true
  · simpa only [Log.flush, empty, if_true] using accounted
  · have some' : 1 ≤ log.queue.length := by
      rw [List.isEmpty_iff] at empty
      exact List.length_pos_iff.mpr empty
    have moved : (log.flush candidateEmail questionId).sent =
        log.sent ++ log.queue := by
      simp [Log.flush, empty, Log.sent]
    refine ⟨?_, ?_, ?_, ?_⟩
    · simp [Log.flush, empty]
    · rw [moved]
      simpa [Log.flush, empty] using accounted.sublist
    · have counted := accounted.counted
      rw [moved, List.length_append]
      simpa [Log.flush, empty] using counted
    · intro body member
      simp only [Log.flush, empty, Bool.false_eq_true, if_false,
        List.mem_append, List.mem_singleton] at member
      rcases member with earlier | rfl
      · exact accounted.batches body earlier
      · exact ⟨some', accounted.bounded⟩

/-! ## What a step does to the log -/

variable {setting : Setting} {now : Int} {hook after : Hook}

/-- The times that the hook keeps are past. -/
structure Timely (hook : Hook) (now : Int) : Prop where
  away : ∀ since ∈ hook.awaySince, since ≤ now
  left : ∀ leftAt ∈ hook.fullscreenLeftAt, leftAt ≤ now

/-- What one step can do to the log. -/
inductive Logs (now : Int) (hook after : Hook) : Prop where
  | quiet (log : after.toLog = hook.toLog)
      (same : after.devtoolsReported = hook.devtoolsReported)
  | sees (event : IntegrityEventIn)
      (valid : Timely hook now → validEvent event = true)
      (log : after.toLog = hook.toLog.enqueue event)
      (devtools : event.kind = "devtools" ∧
          hook.devtoolsReported = false ∧ after.devtoolsReported = true ∨
        event.kind ≠ "devtools" ∧
          after.devtoolsReported = hook.devtoolsReported)
  | posts (candidateEmail : String) (questionId : Option String)
      (log : after.toLog = hook.toLog.flush candidateEmail questionId)
      (same : after.devtoolsReported = hook.devtoolsReported)

theorem validEvent_signal {kind : String} {durationMs size : Option Int}
    {blocked : Bool} (known : kind ∈ eventKinds)
    (duration : ∀ ms ∈ durationMs, 0 ≤ ms) (sizes : ∀ n ∈ size, 0 ≤ n) :
    validEvent (hook.signal now kind durationMs size blocked) = true := by
  simp only [validEvent, Hook.signal, Bool.and_eq_true, List.contains_eq_mem,
    decide_eq_true_eq, Option.all_eq_true]
  exact ⟨⟨⟨known, decide_eq_true (le_max_left _ _)⟩, duration⟩, sizes⟩

/-- A recorded signal other than that of the devtools. -/
theorem Logs.record (before : Hook) (kind : String)
    (durationMs size : Option Int) (blocked : Bool)
    (known : kind ∈ eventKinds) (other : kind ≠ "devtools")
    (duration : Timely hook now → ∀ ms ∈ durationMs, 0 ≤ ms)
    (sizes : ∀ n ∈ size, 0 ≤ n)
    (sameLog : before.toLog = hook.toLog)
    (sameWatch : before.toWatch = hook.toWatch)
    (afterLog : after.toLog =
      (before.record now kind durationMs size blocked).toLog)
    (afterWatch : after.toWatch = before.toWatch) : Logs now hook after := by
  have same : after.devtoolsReported = hook.devtoolsReported := by
    rw [afterWatch, sameWatch]
  by_cases enabled : before.enabled = true
  · refine .sees (before.signal now kind durationMs size blocked) ?_ ?_
      (.inr ⟨other, same⟩)
    · intro timely
      exact validEvent_signal known (duration timely) sizes
    · rw [afterLog, ← sameLog]
      simp [Hook.record, enabled, Hook.enqueue]
  · refine .quiet ?_ same
    rw [afterLog, ← sameLog]
    simp [Hook.record, enabled]

/-- A signal goes to the log and nowhere else. -/
theorem record_eq (kind : String) (durationMs size : Option Int)
    (blocked : Bool) :
    hook.record now kind durationMs size blocked =
      { hook with
        toLog := (hook.record now kind durationMs size blocked).toLog } := by
  unfold Hook.record
  split <;> rfl

theorem toWatch_record (kind : String) (durationMs size : Option Int)
    (blocked : Bool) :
    (hook.record now kind durationMs size blocked).toWatch = hook.toWatch := by
  rw [record_eq]

theorem logs_flush : Logs now hook (hook.flush setting) := by
  unfold Hook.flush
  split
  · exact .posts setting.candidateEmail hook.questionId rfl rfl
  · exact .quiet rfl rfl

/-- The time since a past event. -/
theorem nonneg_since {past : Int} (le : past ≤ now) :
    ∀ ms ∈ some (now - past), 0 ≤ ms := by
  intro ms isMs
  obtain rfl := Option.mem_some.mp isMs
  omega

theorem logs_onVisibility (hidden : Bool) :
    Logs now hook (hook.onVisibility now hidden) := by
  unfold Hook.onVisibility
  split
  · exact .quiet rfl rfl
  split
  · exact .quiet rfl rfl
  split
  · exact .quiet rfl rfl
  · next since isAway =>
    refine .record { hook with awaySince := none } "focus_loss"
      (some (now - since)) none false (by decide) (by decide) ?_ (by simp) rfl
      rfl ?_ ?_
    · intro timely
      exact nonneg_since (timely.away since isAway)
    · dsimp only
      split <;> rfl
    · dsimp only
      split <;> exact toWatch_record _ _ _ _

theorem logs_onFullscreenChange (inside : Bool) :
    Logs now hook (hook.onFullscreenChange setting now inside) := by
  unfold Hook.onFullscreenChange
  split
  · exact .quiet rfl rfl
  split
  · split
    · exact .quiet rfl rfl
    · next leftAt hasLeft =>
      refine .record hook "fullscreen_exit" (some (now - leftAt)) none false
        (by decide) (by decide) ?_ (by simp) rfl rfl rfl
        (toWatch_record _ _ _ _)
      intro timely
      exact nonneg_since (timely.left leftAt hasLeft)
  · exact .quiet rfl rfl

theorem logs_onPaste (text : String) :
    Logs now hook (hook.onPaste now text).1 := by
  have size : ∀ n ∈ some (utf16Length text : Int), 0 ≤ n := by
    intro n isSize
    obtain rfl := Option.mem_some.mp isSize
    omega
  unfold Hook.onPaste
  dsimp only
  split
  · exact .quiet rfl rfl
  split
  · exact .record hook "paste_internal" none (some (utf16Length text)) false
      (by decide) (by decide) (by simp) size rfl rfl rfl
      (toWatch_record _ _ _ _)
  · exact .record hook "paste_external" none (some (utf16Length text)) true
      (by decide) (by decide) (by simp) size rfl rfl rfl
      (toWatch_record _ _ _ _)

theorem devtoolsReported_narrowed (watch : Watch) (sample : Sample) :
    (watch.narrowed sample).devtoolsReported = watch.devtoolsReported := by
  unfold Watch.narrowed
  dsimp only
  split
  · split <;> rfl
  · rfl

theorem logs_check (sample : Sample) (enabled : hook.enabled = true) :
    Logs now hook (hook.check now sample) := by
  have same := devtoolsReported_narrowed hook.toWatch sample
  unfold Hook.check
  dsimp only
  split
  · exact .quiet rfl same
  next unreported =>
  split
  · refine .sees (hook.signal now "devtools" none none false) ?_ ?_
      (.inl ⟨rfl, ?_, ?_⟩)
    · intro _
      exact validEvent_signal (by decide) (by simp) (by simp)
    · simp [Hook.record, enabled, Hook.enqueue, Hook.signal]
    · rw [← same]
      simpa using unreported
    · simp [Hook.record, enabled, Hook.enqueue]
  · exact .quiet rfl same

/-- Every step does one thing to the log. -/
theorem step_logs (event : Event) :
    Logs now hook (step setting hook (now, event)) := by
  cases event with
  | enables sample =>
      simp only [step]
      split
      · exact .quiet rfl rfl
      · have checked : Logs now { hook with enabled := true }
            ({ hook with enabled := true }.check now sample) :=
          logs_check sample rfl
        cases checked with
        | quiet log same => exact .quiet log same
        | sees event valid log devtools =>
            exact .sees event (fun timely => valid ⟨timely.1, timely.2⟩) log
              devtools
        | posts email question log same => exact .posts email question log same
  | disables =>
      have flushed : Logs now hook (hook.flush setting) := logs_flush
      cases flushed with
      | quiet log same => exact .quiet log same
      | sees event valid log devtools => exact .sees event valid log devtools
      | posts email question log same => exact .posts email question log same
  | startedAtMs start => exact .quiet rfl rfl
  | opens questionId => exact .quiet rfl rfl
  | visibility hidden => exact logs_onVisibility hidden
  | fullscreenChange inside => exact logs_onFullscreenChange inside
  | copies text =>
      simp only [step, Hook.onCopy]
      split <;> exact .quiet rfl rfl
  | pastes text => exact logs_onPaste text
  | resizes sample =>
      simp only [step]
      split
      · next enabled => exact logs_check sample enabled
      · exact .quiet rfl rfl
  | flushes => exact logs_flush
  | entersFullscreen =>
      simp only [step]
      split <;> exact .quiet rfl rfl
  | fullscreenGranted => exact .quiet rfl rfl
  | fullscreenDenied =>
      refine .sees (hook.signal now "fullscreen_denied" none none false) ?_ rfl
        (.inr ⟨by simp [Hook.signal], rfl⟩)
      intro _
      exact validEvent_signal (by decide) (by simp) (by simp)
  | dismissesPasteBlock => exact .quiet rfl rfl
  | dismissesAwayNotice => exact .quiet rfl rfl

/-! ## The heuristic -/

/-- The heuristic after one more sample. -/
def Watch.checked (watch : Watch) (sample : Sample) : Watch :=
  { watch.narrowed sample with
    devtoolsReported :=
      watch.devtoolsReported || (watch.narrowed sample).grown sample }

/-- What one step can do to the rest of what the hook keeps. -/
inductive Keeps (now : Int) (hook after : Hook) : Prop where
  | samples (sample : Sample)
      (watch : after.toWatch = hook.toWatch.checked sample)
      (memory : after.toMemory = hook.toMemory)
      (away : after.awaySince = hook.awaySince)
      (left : after.fullscreenLeftAt = hook.fullscreenLeftAt)
  | copies (text : String) (watch : after.toWatch = hook.toWatch)
      (memory : after.toMemory =
        ⟨remember hook.copied text, hook.texts ++ [text]⟩)
      (away : after.awaySince = hook.awaySince)
      (left : after.fullscreenLeftAt = hook.fullscreenLeftAt)
  | times (watch : after.toWatch = hook.toWatch)
      (memory : after.toMemory = hook.toMemory)
      (away : ∀ since ∈ after.awaySince,
        hook.awaySince = some since ∨ since = now)
      (left : ∀ leftAt ∈ after.fullscreenLeftAt,
        hook.fullscreenLeftAt = some leftAt ∨ leftAt = now)

theorem Keeps.refl : Keeps now hook hook :=
  .times rfl rfl (fun _ => .inl) fun _ => .inl

/-- Nothing but the log and what the candidate is shown has changed. -/
theorem Keeps.same (watch : after.toWatch = hook.toWatch)
    (memory : after.toMemory = hook.toMemory)
    (away : after.awaySince = hook.awaySince)
    (left : after.fullscreenLeftAt = hook.fullscreenLeftAt) :
    Keeps now hook after := by
  refine .times watch memory ?_ ?_
  · intro since isSince
    exact .inl (away ▸ isSince)
  · intro leftAt isLeft
    exact .inl (left ▸ isLeft)

theorem keeps_check {before : Hook} (sample : Sample)
    (watch : before.toWatch = hook.toWatch)
    (memory : before.toMemory = hook.toMemory)
    (away : before.awaySince = hook.awaySince)
    (left : before.fullscreenLeftAt = hook.fullscreenLeftAt) :
    Keeps now hook (before.check now sample) := by
  have same := devtoolsReported_narrowed before.toWatch sample
  unfold Hook.check
  dsimp only
  split
  · next reported =>
    refine .samples sample ?_ memory away left
    rw [← watch, Watch.checked, ← same, reported, Bool.true_or, ← reported]
  next unreported =>
  split
  · next grown =>
    rw [record_eq]
    refine .samples sample ?_ memory away left
    rw [← watch, Watch.checked, grown, Bool.or_true]
  · next still =>
    refine .samples sample ?_ memory away left
    rw [← watch]
    simp [Watch.checked, still, ← same]

theorem step_keeps (event : Event) :
    Keeps now hook (step setting hook (now, event)) := by
  cases event with
  | enables sample =>
      simp only [step]
      split
      · exact .refl
      · have checked : Keeps now hook
            ({ hook with enabled := true }.check now sample) :=
          keeps_check sample rfl rfl rfl rfl
        cases checked with
        | samples seen watch memory away left =>
            exact .samples seen watch memory away left
        | copies text watch memory away left =>
            exact .copies text watch memory away left
        | times watch memory away left => exact .times watch memory away left
  | resizes sample =>
      simp only [step]
      split
      · exact keeps_check sample rfl rfl rfl rfl
      · exact .refl
  | copies text =>
      simp only [step, Hook.onCopy]
      split
      · exact .copies text rfl rfl rfl rfl
      · exact .refl
  | visibility hidden =>
      simp only [step, Hook.onVisibility]
      split
      · exact .refl
      split
      · exact .times rfl rfl
          (fun since isSince => .inr (Option.mem_some.mp isSince).symm)
          fun _ => .inl
      split
      · exact .refl
      · rw [record_eq]
        split <;>
          exact .times rfl rfl (fun since isSince => by cases isSince)
            fun _ => .inl
  | fullscreenChange inside =>
      simp only [step, Hook.onFullscreenChange]
      split
      · exact .refl
      split
      · split
        · exact .same rfl rfl rfl rfl
        · rw [record_eq]
          exact .times rfl rfl (fun _ => .inl)
            fun leftAt isLeft => by cases isLeft
      · exact .times rfl rfl (fun _ => .inl)
          fun leftAt isLeft => .inr (Option.mem_some.mp isLeft).symm
  | pastes text =>
      simp only [step, Hook.onPaste]
      split
      · exact .refl
      split
      · rw [record_eq]
        exact .same rfl rfl rfl rfl
      · rw [record_eq]
        exact .same rfl rfl rfl rfl
  | disables =>
      simp only [step, Hook.flush]
      split <;> exact .same rfl rfl rfl rfl
  | flushes =>
      simp only [step, Hook.flush]
      split <;> exact .same rfl rfl rfl rfl
  | entersFullscreen =>
      simp only [step]
      split <;> exact .same rfl rfl rfl rfl
  | startedAtMs start => exact .same rfl rfl rfl rfl
  | opens questionId => exact .same rfl rfl rfl rfl
  | fullscreenGranted => exact .same rfl rfl rfl rfl
  | fullscreenDenied => exact .same rfl rfl rfl rfl
  | dismissesPasteBlock => exact .same rfl rfl rfl rfl
  | dismissesAwayNotice => exact .same rfl rfl rfl rfl

/-- The gap has not grown too far from one sample to another. -/
def Steady (earlier later : Sample) : Prop :=
  earlier.fullscreen = later.fullscreen →
    later.gap - earlier.gap ≤ devtoolsGrowthPx

/-- The baselines are the least gaps of the samples, and the report says
whether a gap has grown too far. -/
structure Watch.Sound (watch : Watch) : Prop where
  unseen : ∀ fullscreen, watch.narrowestGap fullscreen = none →
    ∀ sample ∈ watch.samples, sample.fullscreen ≠ fullscreen
  attained : ∀ fullscreen, ∀ baseline ∈ watch.narrowestGap fullscreen,
    ∃ sample ∈ watch.samples,
      sample.fullscreen = fullscreen ∧ sample.gap = baseline
  least : ∀ fullscreen, ∀ baseline ∈ watch.narrowestGap fullscreen,
    ∀ sample ∈ watch.samples, sample.fullscreen = fullscreen →
      baseline ≤ sample.gap
  reported : watch.devtoolsReported = false ↔ watch.samples.Pairwise Steady

variable {watch : Watch} {sample : Sample}

theorem samples_narrowed :
    (watch.narrowed sample).samples = watch.samples ++ [sample] := by
  unfold Watch.narrowed
  dsimp only
  split
  · split <;> rfl
  · rfl

/-- The other state's baseline is left alone. -/
theorem narrowestGap_other {fullscreen : Bool}
    (other : sample.fullscreen ≠ fullscreen) :
    (watch.narrowed sample).narrowestGap fullscreen =
      watch.narrowestGap fullscreen := by
  obtain ⟨state, gap⟩ := sample
  unfold Watch.narrowed Watch.narrowestGap
  cases state with
  | true =>
      obtain rfl : fullscreen = false := by simpa using other
      simp only [if_true, Bool.false_eq_true, if_false]
      split <;> rfl
  | false =>
      obtain rfl : fullscreen = true := by simpa using other
      simp only [if_true, Bool.false_eq_true, if_false]
      split <;> rfl

theorem narrowestGap_own :
    (watch.narrowed sample).narrowestGap sample.fullscreen =
      some ((watch.narrowestGap sample.fullscreen).elim sample.gap
        (min sample.gap)) := by
  have settled (now : Option Int) (gap : Int) :
      (if now.all (gap < ·) then some gap else now) =
        some (now.elim gap (min gap)) := by
    cases now with
    | none => rfl
    | some baseline =>
        by_cases less : gap < baseline
        · simp [less, min_eq_left less.le]
        · simp [less, min_eq_right (not_lt.mp less)]
  obtain ⟨state, gap⟩ := sample
  unfold Watch.narrowed Watch.narrowestGap
  cases state with
  | true =>
      simp only [if_true]
      rw [← settled, apply_ite Watch.narrowestFullscreen]
  | false =>
      simp only [Bool.false_eq_true, if_false]
      rw [← settled, apply_ite Watch.narrowestWindowed]

/-- The gap has grown too far just now. -/
theorem Watch.Sound.grown_iff (sound : watch.Sound) (sample : Sample) :
    (watch.narrowed sample).grown sample = true ↔
      ∃ earlier ∈ watch.samples, ¬Steady earlier sample := by
  have growth : 0 ≤ devtoolsGrowthPx := by decide
  simp only [Watch.grown, narrowestGap_own, Option.any_some,
    decide_eq_true_eq, Steady, Classical.not_imp, not_le]
  cases narrowest : watch.narrowestGap sample.fullscreen with
  | none =>
      simp only [Option.elim_none, sub_self]
      constructor
      · intro grown
        omega
      · rintro ⟨earlier, member, same, _⟩
        exact absurd same (sound.unseen _ narrowest earlier member)
  | some baseline =>
      simp only [Option.elim_some]
      constructor
      · intro grown
        obtain ⟨earlier, member, same, isLeast⟩ :=
          sound.attained sample.fullscreen baseline narrowest
        refine ⟨earlier, member, same, ?_⟩
        omega
      · rintro ⟨earlier, member, same, grown⟩
        have le := sound.least _ baseline narrowest earlier member same
        omega

theorem Watch.Sound.check (sound : watch.Sound) (sample : Sample) :
    (watch.checked sample).Sound := by
  have gap (fullscreen : Bool) :
      (watch.checked sample).narrowestGap fullscreen =
        (watch.narrowed sample).narrowestGap fullscreen := rfl
  have samples : (watch.checked sample).samples = watch.samples ++ [sample] :=
    samples_narrowed
  refine ⟨?_, ?_, ?_, ?_⟩
  · intro fullscreen isNone
    rw [gap] at isNone
    simp only [samples, List.forall_mem_append, List.mem_singleton,
      forall_eq]
    have notOwn : sample.fullscreen ≠ fullscreen := by
      rintro rfl
      rw [narrowestGap_own] at isNone
      cases isNone
    rw [narrowestGap_other notOwn] at isNone
    exact ⟨sound.unseen fullscreen isNone, notOwn⟩
  · intro fullscreen baseline isBaseline
    rw [gap] at isBaseline
    simp only [samples, List.mem_append, List.mem_singleton]
    by_cases own : sample.fullscreen = fullscreen
    · subst own
      rw [narrowestGap_own] at isBaseline
      obtain rfl := Option.mem_some.mp isBaseline
      cases narrowest : watch.narrowestGap sample.fullscreen with
      | none => exact ⟨sample, .inr rfl, rfl, rfl⟩
      | some earlier =>
          obtain ⟨seen, member, same, isGap⟩ :=
            sound.attained sample.fullscreen earlier narrowest
          by_cases less : sample.gap ≤ earlier
          · exact ⟨sample, .inr rfl, rfl, (min_eq_left less).symm⟩
          · refine ⟨seen, .inl member, same, ?_⟩
            rw [isGap]
            exact (min_eq_right (not_le.mp less).le).symm
    · rw [narrowestGap_other own] at isBaseline
      obtain ⟨seen, member, rest⟩ :=
        sound.attained fullscreen baseline isBaseline
      exact ⟨seen, .inl member, rest⟩
  · intro fullscreen baseline isBaseline
    rw [gap] at isBaseline
    simp only [samples, List.forall_mem_append, List.mem_singleton,
      forall_eq]
    by_cases own : sample.fullscreen = fullscreen
    · subst own
      rw [narrowestGap_own] at isBaseline
      obtain rfl := Option.mem_some.mp isBaseline
      cases narrowest : watch.narrowestGap sample.fullscreen with
      | none =>
          refine ⟨fun seen member same => ?_, fun _ => le_refl _⟩
          exact absurd same (sound.unseen _ narrowest seen member)
      | some earlier =>
          refine ⟨fun seen member same => ?_, fun _ => min_le_left _ _⟩
          exact (min_le_right _ _).trans
            (sound.least _ earlier narrowest seen member same)
    · rw [narrowestGap_other own] at isBaseline
      exact ⟨sound.least fullscreen baseline isBaseline,
        fun same => absurd same own⟩
  · have grown := sound.grown_iff sample
    rw [samples]
    simp only [Watch.checked, Bool.or_eq_false_iff]
    rw [sound.reported, List.pairwise_append, ← Bool.not_eq_true, grown]
    simp only [List.pairwise_singleton, List.mem_singleton, forall_eq,
      true_and, not_exists, not_and, not_not]

theorem Watch.Sound.loaded : loaded.toWatch.Sound := by
  refine ⟨?_, ?_, ?_, ?_⟩
  · simp [Capture.loaded]
  · intro fullscreen baseline isBaseline
    cases fullscreen <;> cases isBaseline
  · simp [Capture.loaded]
  · simp [Capture.loaded]

/-! ## Runs -/

/-- What holds of the hook at any time. -/
structure Captured (hook : Hook) : Prop where
  accounted : hook.toLog.Accounted
  sound : hook.toWatch.Sound
  remembered : hook.copied = hook.texts.foldl remember []
  devtools : hook.observed.countP (·.kind == "devtools") =
    hook.devtoolsReported.toNat

theorem observed_enqueue (event : IntegrityEventIn) :
    (log.enqueue event).observed = log.observed ++ [event] := by
  unfold Log.enqueue
  split <;> rfl

theorem observed_flush (candidateEmail : String)
    (questionId : Option String) :
    (log.flush candidateEmail questionId).observed = log.observed := by
  unfold Log.flush
  split <;> rfl

theorem Captured.step (captured : Captured hook) (event : Event) :
    Captured (step setting hook (now, event)) := by
  have logs : Logs now hook (Capture.step setting hook (now, event)) :=
    step_logs event
  have keeps : Keeps now hook (Capture.step setting hook (now, event)) :=
    step_keeps event
  refine ⟨?_, ?_, ?_, ?_⟩
  · cases logs with
    | quiet log _ => simpa only [log] using captured.accounted
    | sees seen _ log _ =>
        rw [log]
        exact captured.accounted.enqueue seen
    | posts email question log _ =>
        rw [log]
        exact captured.accounted.flush email question
  · cases keeps with
    | samples sample watch _ _ _ =>
        rw [watch]
        exact captured.sound.check sample
    | copies text watch _ _ _ => simpa only [watch] using captured.sound
    | times watch _ _ _ => simpa only [watch] using captured.sound
  · cases keeps with
    | samples sample _ memory _ _ =>
        simpa only [memory] using captured.remembered
    | copies text _ memory _ _ =>
        rw [memory]
        simp [captured.remembered]
    | times _ memory _ _ => simpa only [memory] using captured.remembered
  · have devtools := captured.devtools
    cases logs with
    | quiet log same => rw [log, same, devtools]
    | sees seen _ log isDevtools =>
        rw [log, observed_enqueue, List.countP_append, devtools]
        rcases isDevtools with ⟨kind, before, after⟩ | ⟨kind, same⟩
        · simp [kind, before, after]
        · simp [kind, same]
    | posts email question log same =>
        rw [log, observed_flush, same, devtools]

theorem captured_run (setting : Setting) (events : List (Int × Event)) :
    Captured (run setting events) := by
  induction events using List.reverseRecOn with
  | nil =>
      refine ⟨⟨?_, ?_, ?_, ?_⟩, Watch.Sound.loaded, rfl, rfl⟩ <;>
        simp [run, loaded, Log.sent, maxBatch]
  | append_singleton earlier next inductionHypothesis =>
      have last : run setting (earlier ++ [next]) =
          step setting (run setting earlier) (next.1, next.2) := by
        simp [run, List.foldl_append]
      rw [last]
      exact inductionHypothesis.step next.2

theorem Timely.later (timely : Timely hook now) {next : Int}
    (le : now ≤ next) : Timely hook next :=
  ⟨fun since isSince => (timely.away since isSince).trans le,
    fun leftAt isLeft => (timely.left leftAt isLeft).trans le⟩

theorem Timely.step (timely : Timely hook now) (event : Event) :
    Timely (step setting hook (now, event)) now := by
  have keeps : Keeps now hook (Capture.step setting hook (now, event)) :=
    step_keeps event
  cases keeps with
  | samples sample _ _ away left =>
      constructor
      · simpa only [away] using timely.away
      · simpa only [left] using timely.left
  | copies text _ _ away left =>
      constructor
      · simpa only [away] using timely.away
      · simpa only [left] using timely.left
  | times _ _ away left =>
      constructor
      · intro since isSince
        rcases away since isSince with earlier | rfl
        · exact timely.away since earlier
        · exact le_refl since
      · intro leftAt isLeft
        rcases left leftAt isLeft with earlier | rfl
        · exact timely.left leftAt earlier
        · exact le_refl leftAt

/-- On a clock that does not go back, every signal meets the schema. -/
theorem valid_run (setting : Setting) {events : List (Int × Event)}
    (clock : events.Pairwise fun earlier later => earlier.1 ≤ later.1) :
    (∀ event ∈ (run setting events).observed, validEvent event = true) ∧
      ∀ now, (∀ pair ∈ events, pair.1 ≤ now) →
        Timely (run setting events) now := by
  induction events using List.reverseRecOn with
  | nil =>
      constructor
      · simp [run, loaded]
      · exact fun now _ => ⟨by simp [run, loaded], by simp [run, loaded]⟩
  | append_singleton earlier next inductionHypothesis =>
      obtain ⟨clock', _, upTo⟩ := List.pairwise_append.mp clock
      obtain ⟨valid, timely⟩ := inductionHypothesis clock'
      have isTimely : Timely (run setting earlier) next.1 :=
        timely next.1 fun pair member =>
          upTo pair member next List.mem_cons_self
      have last : run setting (earlier ++ [next]) =
          step setting (run setting earlier) (next.1, next.2) := by
        simp [run, List.foldl_append]
      rw [last]
      have logs : Logs next.1 (run setting earlier)
          (step setting (run setting earlier) (next.1, next.2)) :=
        step_logs next.2
      constructor
      · cases logs with
        | quiet log _ => simpa only [log] using valid
        | sees seen isValid log _ =>
            rw [log, observed_enqueue]
            intro event member
            rcases List.mem_append.mp member with before | isSeen
            · exact valid event before
            · obtain rfl := List.mem_singleton.mp isSeen
              exact isValid isTimely
        | posts email question log _ =>
            rw [log, observed_flush]
            exact valid
      · intro now upToNow
        have le : next.1 ≤ now := upToNow next (by simp)
        exact (isTimely.step next.2).later le

/-- What was posted is part of what was seen. -/
theorem Log.Accounted.mem_observed (accounted : log.Accounted)
    {body : IntegrityEventsIn} (isPosted : body ∈ log.posted)
    {event : IntegrityEventIn} (member : event ∈ body.events) :
    event ∈ log.observed := by
  refine accounted.sublist.mem (List.mem_append_left _ ?_)
  exact List.mem_flatMap.mpr ⟨body, isPosted, member⟩

/-- A paste is kept from the editor exactly when its words are not those of one
of the last distinct texts copied on the page. -/
theorem Captured.onPaste_iff (captured : Captured hook) (now : Int)
    (text : String) :
    (hook.onPaste now text).2 = true ↔
      hook.enabled = true ∧ words text.toList ≠ [] ∧
        normalizeClipboard text ∉
          (keys hook.texts).dedup.rtake copyMemory := by
  rw [← foldl_remember, ← captured.remembered, ne_eq,
    ← normalizeClipboard_eq_empty_iff]
  unfold Hook.onPaste
  dsimp only
  split
  · next allowed =>
    simp only [Bool.or_eq_true, Bool.not_eq_true', beq_iff_eq] at allowed
    rcases allowed with off | empty
    · simp [off]
    · simp [empty]
  next governed =>
  simp only [Bool.or_eq_true, Bool.not_eq_true', beq_iff_eq, not_or,
    Bool.not_eq_false] at governed
  split
  · next copied => simpa [governed] using copied
  · next foreign => simpa [governed] using foreign

/-- What the page records: a paste is blocked exactly when its words are not
among the last distinct copies, the devtools are reported, once, exactly when
the gap has grown too far within one state of the window, every signal is posted
at most once and in order unless a full queue dropped it, and no batch is one
that the server's schema refuses. -/
theorem capture_exact (setting : Setting) (events : List (Int × Event)) :
    let hook := run setting events
    (∀ now text, (hook.onPaste now text).2 = true ↔
        hook.enabled = true ∧ words text.toList ≠ [] ∧
          normalizeClipboard text ∉
            (keys hook.texts).dedup.rtake copyMemory) ∧
      (hook.devtoolsReported = true ↔ ¬hook.samples.Pairwise Steady) ∧
      hook.observed.countP (·.kind == "devtools") =
        hook.devtoolsReported.toNat ∧
      (hook.sent ++ hook.queue).Sublist hook.observed ∧
      (hook.dropped = 0 ↔ hook.sent ++ hook.queue = hook.observed) ∧
      ((events.Pairwise fun earlier later => earlier.1 ≤ later.1) →
        ∀ body ∈ hook.posted, validBatch body = true) := by
  intro hook
  have captured : Captured hook := captured_run setting events
  have accounted := captured.accounted
  refine ⟨captured.onPaste_iff, ?_, captured.devtools, accounted.sublist, ?_,
    ?_⟩
  · rw [← captured.sound.reported, Bool.not_eq_false]
  · have counted := accounted.counted
    rw [← List.length_append] at counted
    constructor
    · intro none
      exact accounted.sublist.eq_of_length (by omega)
    · intro same
      rw [same] at counted
      omega
  · intro clock body isPosted
    obtain ⟨some', few⟩ := accounted.batches body isPosted
    have valid := (valid_run setting clock).1
    simp only [validBatch, Bool.and_eq_true, decide_eq_true_eq,
      List.all_eq_true]
    exact ⟨⟨some', few⟩, fun event member =>
      valid event (accounted.mem_observed isPosted member)⟩

/-- The window is made smaller by more than the heuristic allows, and a text
from elsewhere is pasted. -/
def docked : List (Int × Event) :=
  [(0, .enables ⟨false, 90⟩), (10, .resizes ⟨true, 0⟩),
    (20, .resizes ⟨false, 320⟩), (30, .pastes "x = 1"), (40, .flushes)]

theorem capture_exact_docked :
    (run ⟨"c@x", true⟩ docked).posted.all validBatch = true := by
  have exact' := (capture_exact ⟨"c@x", true⟩ docked).2.2.2.2.2 (by decide)
  exact List.all_eq_true.mpr exact'

end AssessmentPlatform.Capture
