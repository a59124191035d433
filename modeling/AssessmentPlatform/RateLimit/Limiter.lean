import AssessmentPlatform.Models
import AssessmentPlatform.Interleaving.RowTable
import AssessmentPlatform.Interleaving.RelyGuarantee

/-!
# The shared rate limiter

`DbRateLimiter.check` as a program over the table of counters, which any number
of workers share.  A row that has been deleted stays in the table as `none`, so
that a DELETE is staged and committed like any other write.
-/

namespace AssessmentPlatform.RateLimit

open Interleaving

/-- The table `ratelimitcounter`. -/
abbrev Counters : Type :=
  RowTable Nat CounterKey (Option RateLimitCounter)

/-- The statements of a check. -/
inductive Op where
  | purge (cutoff : Int)
  | increment (key : CounterKey) (maxRequests : Int)
  | selectCount (key : CounterKey)
  | insertCounter (key : CounterKey)
  | commit
  | rollback
  deriving DecidableEq, Repr

/-- What each statement answers. -/
@[reducible]
def Resp : Op → Type
  | .purge _ => Unit
  | .increment .. | .insertCounter _ => Bool
  | .selectCount _ => Option Int
  | .commit | .rollback => Unit

/-- The committed row of a key that has not been deleted. -/
def Counters.live (table : Counters) (key : CounterKey) :
    Option RateLimitCounter :=
  (table.row key).join

/-- An INSERT: it waits for an uncommitted write on the key, and fails where
the row exists. -/
def Counters.tryInsertCounter
    (table : Counters) (tid : Nat) (key : CounterKey) :
    Option (Bool × Counters) :=
  if (table.staged key).isSome then none
  else if (table.live key).isSome then some (false, table)
  else some (true, table.stage tid key (some ⟨key, 1⟩))

/-- Execute one statement of thread `tid`. -/
def exec : (op : Op) → Nat → Unit → Counters → Option (Resp op × Counters)
  | .purge cutoff, tid, _, table =>
      (table.tryUpdateAll tid
        (fun row => row.any fun counter => counter.key.windowStart < cutoff)
        fun _ => none).map fun purged => ((), purged)
  | .increment key maxRequests, tid, _, table =>
      table.tryUpdate tid key
        (fun row => row.any fun counter => counter.count < maxRequests)
        (Option.map fun counter =>
          { counter with count := counter.count + 1 })
  | .selectCount key, _, _, table =>
      some ((table.live key).map RateLimitCounter.count, table)
  | .insertCounter key, tid, _, table => table.tryInsertCounter tid key
  | .commit, tid, _, table => some ((), RowTable.commit table tid)
  | .rollback, tid, _, table => some ((), RowTable.rollback table tid)

/-- Programs over these statements. -/
abbrev Prog := Program Op Resp

/-- Issue one statement. -/
abbrev issue (op : Op) : Prog (Resp op) :=
  Program.statement op

/-- One call of `check`, with the wall clock that it reads. -/
structure Check where
  bucket : String
  client : String
  maxRequests : Int
  windowS : Int
  now : Int
  deriving DecidableEq, Repr

/-- The counter that a call hits. -/
def Check.key (call : Check) : CounterKey where
  bucket := call.bucket
  client := call.client
  windowStart := call.now - call.now % call.windowS

/-- How `check` ends: it returns, or it raises a 429. -/
inductive Outcome where
  | admitted
  | refused
  deriving DecidableEq, Repr

/-- `_PURGE_GRACE_S` -/
def purgeGraceS : Int := 86400

/-- `DbRateLimiter.check` -/
def check (call : Check) : Prog Outcome := do
  if call.maxRequests ≤ 0 then return .admitted
  issue (.purge (call.now - purgeGraceS))
  let allowed ← issue (.increment call.key call.maxRequests)
  if !allowed then
    let atCap ← issue (.selectCount call.key)
    if atCap.isSome then
      issue .commit
      return .refused
    let inserted ← issue (.insertCounter call.key)
    if !inserted then
      -- a sibling worker inserted this window's row first
      issue .rollback
      let allowed ← issue (.increment call.key call.maxRequests)
      if !allowed then
        issue .commit
        return .refused
  issue .commit
  return .admitted

/-- Any number of workers, each of which runs the call that `calls` assigns to
it, if any. -/
@[reducible]
def limiting (calls : Nat → Option Check) :
    System Nat Op Resp Unit (Option Outcome) Counters where
  exec := exec
  program := fun tid =>
    match calls tid with
    | some call => do
        let outcome ← check call
        return some outcome
    | none => return none

end AssessmentPlatform.RateLimit
