import AssessmentPlatform.Models
import Mathlib.Algebra.BigOperators.Group.List.Basic
import Mathlib.Algebra.Order.Floor.Semiring
import Mathlib.Data.Rat.Floor
import Mathlib.Tactic.FieldSimp
import Mathlib.Tactic.Linarith
import Mathlib.Tactic.Positivity

/-!
# The analytics of a workspace

`analytics_overview` with its helpers: the totals, the daily series and the
histogram of the scores, which are computed apart from each other.  Numbers are
exact rationals.
-/

namespace AssessmentPlatform.Analytics

/-! ## Rates -/

/-- `mean` -/
def mean (values : List Rat) : Option Rat :=
  if values.isEmpty then none else some (values.sum / values.length)

/-- `mean`, where a score may be no finite number: neither is the sum then. -/
def meanScore (scores : List Double) : Option Double :=
  match scores.mapM Double.toRat with
  | some values => (mean values).map .finite
  | none => some (scores.foldl (· + ·) 0)

/-- `rate` -/
def rate (numerator denominator : Nat) : Option Rat :=
  if denominator = 0 then none else some (numerator / denominator)

/-- A rate is a fraction. -/
theorem rate_mem {numerator denominator : Nat} {fraction : Rat}
    (le : numerator ≤ denominator)
    (isRate : fraction ∈ rate numerator denominator) :
    0 ≤ fraction ∧ fraction ≤ 1 := by
  unfold rate at isRate
  split at isRate
  · cases isRate
  · next nonzero =>
    obtain rfl := Option.some.inj isRate
    have positive : (0 : Rat) < denominator :=
      Nat.cast_pos.mpr (Nat.pos_of_ne_zero nonzero)
    constructor
    · exact div_nonneg (Nat.cast_nonneg _) positive.le
    · exact (div_le_one positive).mpr (Nat.cast_le.mpr le)

/-! ## The daily series -/

/-- What `daily_series` counts on a day. -/
structure DayCounts where
  submissions : Nat
  graded : Nat
  passed : Nat
  deriving DecidableEq, Repr

/-- One event of the series. -/
structure TrendEvent where
  createdAt : Time
  graded : Bool
  passed : Bool
  deriving DecidableEq, Repr

/-- `created_at.date()`, as the number of the day. -/
def dateOf (moment : Time) : Int :=
  moment / (24 * 60 * 60 * 1000000)

/-- What an event adds to its day. -/
def TrendEvent.counts (event : TrendEvent) : DayCounts where
  submissions := 1
  graded := if event.graded then 1 else 0
  passed := if event.graded && event.passed then 1 else 0

/-- The days that have been counted, in the order of their first events. -/
abbrev Buckets := List (Int × DayCounts)

/-- Add to the bucket of a day, which is there from its first event on. -/
def Buckets.add (day : Int) (more : DayCounts) : Buckets → Buckets
  | [] => [(day, more)]
  | (other, counts) :: rest =>
      if other = day then
        (other,
          { submissions := counts.submissions + more.submissions
            graded := counts.graded + more.graded
            passed := counts.passed + more.passed }) :: rest
      else (other, counts) :: Buckets.add day more rest

/-- `TrendPointOut` -/
structure TrendPointOut where
  date : Int
  submissions : Nat
  graded : Nat
  passed : Nat
  passRate : Option Rat
  deriving DecidableEq, Repr

/-- The point of a bucket. -/
def trendPoint (bucket : Int × DayCounts) : TrendPointOut where
  date := bucket.1
  submissions := bucket.2.submissions
  graded := bucket.2.graded
  passed := bucket.2.passed
  passRate := rate bucket.2.passed bucket.2.graded

/-- The buckets of some events. -/
def bucketsOf (events : List TrendEvent) : Buckets :=
  events.foldl
    (fun buckets event => buckets.add (dateOf event.createdAt) event.counts) []

/-- `daily_series` -/
def dailySeries (events : List TrendEvent) : List TrendPointOut :=
  ((bucketsOf events).mergeSort
    fun first second => first.1 ≤ second.1).map trendPoint

/-! ## The histogram -/

/-- The loop over the lower edges, with a bound on their number. -/
def edgesFrom (bucketSize : Rat) : Nat → Rat → List Rat
  | 0, _ => []
  | fuel + 1, lo =>
      if lo < 100 then lo :: edgesFrom bucketSize fuel (lo + bucketSize)
      else []

/-- How many buckets there are. -/
def bucketCount (bucketSize : Rat) : Nat :=
  ⌈100 / bucketSize⌉₊

/-- The lower edges of the buckets. -/
def edges (bucketSize : Rat) : List Rat :=
  edgesFrom bucketSize (bucketCount bucketSize) 0

/-- The index of the bucket that a score is counted in, among some. -/
def bucketIndex (bucketSize : Rat) (count : Nat) (score : Rat) : Nat :=
  (max (min ⌊score / bucketSize⌋ ((count : Int) - 1)) 0).toNat

/-- `ScoreBucketOut` -/
structure ScoreBucketOut where
  low : Rat
  high : Rat
  count : Nat
  deriving DecidableEq, Repr

/-- The counts of the buckets. -/
def bucketCounts (scores : List Rat) (bucketSize : Rat) (count : Nat) :
    List Nat :=
  scores.foldl
    (fun counts score =>
      counts.modify (bucketIndex bucketSize count score) (· + 1))
    (List.replicate count 0)

/-- `score_distribution` -/
def scoreDistribution (scores : List Rat) (bucketSize : Rat) :
    List ScoreBucketOut :=
  let lows := edges bucketSize
  List.zipWith
    (fun low count => ⟨low, min (low + bucketSize) 100, count⟩)
    lows (bucketCounts scores bucketSize lows.length)

/-! ## The overview -/

/-- The columns of a submission that the overview reads. -/
structure SubmissionRow where
  id : String
  candidateEmail : Option String
  createdAt : Time
  deriving DecidableEq, Repr

/-- `_since_cutoff` -/
def sinceCutoff (now : Time) (days : Option Nat) : Option Time :=
  days.map fun count => now - count * (24 * 60 * 60 * 1000000)

/-- `_within` -/
def within (subs : List SubmissionRow) : Option Time → List SubmissionRow
  | none => subs
  | some cutoff => subs.filter fun sub => cutoff ≤ sub.createdAt

/-- `_results_by_submission`, where a later result replaces an earlier one. -/
def resultOf (results : List AssessmentResult) (id : String) :
    Option AssessmentResult :=
  (results.filter fun result => result.submissionId == id).getLast?

/-- The variables of the loop in `analytics_overview`. -/
structure Totals where
  graded : Nat := 0
  passed : Nat := 0
  scores : List Double := []
  candidates : List String := []
  events : List TrendEvent := []

/-- The body of the loop in `analytics_overview`. -/
def Totals.count (results : List AssessmentResult) (totals : Totals)
    (sub : SubmissionRow) : Totals :=
  let candidates :=
    match sub.candidateEmail with
    | some email =>
        if email = "" then totals.candidates
        else totals.candidates.insert email
    | none => totals.candidates
  match resultOf results sub.id with
  | some result =>
      let passes := result.verdict == "PASS"
      { graded := totals.graded + 1
        passed := if passes then totals.passed + 1 else totals.passed
        scores := totals.scores ++ [result.scorePct]
        candidates := candidates
        events := totals.events ++ [⟨sub.createdAt, true, passes⟩] }
  | none =>
      { totals with
        candidates := candidates
        events := totals.events ++ [⟨sub.createdAt, false, false⟩] }

/-- `OverviewAnalyticsOut` -/
structure OverviewAnalyticsOut where
  questions : Nat
  submissions : Nat
  graded : Nat
  candidates : Nat
  passed : Nat
  passRate : Option Rat
  avgScorePct : Option Rat
  trend : List TrendPointOut
  scoreDistribution : List ScoreBucketOut
  deriving DecidableEq, Repr

/-- `analytics_overview`, over the submissions of the organisation's questions;
the source leaves `bucketSize` at its default of 20.  Where a score is no finite
number, `int(s // bucket_size)` raises. -/
def analyticsOverview (questions : Nat) (now : Time) (days : Option Nat)
    (bucketSize : Rat) (rows : List SubmissionRow)
    (results : List AssessmentResult) : Option OverviewAnalyticsOut :=
  let subs := within rows (sinceCutoff now days)
  let totals := subs.foldl (Totals.count results) {}
  (totals.scores.mapM Double.toRat).map fun scores =>
    { questions := questions
      submissions := subs.length
      graded := totals.graded
      candidates := totals.candidates.length
      passed := totals.passed
      passRate := rate totals.passed totals.graded
      avgScorePct := mean scores
      trend := dailySeries totals.events
      scoreDistribution := scoreDistribution scores bucketSize }

/-! ## Days -/

section Days

variable {buckets : Buckets} {day : Int} {more : DayCounts}
variable {events : List TrendEvent}

/-- The days that have a bucket. -/
def Buckets.days (buckets : Buckets) : List Int :=
  buckets.map Prod.fst

/-- The sum of one of the counts over all days. -/
def Buckets.total (buckets : Buckets) (counted : DayCounts → Nat) : Nat :=
  (buckets.map fun bucket => counted bucket.2).sum

theorem mem_days_add {other : Int} :
    other ∈ (buckets.add day more).days ↔ other = day ∨ other ∈ buckets.days := by
  induction buckets with
  | nil => simp [Buckets.add, Buckets.days]
  | cons bucket rest inductionHypothesis =>
      unfold Buckets.days at inductionHypothesis ⊢
      by_cases same : bucket.1 = day
      · simp [Buckets.add, same]
      · simp only [Buckets.add, same, if_false, List.map_cons, List.mem_cons,
          inductionHypothesis]
        exact or_left_comm

theorem nodup_days_add (nodup : buckets.days.Nodup) :
    (buckets.add day more).days.Nodup := by
  induction buckets with
  | nil => exact List.nodup_singleton day
  | cons bucket rest inductionHypothesis =>
      obtain ⟨absent, others⟩ := List.nodup_cons.mp nodup
      by_cases same : bucket.1 = day
      · simp only [Buckets.add, same, if_true]
        exact same ▸ nodup
      · simp only [Buckets.add, same, if_false]
        apply List.nodup_cons.mpr
        refine ⟨?_, inductionHypothesis others⟩
        intro member
        rcases mem_days_add.mp member with isDay | isOther
        · exact same isDay
        · exact absent isOther

/-- What an event adds to a count that is summed up over the days. -/
theorem total_add {counted : DayCounts → Nat}
    (sums : ∀ first second : DayCounts,
      counted
          { submissions := first.submissions + second.submissions
            graded := first.graded + second.graded
            passed := first.passed + second.passed } =
        counted first + counted second) :
    (buckets.add day more).total counted =
      buckets.total counted + counted more := by
  induction buckets with
  | nil => simp [Buckets.add, Buckets.total]
  | cons bucket rest inductionHypothesis =>
      unfold Buckets.total at inductionHypothesis ⊢
      by_cases same : bucket.1 = day
      · simp only [Buckets.add, same, if_true, List.map_cons, List.sum_cons,
          sums]
        omega
      · simp only [Buckets.add, same, if_false, List.map_cons, List.sum_cons,
          inductionHypothesis]
        omega

/-- On every day there are at most as many passes as grades. -/
def Buckets.Ordered (buckets : Buckets) : Prop :=
  ∀ bucket ∈ buckets, bucket.2.passed ≤ bucket.2.graded

theorem ordered_add (ordered : buckets.Ordered)
    (le : more.passed ≤ more.graded) : (buckets.add day more).Ordered := by
  induction buckets with
  | nil => exact List.forall_mem_singleton.mpr le
  | cons bucket rest inductionHypothesis =>
      obtain ⟨first, others⟩ := List.forall_mem_cons.mp ordered
      by_cases same : bucket.1 = day
      · simp only [Buckets.add, same, if_true]
        exact List.forall_mem_cons.mpr ⟨Nat.add_le_add first le, others⟩
      · simp only [Buckets.add, same, if_false]
        exact List.forall_mem_cons.mpr ⟨first, inductionHypothesis others⟩

theorem TrendEvent.passed_le (event : TrendEvent) :
    event.counts.passed ≤ event.counts.graded := by
  unfold TrendEvent.counts
  cases event.graded <;> cases event.passed <;> decide

/-- What the buckets of some events are like. -/
structure Buckets.Count (buckets : Buckets) (events : List TrendEvent) :
    Prop where
  nodup : buckets.days.Nodup
  ordered : buckets.Ordered
  submissions : buckets.total DayCounts.submissions = events.length
  graded : buckets.total DayCounts.graded = events.countP TrendEvent.graded
  passed : buckets.total DayCounts.passed =
    events.countP fun event => event.graded && event.passed

theorem Buckets.Count.add {event : TrendEvent}
    (count : buckets.Count events) :
    (buckets.add (dateOf event.createdAt) event.counts).Count
      (events ++ [event]) where
  nodup := nodup_days_add count.nodup
  ordered := ordered_add count.ordered event.passed_le
  submissions := by
    rw [total_add fun _ _ => rfl, count.submissions, List.length_append]
    rfl
  graded := by
    rw [total_add fun _ _ => rfl, count.graded, List.countP_append,
      List.countP_singleton]
    rfl
  passed := by
    rw [total_add fun _ _ => rfl, count.passed, List.countP_append,
      List.countP_singleton]
    rfl

theorem bucketsOf_count (events : List TrendEvent) :
    (bucketsOf events).Count events := by
  induction events using List.reverseRecOn with
  | nil => exact ⟨List.nodup_nil, nofun, rfl, rfl, rfl⟩
  | append_singleton events event inductionHypothesis =>
      unfold bucketsOf at inductionHypothesis ⊢
      rw [List.foldl_append]
      exact inductionHypothesis.add

/-- A count that is summed up over the series is the one over the buckets. -/
theorem sum_dailySeries {counted : DayCounts → Nat}
    {point : TrendPointOut → Nat}
    (same : ∀ bucket, point (trendPoint bucket) = counted bucket.2) :
    ((dailySeries events).map point).sum =
      (bucketsOf events).total counted := by
  have perm := List.mergeSort_perm (bucketsOf events)
    fun first second => first.1 ≤ second.1
  unfold dailySeries Buckets.total
  rw [List.map_map]
  have sameSum := (perm.map fun bucket => counted bucket.2).sum_eq
  rw [← sameSum]
  congr 1
  exact List.map_congr_left fun bucket _ => same bucket

/-- The days of the series increase strictly. -/
theorem dailySeries_increasing (events : List TrendEvent) :
    (dailySeries events).Pairwise
      fun earlier later => earlier.date < later.date := by
  have transitive : ∀ first second third : Int × DayCounts,
      decide (first.1 ≤ second.1) = true →
      decide (second.1 ≤ third.1) = true →
      decide (first.1 ≤ third.1) = true := by
    intro first second third early late
    exact decide_eq_true
      ((of_decide_eq_true early).trans (of_decide_eq_true late))
  have total : ∀ first second : Int × DayCounts,
      (decide (first.1 ≤ second.1) || decide (second.1 ≤ first.1)) = true := by
    intro first second
    rcases le_total first.1 second.1 with le | le <;> simp [le]
  have sorted := List.pairwise_mergeSort transitive total (bucketsOf events)
  have perm := List.mergeSort_perm (bucketsOf events)
    fun first second => first.1 ≤ second.1
  have nodup : ((bucketsOf events).mergeSort
      fun first second => first.1 ≤ second.1).Pairwise
        fun first second => first.1 ≠ second.1 := by
    have days := (perm.map Prod.fst).nodup_iff.mpr (bucketsOf_count events).nodup
    exact List.pairwise_map.mp days
  apply List.pairwise_map.mpr
  apply (sorted.and nodup).imp
  rintro first second ⟨le, different⟩
  exact lt_of_le_of_ne (of_decide_eq_true le) different

theorem rate_of_mem_dailySeries {point : TrendPointOut} {fraction : Rat}
    (member : point ∈ dailySeries events) (isRate : fraction ∈ point.passRate) :
    0 ≤ fraction ∧ fraction ≤ 1 := by
  obtain ⟨bucket, isBucket, rfl⟩ := List.mem_map.mp member
  have perm := List.mergeSort_perm (bucketsOf events)
    fun first second => first.1 ≤ second.1
  exact rate_mem
    ((bucketsOf_count events).ordered bucket (perm.mem_iff.mp isBucket)) isRate

end Days

/-! ## Buckets -/

section Histogram

variable {bucketSize : Rat} {scores : List Rat} {score : Rat} {count : Nat}

/-- An edge lies below 100 exactly as long as there is a bucket for it. -/
theorem edge_lt_iff (positive : 0 < bucketSize) (index : Nat) :
    index * bucketSize < 100 ↔ index < bucketCount bucketSize := by
  rw [bucketCount, Nat.lt_ceil, lt_div_iff₀ positive]

/-- The loop over the edges ends by itself. -/
theorem edgesFrom_eq (positive : 0 < bucketSize) (fuel start : Nat)
    (enough : bucketCount bucketSize ≤ start + fuel) :
    edgesFrom bucketSize fuel (start * bucketSize) =
      (List.range' start (bucketCount bucketSize - start)).map
        fun index : Nat => index * bucketSize := by
  induction fuel generalizing start with
  | zero =>
      have none : bucketCount bucketSize - start = 0 := by omega
      rw [none]
      rfl
  | succ fuel inductionHypothesis =>
      unfold edgesFrom
      by_cases below : (start * bucketSize : Rat) < 100
      · have isBucket := (edge_lt_iff positive start).mp below
        have more : bucketCount bucketSize - start =
            bucketCount bucketSize - (start + 1) + 1 := by omega
        have next : (start * bucketSize + bucketSize : Rat) =
            ((start + 1 : Nat) : Rat) * bucketSize := by
          push_cast
          ring
        rw [if_pos below, more, List.range'_succ, List.map_cons, next,
          inductionHypothesis (start + 1) (by omega)]
      · have none : bucketCount bucketSize - start = 0 := by
          have past := mt (edge_lt_iff positive start).mpr below
          omega
        rw [if_neg below, none]
        rfl

theorem edges_eq (positive : 0 < bucketSize) :
    edges bucketSize = (List.range (bucketCount bucketSize)).map
      fun index : Nat => index * bucketSize := by
  have loop := edgesFrom_eq positive (bucketCount bucketSize) 0 (by omega)
  rw [Nat.cast_zero, zero_mul] at loop
  rw [edges, loop, List.range_eq_range']
  rfl

theorem bucketCount_pos (positive : 0 < bucketSize) :
    0 < bucketCount bucketSize := by
  apply (edge_lt_iff positive 0).mp
  norm_num

theorem bucketIndex_lt (isCount : 0 < count) :
    bucketIndex bucketSize count score < count := by
  unfold bucketIndex
  omega

/-- The bounds of a bucket contain a score: those of the last one include
100. -/
def Holds (bucketSize : Rat) (index : Nat) (score : Rat) : Prop :=
  index * bucketSize ≤ score ∧
    (score < min (index * bucketSize + bucketSize) 100 ∨
      index + 1 = bucketCount bucketSize ∧ score = 100)

/-- A score is counted in the bucket whose bounds contain it. -/
theorem bucketIndex_eq_iff (positive : 0 < bucketSize) (nonneg : 0 ≤ score)
    (le : score ≤ 100) {index : Nat} (isBucket : index < bucketCount bucketSize) :
    bucketIndex bucketSize (bucketCount bucketSize) score = index ↔
      Holds bucketSize index score := by
  have lower : ((index : Int) ≤ ⌊score / bucketSize⌋) ↔
      index * bucketSize ≤ score := by
    rw [Int.le_floor, Int.cast_natCast, le_div_iff₀ positive]
  have upper : (⌊score / bucketSize⌋ < (index : Int) + 1) ↔
      score < index * bucketSize + bucketSize := by
    rw [Int.floor_lt, div_lt_iff₀ positive]
    push_cast
    rw [add_mul, one_mul]
  have floorNonneg : 0 ≤ ⌊score / bucketSize⌋ :=
    Int.floor_nonneg.mpr (div_nonneg nonneg positive.le)
  have edge := edge_lt_iff positive (index + 1)
  push_cast at edge
  rw [add_mul, one_mul] at edge
  unfold Holds
  rw [← lower]
  by_cases isLast : index + 1 = bucketCount bucketSize
  · have top : min (index * bucketSize + bucketSize) (100 : Rat) = 100 := by
      apply min_eq_right
      exact not_lt.mp fun below => by
        have inside := edge.mp below
        omega
    have within : score < 100 ∨ score = 100 := le.lt_or_eq
    rw [top]
    constructor
    · intro isIndex
      refine ⟨?_, within.imp_right fun isTop => ⟨isLast, isTop⟩⟩
      unfold bucketIndex at isIndex
      omega
    · rintro ⟨above, -⟩
      unfold bucketIndex
      omega
  · have inner : (index * bucketSize + bucketSize : Rat) < 100 :=
      edge.mpr (by omega)
    rw [min_eq_left inner.le, ← upper]
    constructor
    · intro isIndex
      unfold bucketIndex at isIndex
      exact ⟨by omega, Or.inl (by omega)⟩
    · rintro ⟨above, below | ⟨last, -⟩⟩
      · unfold bucketIndex
        omega
      · exact absurd last isLast

/-- The counts after one more score. -/
theorem bucketCounts_append :
    bucketCounts (scores ++ [score]) bucketSize count =
      (bucketCounts scores bucketSize count).modify
        (bucketIndex bucketSize count score) (· + 1) := by
  unfold bucketCounts
  rw [List.foldl_append]
  rfl

theorem length_bucketCounts :
    (bucketCounts scores bucketSize count).length = count := by
  induction scores using List.reverseRecOn with
  | nil => exact List.length_replicate
  | append_singleton scores score inductionHypothesis =>
      rw [bucketCounts_append, List.length_modify, inductionHypothesis]

/-- A bucket counts the scores that have its index. -/
theorem getElem?_bucketCounts {index : Nat} (isBucket : index < count) :
    (bucketCounts scores bucketSize count)[index]? =
      some (scores.countP fun score =>
        bucketIndex bucketSize count score == index) := by
  induction scores using List.reverseRecOn with
  | nil => exact List.getElem?_replicate_of_lt isBucket
  | append_singleton scores score inductionHypothesis =>
      rw [bucketCounts_append, List.getElem?_modify, inductionHypothesis,
        List.countP_append, List.countP_singleton]
      by_cases here : bucketIndex bucketSize count score = index
      · simp [here]
      · simp [here]

theorem sum_modify {counts : List Nat} {index : Nat}
    (within : index < counts.length) :
    (counts.modify index (· + 1)).sum = counts.sum + 1 := by
  induction counts generalizing index with
  | nil => cases within
  | cons first rest inductionHypothesis =>
      cases index with
      | zero =>
          simp only [List.modify_zero_cons, List.sum_cons]
          omega
      | succ index =>
          simp only [List.modify_succ_cons, List.sum_cons]
          rw [inductionHypothesis (Nat.lt_of_succ_lt_succ within)]
          omega

/-- Every score is counted once. -/
theorem sum_bucketCounts (isCount : 0 < count) :
    (bucketCounts scores bucketSize count).sum = scores.length := by
  induction scores using List.reverseRecOn with
  | nil => simp [bucketCounts]
  | append_singleton scores score inductionHypothesis =>
      rw [bucketCounts_append, sum_modify, inductionHypothesis,
        List.length_append]
      · rfl
      · rw [length_bucketCounts]
        exact bucketIndex_lt isCount

/-- The buckets of the histogram, by their index. -/
theorem getElem?_scoreDistribution (positive : 0 < bucketSize) (index : Nat) :
    (scoreDistribution scores bucketSize)[index]? =
      if index < bucketCount bucketSize then
        some
          { low := index * bucketSize
            high := min (index * bucketSize + bucketSize) 100
            count := scores.countP fun score =>
              bucketIndex bucketSize (bucketCount bucketSize) score == index }
      else none := by
  unfold scoreDistribution
  rw [edges_eq positive]
  dsimp only
  rw [List.length_map, List.length_range, List.getElem?_zipWith,
    List.getElem?_map]
  by_cases isBucket : index < bucketCount bucketSize
  · rw [List.getElem?_range isBucket, getElem?_bucketCounts isBucket,
      if_pos isBucket]
    rfl
  · have past : (List.range (bucketCount bucketSize))[index]? = none := by
      rw [List.getElem?_eq_none_iff, List.length_range]
      exact not_lt.mp isBucket
    rw [past, if_neg isBucket]
    rfl

theorem sum_scoreDistribution (positive : 0 < bucketSize) :
    ((scoreDistribution scores bucketSize).map ScoreBucketOut.count).sum =
      scores.length := by
  have isCount := bucketCount_pos positive
  have length : (edges bucketSize).length = bucketCount bucketSize := by
    rw [edges_eq positive, List.length_map, List.length_range]
  unfold scoreDistribution
  dsimp only
  rw [List.map_zipWith, length]
  have counts : List.zipWith (fun (_ : Rat) (count : Nat) => count)
      (edges bucketSize)
      (bucketCounts scores bucketSize (bucketCount bucketSize)) =
        bucketCounts scores bucketSize (bucketCount bucketSize) := by
    rw [← List.map_uncurry_zip_eq_zipWith]
    apply List.map_snd_zip
    rw [length_bucketCounts, length]
  rw [counts]
  exact sum_bucketCounts isCount

end Histogram

/-! ## The overview is consistent -/

section Overview

variable {results : List AssessmentResult} {totals : Totals}
variable {subs : List SubmissionRow} {sub : SubmissionRow}

/-- What the loop has counted of some submissions. -/
structure Totals.Count (results : List AssessmentResult) (totals : Totals)
    (subs : List SubmissionRow) : Prop where
  events : totals.events.length = subs.length
  graded : totals.events.countP TrendEvent.graded = totals.graded
  passed : (totals.events.countP fun event => event.graded && event.passed) =
    totals.passed
  scored : totals.scores.length = totals.graded
  scores : totals.scores = subs.filterMap fun sub =>
    (resultOf results sub.id).map AssessmentResult.scorePct

theorem Totals.Count.step (count : totals.Count results subs) :
    (totals.count results sub).Count results (subs ++ [sub]) := by
  obtain ⟨events, graded, passed, scored, scores⟩ := count
  unfold Totals.count
  cases isResult : resultOf results sub.id with
  | none =>
      constructor
      · simp [events]
      · simp [graded]
      · simp [passed]
      · exact scored
      · simp [scores, isResult]
  | some result =>
      constructor
      · simp [events]
      · simp [graded]
      · cases passes : result.verdict == "PASS" <;> simp [passed, passes]
      · simp [scored]
      · simp [scores, isResult]

theorem totals_count (results : List AssessmentResult)
    (subs : List SubmissionRow) :
    (subs.foldl (Totals.count results) {}).Count results subs := by
  induction subs using List.reverseRecOn with
  | nil => exact ⟨rfl, rfl, rfl, rfl, rfl⟩
  | append_singleton subs sub inductionHypothesis =>
      rw [List.foldl_append]
      exact inductionHypothesis.step

theorem Totals.Count.passed_le (count : totals.Count results subs) :
    totals.passed ≤ totals.graded := by
  rw [← count.passed, ← count.graded]
  apply List.countP_mono_left
  intro event _ both
  exact (Bool.and_eq_true _ _ ▸ both).1

/-- The numbers that are all finite. -/
theorem mapM_toRat_eq_some {scores : List Double} {values : List Rat} :
    scores.mapM Double.toRat = some values ↔
      scores = values.map Double.finite := by
  induction scores generalizing values with
  | nil => cases values <;> simp
  | cons score rest inductionHypothesis =>
      rw [List.mapM_cons]
      cases score with
      | finite value =>
          cases values <;>
            simp [Double.toRat, Option.bind_eq_some_iff, inductionHypothesis,
              and_comm]
      | infinite | nan => cases values <;> simp [Double.toRat]

theorem isSome_mapM_toRat {scores : List Double} :
    (scores.mapM Double.toRat).isSome ↔
      ∀ score ∈ scores, ∃ value, score = .finite value := by
  rw [Option.isSome_iff_exists]
  simp only [mapM_toRat_eq_some]
  constructor
  · rintro ⟨values, rfl⟩ score member
    obtain ⟨value, _, rfl⟩ := List.mem_map.mp member
    exact ⟨value, rfl⟩
  · intro finite
    induction scores with
    | nil => exact ⟨[], rfl⟩
    | cons score rest inductionHypothesis =>
        obtain ⟨value, rfl⟩ := finite score List.mem_cons_self
        obtain ⟨values, rfl⟩ := inductionHypothesis fun other member =>
          finite other (List.mem_cons_of_mem _ member)
        exact ⟨value :: values, rfl⟩

/-- The overview is there where every score that it counts is a finite number,
and it is consistent: the days of its series increase and its counts sum up to
the totals, the counts of the histogram sum up to the graded scores, one more
score between 0 and 100 is counted in the bucket that contains it and nowhere
else, and all rates are fractions. -/
theorem overview_consistent (questions : Nat) (now : Time) (days : Option Nat)
    (bucketSize : Rat) (rows : List SubmissionRow)
    (results : List AssessmentResult) (positive : 0 < bucketSize) :
    let found := analyticsOverview questions now days bucketSize rows results
    (found.isSome ↔ ∀ sub ∈ within rows (sinceCutoff now days),
      ∀ result ∈ resultOf results sub.id,
        ∃ score, result.scorePct = .finite score) ∧
    ∀ overview ∈ found,
      overview.trend.Pairwise
          (fun earlier later => earlier.date < later.date) ∧
      ((overview.trend.map TrendPointOut.submissions).sum =
          overview.submissions ∧
        (overview.trend.map TrendPointOut.graded).sum = overview.graded ∧
        (overview.trend.map TrendPointOut.passed).sum = overview.passed) ∧
      (overview.scoreDistribution.map ScoreBucketOut.count).sum =
          overview.graded ∧
      (∀ (before after : List Rat) (score : Rat),
        0 ≤ score → score ≤ 100 → ∀ index bucket,
          (scoreDistribution (before ++ score :: after) bucketSize)[index]? =
              some bucket →
            ∃ without,
              (scoreDistribution (before ++ after) bucketSize)[index]? =
                  some without ∧
                without.low = bucket.low ∧ without.high = bucket.high ∧
                ((bucket.low ≤ score ∧
                      (score < bucket.high ∨
                        index + 1 = bucketCount bucketSize ∧ score = 100) ∧
                    bucket.count = without.count + 1) ∨
                  (¬(bucket.low ≤ score ∧
                      (score < bucket.high ∨
                        index + 1 = bucketCount bucketSize ∧ score = 100)) ∧
                    bucket.count = without.count))) ∧
      (∀ fraction ∈ overview.passRate, 0 ≤ fraction ∧ fraction ≤ 1) ∧
      ∀ point ∈ overview.trend, ∀ fraction ∈ point.passRate,
        0 ≤ fraction ∧ fraction ≤ 1 := by
  have count := totals_count results (within rows (sinceCutoff now days))
  have buckets := bucketsOf_count
    ((within rows (sinceCutoff now days)).foldl (Totals.count results) {}).events
  intro found
  refine ⟨?_, ?_⟩
  · unfold found analyticsOverview
    rw [Option.isSome_map, isSome_mapM_toRat, count.scores]
    constructor
    · intro finite sub member result isResult
      apply finite
      exact List.mem_filterMap.mpr ⟨sub, member, by rw [isResult]; rfl⟩
    · intro finite score counted
      obtain ⟨sub, member, scored⟩ := List.mem_filterMap.mp counted
      obtain ⟨result, isResult, rfl⟩ := Option.map_eq_some_iff.mp scored
      exact finite sub member result isResult
  intro overview isOverview
  obtain ⟨scores, areScores, rfl⟩ := Option.map_eq_some_iff.mp isOverview
  refine ⟨dailySeries_increasing _, ⟨?_, ?_, ?_⟩, ?_, ?_, ?_, ?_⟩
  · calc _ = _ := sum_dailySeries fun _ => rfl
      _ = _ := buckets.submissions
      _ = _ := count.events
  · calc _ = _ := sum_dailySeries fun _ => rfl
      _ = _ := buckets.graded
      _ = _ := count.graded
  · calc _ = _ := sum_dailySeries fun _ => rfl
      _ = _ := buckets.passed
      _ = _ := count.passed
  · calc _ = _ := sum_scoreDistribution positive
      _ = _ := by
        rw [← count.scored, mapM_toRat_eq_some.mp areScores, List.length_map]
  · intro before after score nonneg le index bucket isBucket
    rw [getElem?_scoreDistribution positive] at isBucket ⊢
    split at isBucket
    · next inside =>
      obtain rfl := Option.some.inj isBucket
      have contains := bucketIndex_eq_iff positive nonneg le inside
      refine ⟨_, if_pos inside, rfl, rfl, ?_⟩
      dsimp only
      rw [List.countP_append, List.countP_append, List.countP_cons]
      by_cases here :
          bucketIndex bucketSize (bucketCount bucketSize) score = index
      · left
        obtain ⟨above, below⟩ := contains.mp here
        refine ⟨above, below, ?_⟩
        rw [if_pos (beq_iff_eq.mpr here)]
        omega
      · right
        refine ⟨mt contains.mpr here, ?_⟩
        rw [if_neg (by simpa using here)]
        rfl
    · cases isBucket
  · intro fraction isRate
    exact rate_mem count.passed_le isRate
  · intro point member fraction isRate
    exact rate_of_mem_dailySeries member isRate

/-- Three days of submissions, of which the first and the last are graded. -/
def sampleRows : List SubmissionRow :=
  [⟨"a", some "ada@acme.io", 0⟩, ⟨"b", none, 0⟩,
    ⟨"c", some "ada@acme.io", 200000000000⟩]

def sampleResults : List AssessmentResult :=
  [⟨"a", "PASS", .finite 100, "", .null⟩,
    ⟨"c", "FAIL", .finite 30, "", .null⟩]

theorem overview_consistent_sample :
    ∃ overview ∈ analyticsOverview 1 0 none 30 sampleRows sampleResults,
      (overview.scoreDistribution.map ScoreBucketOut.count).sum = 2 ∧
        (overview.trend.map TrendPointOut.submissions).sum = 3 := by
  obtain ⟨-, consistent⟩ :=
    overview_consistent 1 0 none 30 sampleRows sampleResults (by norm_num)
  obtain ⟨⟨submissions, -, -⟩, histogram, -⟩ := (consistent _ rfl).2
  exact ⟨_, rfl, histogram, submissions⟩

end Overview

end AssessmentPlatform.Analytics
