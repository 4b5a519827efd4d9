import EpollGateway.Handler.RouteMetrics
import EpollGateway.Lib.Histogram
import Mathlib.Data.Rat.Defs
import Mathlib.Algebra.Order.Ring.Rat
import Mathlib.Order.WithBot
import Mathlib.Data.Fin.VecNotation

/-! # Latency histograms

`Metrics` keeps one histogram for all requests and one for each tag of a route, with the
same boundaries. `record_request` and `record_route_request` each have a copy of the loop
over the boundaries.

A duration is a `double` that is a number or infinite, and compared as such. The boundaries
are the values of the doubles that are written `0.005`, `0.01` and so on. `RouteMetrics`
gives a duration by the first bucket it falls into; the counters are the same
(`recordDuration_eq_record`).
-/

namespace EpollGateway.Handler

open Bytes Histogram

/-! ## Recording -/

/-- A `double` other than NaN. -/
abbrev Seconds := WithBot (WithTop ℚ)

/-- A finite `double`. -/
def finiteSeconds (q : ℚ) : Seconds := ((q : WithTop ℚ) : WithBot (WithTop ℚ))

/-- The values of `bucket_boundaries_`. -/
def boundaryValues : Fin 11 → ℚ :=
  ![5764607523034235 / 2 ^ 60, 5764607523034235 / 2 ^ 59, 3602879701896397 / 2 ^ 57,
    3602879701896397 / 2 ^ 56, 3602879701896397 / 2 ^ 55, 1 / 4, 1 / 2, 1, 5 / 2, 5, 10]

/-- `bucket_boundaries_`. -/
def bucketBoundaries (i : Fin 11) : Seconds := finiteSeconds (boundaryValues i)

/-- `Metrics`, as far as `record_request` and `record_route_request` write it. The counters are
`uint64_t` in the source: no run is long enough to bring one back to 0. -/
structure Metrics where
  requests2xx : Nat := 0
  requests3xx : Nat := 0
  requests4xx : Nat := 0
  requests5xx : Nat := 0
  durationCount : Nat := 0
  durationBuckets : Fin 12 → Nat := fun _ => 0
  routeMetrics : RouteMetrics := ∅

/-- The status counters of `record_request`. -/
def Metrics.countStatus (m : Metrics) (statusCode : Int) : Metrics :=
  if statusCode ≥ 200 ∧ statusCode < 300 then { m with requests2xx := m.requests2xx + 1 }
  else if statusCode ≥ 300 ∧ statusCode < 400 then { m with requests3xx := m.requests3xx + 1 }
  else if statusCode ≥ 400 ∧ statusCode < 500 then { m with requests4xx := m.requests4xx + 1 }
  else if statusCode ≥ 500 then { m with requests5xx := m.requests5xx + 1 }
  else m

/-- `record_request`. -/
def Metrics.recordRequest (m : Metrics) (statusCode : Int) (durationSeconds : Seconds) :
    Metrics :=
  let m := m.countStatus statusCode
  { m with
    durationCount := m.durationCount + 1
    durationBuckets := observe bucketBoundaries durationSeconds m.durationBuckets }

/-- The status counters of `record_route_request`. -/
def RouteMetricSample.countStatus (s : RouteMetricSample) (statusCode : Int) :
    RouteMetricSample :=
  if statusCode ≥ 200 ∧ statusCode < 300 then { s with requests2xx := s.requests2xx + 1 }
  else if statusCode ≥ 300 ∧ statusCode < 400 then { s with requests3xx := s.requests3xx + 1 }
  else if statusCode ≥ 400 ∧ statusCode < 500 then { s with requests4xx := s.requests4xx + 1 }
  else if statusCode ≥ 500 then { s with requests5xx := s.requests5xx + 1 }
  else s

/-- The failure counters of `record_route_request`. -/
def RouteMetricSample.countFailure (s : RouteMetricSample) (statusCode : Int) :
    RouteMetricSample :=
  let s := if statusCode = 504 ∨ statusCode = 503 ∨ statusCode = 502 then
    { s with timeoutErrors := s.timeoutErrors + 1 } else s
  let s := if statusCode = 401 then { s with authFailures := s.authFailures + 1 } else s
  if statusCode = 429 then { s with rateLimitHits := s.rateLimitHits + 1 } else s

/-- What `record_route_request` does to the sample of its tag. -/
def RouteMetricSample.recordDuration (s : RouteMetricSample) (statusCode : Int)
    (durationSeconds : Seconds) : RouteMetricSample :=
  let s := { s with totalRequests := s.totalRequests + 1 }
  let s := (s.countStatus statusCode).countFailure statusCode
  { s with
    durationCount := s.durationCount + 1
    durationBuckets := observe bucketBoundaries durationSeconds s.durationBuckets }

/-- `record_route_request`; `operator[]` makes an entry with counters at zero. -/
def Metrics.recordRouteRequest (m : Metrics) (labels : RouteLabels) (statusCode : Int)
    (durationSeconds : Seconds) : Metrics :=
  let sample := (m.routeMetrics.lookup labels.tag).getD {}
  { m with
    routeMetrics := m.routeMetrics.insert labels.tag
      (sample.recordDuration statusCode durationSeconds) }

/-! ## The first bucket of a duration -/

lemma boundaryValues_strictMono : StrictMono boundaryValues := by
  rw [Fin.strictMono_iff_lt_succ]
  decide +kernel

lemma bucketBoundaries_monotone : Monotone bucketBoundaries := by
  intro i j hij
  have hvalues := boundaryValues_strictMono.monotone hij
  exact WithBot.coe_le_coe.mpr (WithTop.coe_le_coe.mpr hvalues)

/-- The place of the first boundary that a duration does not exceed. -/
def firstBucket (d : Seconds) : Nat := (List.finRange 11).findIdx fun i => d ≤ bucketBoundaries i

lemma firstBucket_le_iff (d : Seconds) (i : Fin 11) :
    firstBucket d ≤ i ↔ d ≤ bucketBoundaries i := by
  have hlen : (List.finRange 11).length = 11 := List.length_finRange
  constructor
  · intro h
    have hlt : firstBucket d < (List.finRange 11).length := by
      rw [hlen]
      exact lt_of_le_of_lt h i.isLt
    have hfound := of_decide_eq_true (List.findIdx_getElem (w := hlt))
    have hplace : (List.finRange 11)[firstBucket d] ≤ i := by
      rw [List.getElem_finRange]
      exact h
    exact hfound.trans (bucketBoundaries_monotone hplace)
  · intro h
    by_contra hlt
    have hnot := List.not_of_lt_findIdx (not_le.mp hlt)
    rw [List.getElem_finRange] at hnot
    exact absurd h (by simpa using hnot)

variable (m : Metrics) (s : RouteMetricSample)

/-- A request has one class at most. -/
lemma countStatus_eq (c : Int) :
    s.countStatus c =
      { s with
        requests2xx := s.requests2xx + if 200 ≤ c ∧ c < 300 then 1 else 0
        requests3xx := s.requests3xx + if 300 ≤ c ∧ c < 400 then 1 else 0
        requests4xx := s.requests4xx + if 400 ≤ c ∧ c < 500 then 1 else 0
        requests5xx := s.requests5xx + if 500 ≤ c then 1 else 0 } := by
  unfold RouteMetricSample.countStatus
  split_ifs <;> first | rfl | omega

lemma countFailure_eq (c : Int) :
    s.countFailure c =
      { s with
        timeoutErrors := s.timeoutErrors + if c = 504 ∨ c = 503 ∨ c = 502 then 1 else 0
        authFailures := s.authFailures + if c = 401 then 1 else 0
        rateLimitHits := s.rateLimitHits + if c = 429 then 1 else 0 } := by
  unfold RouteMetricSample.countFailure
  split_ifs <;> rfl

/-- The counters of a route are those that its first bucket gives. -/
lemma recordDuration_eq_record (r : RouteRecord) (d : Seconds) (h : r.bucket = firstBucket d) :
    s.recordDuration r.statusCode d = s.record r := by
  have hbuckets : observe bucketBoundaries d s.durationBuckets =
      fun i => s.durationBuckets i + if i = 11 ∨ r.bucket ≤ i then 1 else 0 := by
    funext i
    induction i using Fin.lastCases with
    | last => rw [observe_last, if_pos (.inl rfl)]
    | cast i =>
      have hne : i.castSucc ≠ 11 := (Fin.castSucc_lt_last i).ne
      rw [observe_castSucc, h]
      simp [hne, firstBucket_le_iff]
  unfold RouteMetricSample.recordDuration RouteMetricSample.record
  simp only [countFailure_eq, countStatus_eq, hbuckets, decide_eq_true_eq]

/-! ## Histories -/

/-- A call of `record_request` or of `record_route_request`. -/
inductive MetricCall where
  | request (statusCode : Int) (durationSeconds : Seconds)
  | routeRequest (labels : RouteLabels) (statusCode : Int) (durationSeconds : Seconds)

def Metrics.apply (m : Metrics) : MetricCall → Metrics
  | .request statusCode d => m.recordRequest statusCode d
  | .routeRequest labels statusCode d => m.recordRouteRequest labels statusCode d

/-- The metrics after some calls. -/
def metricsAfter (calls : List MetricCall) : Metrics := calls.foldl Metrics.apply {}

/-- What the global histogram is told. -/
def MetricCall.toGlobal : MetricCall → Option (Int × Seconds)
  | .request statusCode d => some (statusCode, d)
  | .routeRequest .. => none

/-- What the histogram of a tag is told. -/
def MetricCall.toRoute (tag : Bytes) : MetricCall → Option (Int × Seconds)
  | .request .. => none
  | .routeRequest labels statusCode d => if labels.tag = tag then some (statusCode, d) else none

/-- A histogram as a reader of quantiles needs it, of the statuses and durations that have
been recorded. -/
structure ValidHistogram (buckets : Fin 12 → Nat) (count classes : Nat)
    (recorded : List (Int × Seconds)) : Prop where
  monotone : Monotone buckets
  below : ∀ i : Fin 11,
    buckets i.castSucc = recorded.countP fun r => r.2 ≤ bucketBoundaries i
  infinite : buckets (Fin.last 11) = count
  count : count = recorded.length
  classes : classes = recorded.countP fun r => 200 ≤ r.1

/-- The four status counters together. -/
def Metrics.classes (m : Metrics) : Nat :=
  m.requests2xx + m.requests3xx + m.requests4xx + m.requests5xx

def RouteMetricSample.classes (s : RouteMetricSample) : Nat :=
  s.requests2xx + s.requests3xx + s.requests4xx + s.requests5xx

def Metrics.Valid (m : Metrics) (recorded : List (Int × Seconds)) : Prop :=
  ValidHistogram m.durationBuckets m.durationCount m.classes recorded

def RouteMetricSample.Valid (s : RouteMetricSample) (recorded : List (Int × Seconds)) : Prop :=
  ValidHistogram s.durationBuckets s.durationCount s.classes recorded

lemma validHistogram_initial : ValidHistogram (fun _ => 0) 0 0 [] :=
  ⟨monotone_const, fun _ => rfl, rfl, rfl, rfl⟩

variable {recorded : List (Int × Seconds)}

/-- Both functions record a request in this way. -/
lemma ValidHistogram.record {buckets : Fin 12 → Nat} {count classes classes' : Nat}
    (h : ValidHistogram buckets count classes recorded) (statusCode : Int) (d : Seconds)
    (hclasses : classes' = classes + if 200 ≤ statusCode then 1 else 0) :
    ValidHistogram (observe bucketBoundaries d buckets) (count + 1) classes'
      (recorded ++ [(statusCode, d)]) := by
  have hcounts : Counts bucketBoundaries buckets (recorded.map (·.2)) := by
    constructor
    · intro i
      rw [h.below, List.countP_map]
      rfl
    · rw [h.infinite, h.count, List.length_map]
  have hnext := hcounts.observe d
  constructor
  · exact hnext.monotone bucketBoundaries_monotone
  · intro i
    rw [observe_castSucc, h.below, List.countP_append, List.countP_singleton]
    simp
  · rw [observe_last, h.infinite]
  · rw [h.count, List.length_append, List.length_singleton]
  · rw [hclasses, h.classes, List.countP_append, List.countP_singleton]
    simp

lemma classes_countStatus (c : Int) :
    (m.countStatus c).classes = m.classes + if 200 ≤ c then 1 else 0 := by
  unfold Metrics.countStatus Metrics.classes
  split_ifs <;> first | omega | (dsimp only; omega)

/-- The status counters are the only ones that `countStatus` touches. -/
lemma countStatus_rest (c : Int) :
    (m.countStatus c).durationBuckets = m.durationBuckets ∧
      (m.countStatus c).durationCount = m.durationCount ∧
      (m.countStatus c).routeMetrics = m.routeMetrics := by
  unfold Metrics.countStatus
  split_ifs <;> exact ⟨rfl, rfl, rfl⟩

lemma Metrics.Valid.recordRequest {m : Metrics} (h : m.Valid recorded) (statusCode : Int)
    (d : Seconds) : (m.recordRequest statusCode d).Valid (recorded ++ [(statusCode, d)]) := by
  rcases countStatus_rest m statusCode with ⟨hbuckets, hcount, -⟩
  have hnext := ValidHistogram.record h statusCode d (classes_countStatus m statusCode)
  unfold Metrics.Valid Metrics.recordRequest
  dsimp only
  rw [hbuckets, hcount]
  exact hnext

lemma RouteMetricSample.Valid.recordDuration {s : RouteMetricSample} (h : s.Valid recorded)
    (statusCode : Int) (d : Seconds) :
    (s.recordDuration statusCode d).Valid (recorded ++ [(statusCode, d)]) := by
  unfold RouteMetricSample.Valid RouteMetricSample.recordDuration RouteMetricSample.classes
  simp only [countFailure_eq, countStatus_eq]
  refine ValidHistogram.record h statusCode d ?_
  unfold RouteMetricSample.classes
  split_ifs <;> omega

/-- The sample of a tag; counters at zero before the first request. -/
def Metrics.sample (m : Metrics) (tag : Bytes) : RouteMetricSample :=
  (m.routeMetrics.lookup tag).getD {}

lemma sample_recordRequest (statusCode : Int) (d : Seconds) (tag : Bytes) :
    (m.recordRequest statusCode d).sample tag = m.sample tag := by
  unfold Metrics.sample Metrics.recordRequest
  dsimp only
  rw [(countStatus_rest m statusCode).2.2]

lemma sample_recordRouteRequest (labels : RouteLabels) (statusCode : Int) (d : Seconds)
    (tag : Bytes) :
    (m.recordRouteRequest labels statusCode d).sample tag =
      if labels.tag = tag then (m.sample tag).recordDuration statusCode d else m.sample tag := by
  unfold Metrics.sample Metrics.recordRouteRequest
  dsimp only
  split
  · rename_i htag
    subst htag
    rw [AList.lookup_insert, Option.getD_some]
  · rename_i htag
    rw [AList.lookup_insert_ne (Ne.symm htag)]

/-- After every call the global histogram and that of every tag are valid. -/
lemma metricsAfter_valid (calls : List MetricCall) :
    (metricsAfter calls).Valid (calls.filterMap MetricCall.toGlobal) ∧
      ∀ tag, ((metricsAfter calls).sample tag).Valid
        (calls.filterMap (MetricCall.toRoute tag)) := by
  induction calls using List.reverseRecOn with
  | nil => exact ⟨validHistogram_initial, fun _ => validHistogram_initial⟩
  | append_singleton calls call ih =>
    have hstep : metricsAfter (calls ++ [call]) = (metricsAfter calls).apply call := by
      simp [metricsAfter]
    simp only [hstep, List.filterMap_append]
    rcases ih with ⟨hglobal, hroutes⟩
    cases call with
    | request statusCode d =>
      refine ⟨hglobal.recordRequest statusCode d, fun tag => ?_⟩
      rw [Metrics.apply, sample_recordRequest]
      simpa [List.filterMap_cons, MetricCall.toRoute] using hroutes tag
    | routeRequest labels statusCode d =>
      constructor
      · rw [List.filterMap_cons_none rfl, List.filterMap_nil, List.append_nil]
        exact hglobal
      · intro tag
        rw [Metrics.apply, sample_recordRouteRequest]
        split
        · rename_i htag
          simpa [List.filterMap_cons, MetricCall.toRoute, htag]
            using (hroutes tag).recordDuration statusCode d
        · rename_i htag
          simpa [List.filterMap_cons, MetricCall.toRoute, htag] using hroutes tag

/-- A route has an entry from its first request on. -/
lemma lookup_isSome (calls : List MetricCall) {labels : RouteLabels} {statusCode : Int}
    {d : Seconds} (h : .routeRequest labels statusCode d ∈ calls) :
    ((metricsAfter calls).routeMetrics.lookup labels.tag).isSome = true := by
  induction calls using List.reverseRecOn with
  | nil => simp at h
  | append_singleton calls call ih =>
    have hstep : metricsAfter (calls ++ [call]) = (metricsAfter calls).apply call := by
      simp [metricsAfter]
    rw [hstep]
    cases call with
    | request c e =>
      have hold : .routeRequest labels statusCode d ∈ calls := by simpa using h
      rw [Metrics.apply, Metrics.recordRequest]
      dsimp only
      rw [(countStatus_rest _ c).2.2]
      exact ih hold
    | routeRequest other c e =>
      by_cases htag : labels.tag = other.tag
      · rw [Metrics.apply, Metrics.recordRouteRequest, htag]
        simp
      · have hold : .routeRequest labels statusCode d ∈ calls := by
          rcases List.mem_append.mp h with hmem | hmem
          · exact hmem
          · obtain ⟨rfl, -, -⟩ := MetricCall.routeRequest.inj (List.mem_singleton.mp hmem)
            exact absurd rfl htag
        rw [Metrics.apply, Metrics.recordRouteRequest]
        dsimp only
        rw [AList.lookup_insert_ne htag]
        exact ih hold

/-- The histogram of all requests, and that of each route that has one, are valid after any
calls. -/
theorem histograms_valid (calls : List MetricCall) :
    (metricsAfter calls).Valid (calls.filterMap MetricCall.toGlobal) ∧
    (∀ tag s, (metricsAfter calls).routeMetrics.lookup tag = some s →
      s.Valid (calls.filterMap (MetricCall.toRoute tag))) ∧
    ∀ labels statusCode d, .routeRequest labels statusCode d ∈ calls →
      ∃ s, (metricsAfter calls).routeMetrics.lookup labels.tag = some s := by
  rcases metricsAfter_valid calls with ⟨hglobal, hroutes⟩
  refine ⟨hglobal, ?_, ?_⟩
  · intro tag s hs
    have hsample : (metricsAfter calls).sample tag = s := by simp [Metrics.sample, hs]
    rw [← hsample]
    exact hroutes tag
  · intro labels statusCode d hmem
    exact Option.isSome_iff_exists.mp (lookup_isSome calls hmem)

end EpollGateway.Handler
