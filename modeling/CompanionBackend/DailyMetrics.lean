import Mathlib.Algebra.Order.Field.Basic
import Mathlib.Algebra.Order.Ring.Unbundled.Rat
import CompanionBackend.VoiceModels

/-!
# Metrics of a business day

`compute_daily_metrics` projects the calls, the usage ledger and the jobs onto ten metrics of a day,
and `_validated_values` takes the numbers that may be stored. An instant is a number of
microseconds and a day a number of days.
-/
namespace CompanionBackend.DailyMetrics

open VoiceModels (CallStatus SummaryStatus UsageType)

abbrev Instant := ℤ
abbrev Day := ℤ

/-! ### Sources -/

structure Call where
  callId : ℕ
  createdAt : Instant
  connectedAt : Option Instant
  status : CallStatus
  durationSeconds : ℤ
  call01Fallback : Option Bool
  summaryStatus : SummaryStatus
  deriving DecidableEq

structure Usage where
  quotaDate : Option Day
  usageType : UsageType
  freeSecondsUsed : ℤ
  extraSecondsUsed : ℤ
  deriving DecidableEq

/-- `VOICE_POSTPROCESS_STATUSES`, which are those of memory jobs and `partial_success`. -/
inductive JobStatus
  | skipped | pending | processing | success | partialSuccess | failed | cancelled
  deriving DecidableEq

structure MemoryJob where
  createdAt : Instant
  status : JobStatus
  nextRetryAt : Option Instant
  deriving DecidableEq

structure PostprocessJob where
  callId : ℕ
  callSummary : Bool
  createdAt : Instant
  status : JobStatus
  nextRetryAt : Option Instant
  deriving DecidableEq

/-- What a snapshot of the database shows of calls, ledger and jobs. -/
structure Source where
  calls : List Call
  ledger : List Usage
  memoryJobs : List MemoryJob
  postprocessJobs : List PostprocessJob
  deriving DecidableEq

/-! ### Prices -/

inductive PriceUnit
  | minute | second
  deriving DecidableEq

/-- A price is not negative once it has been accepted. -/
structure SimulatedPricing where
  unitPrice : ℚ
  unit : PriceUnit
  currency : String
  nonneg : 0 ≤ unitPrice
  deriving DecidableEq

/-- `estimate_amount`, rounded half up to six places; none when it raises. -/
def SimulatedPricing.estimate (p : SimulatedPricing) (seconds : ℤ) : Option ℚ :=
  if seconds < 0 then none
  else
    let amount := seconds * p.unitPrice / (if p.unit = .minute then 60 else 1)
    let value : ℚ := ⌊amount * 10 ^ 6 + 1 / 2⌋ / 10 ^ 6
    if 10 ^ 18 < value then none else some value

/-- What labels the stored rows. -/
structure Dimensions where
  timezone : String
  formulaVersion : String
  pricing : Option SimulatedPricing
  deriving DecidableEq

def dailyDimensions (pricing : Option SimulatedPricing) : Dimensions :=
  ⟨"Asia/Shanghai", "voice-daily-v1", pricing⟩

/-- What is used of the language and the database. -/
structure Host where
  /-- `business_day_bounds`, unless it overflows. -/
  bounds : Day → Option (Instant × Instant)
  /-- The digest of the dimensions. -/
  hash : Dimensions → String
  /-- The float nearest to a number. -/
  toFloat : ℚ → ℚ
  /-- The number that the column keeps of a float. -/
  store : ℚ → ℚ

/-- Rounding to floats keeps the order, and zero and one are floats. -/
structure Host.Lawful (H : Host) : Prop where
  mono : Monotone H.toFloat
  zero : H.toFloat 0 = 0
  one : H.toFloat 1 = 1

/-! ### Metrics -/

inductive MetricName
  | dailyCallCount | connectRate | missedRate | failureRate | avgDurationSeconds
  | billableSeconds | estimatedCost | call01FallbackRate | memorySuccessRate | summarySuccessRate
  deriving DecidableEq

open MetricName

def METRIC_NAMES : List MetricName :=
  [dailyCallCount, connectRate, missedRate, failureRate, avgDurationSeconds,
    billableSeconds, estimatedCost, call01FallbackRate, memorySuccessRate, summarySuccessRate]

def RATE_NAMES : List MetricName :=
  [connectRate, missedRate, failureRate, call01FallbackRate, memorySuccessRate, summarySuccessRate]

theorem mem_METRIC_NAMES (name : MetricName) : name ∈ METRIC_NAMES := by
  cases name <;> decide

inductive Status
  | notMeasurable | provisional | measured
  deriving DecidableEq

inductive Reason
  | noEligibleSamples | undatedLegacyUsage | settlementPending | priceUnconfigured
  | unknownCall01Outcomes
  deriving DecidableEq

inductive Value
  | int (n : ℤ)
  | float (q : ℚ)
  deriving DecidableEq

def Value.toRat : Value → ℚ
  | int n => n
  | float q => q

/-- `float(value)`. -/
def Value.asFloat (H : Host) : Value → ℚ
  | int n => H.toFloat n
  | float q => q

structure Metric where
  name : MetricName
  value : Option Value
  status : Status
  reason : Option Reason
  deriving DecidableEq

/-- `_metric`. -/
def metric (name : MetricName) (value : Option Value) (reason : Option Reason)
    (provisional : Bool) : Metric where
  name := name
  value := value
  status := if value = none then .notMeasurable else if provisional then .provisional else .measured
  reason := reason

/-- `_rate`. -/
def rate (H : Host) (name : MetricName) (numerator denominator : ℤ) (provisional : Bool) : Metric :=
  if denominator ≠ 0 then
    metric name (some (.float (H.toFloat (numerator / denominator)))) none provisional
  else metric name none (some .noEligibleSamples) provisional

structure Projection where
  pricing : Option SimulatedPricing
  date : Day
  timezone : String
  formulaVersion : String
  settlementPendingCalls : ℕ
  pendingCalls : ℕ
  pendingMemoryJobs : ℕ
  pendingSummaryJobs : ℕ
  metrics : List Metric
  deriving DecidableEq

def JobStatus.waiting (status : JobStatus) (nextRetryAt : Option Instant) : Bool :=
  status = .pending || status = .processing || (status = .failed && nextRetryAt.isSome)

def JobStatus.unsuccessful (status : JobStatus) (nextRetryAt : Option Instant) : Bool :=
  status = .failed && nextRetryAt.isNone

def within (bounds : Instant × Instant) (t : Instant) : Bool := bounds.1 ≤ t && t < bounds.2

/-- The calls of the day. -/
def Source.cohort (source : Source) (bounds : Instant × Instant) : List Call :=
  source.calls.filter fun c => within bounds c.createdAt

def Call.completed (c : Call) : Bool := c.connectedAt.isSome && c.status.terminal

def Source.duration (source : Source) (bounds : Instant × Instant) : ℤ :=
  (((source.cohort bounds).filter Call.completed).map (·.durationSeconds)).sum

/-- The connected seconds that were settled for the day. -/
def Source.billable (source : Source) (day : Day) : ℤ :=
  ((source.ledger.filter fun u => u.quotaDate = some day ∧ u.usageType = .connected).map
    fun u => u.freeSecondsUsed + u.extraSecondsUsed).sum

def Source.legacy (source : Source) : ℕ := source.ledger.countP fun u => u.quotaDate.isNone

/-- Calls that were connected before the end of the day and still run. -/
def Source.unsettled (source : Source) (bounds : Instant × Instant) : ℕ :=
  source.calls.countP fun c => c.connectedAt.any (· < bounds.2) && !c.status.terminal

/-- The summary jobs of the day, each with its call. -/
def Source.summaries (source : Source) (bounds : Instant × Instant) : List (PostprocessJob × Call) :=
  (source.postprocessJobs.filter fun j => j.callSummary && within bounds j.createdAt).flatMap
    fun j => (source.calls.filter fun c => c.callId = j.callId).map fun c => (j, c)

def callMetrics (H : Host) (calls : List Call) (duration : ℤ) : List Metric :=
  let total := calls.length
  let active := calls.any fun c => !c.status.terminal
  [metric dailyCallCount (some (.int total)) none active,
    rate H connectRate (calls.countP fun c => c.connectedAt.isSome) total active,
    rate H missedRate (calls.countP fun c => c.status = .missed) total active,
    rate H failureRate (calls.countP fun c => c.status = .failed) total active,
    rate H avgDurationSeconds duration (calls.countP Call.completed) active]

def usageMetrics (H : Host) (pricing : Option SimulatedPricing) (billable : ℤ)
    (legacy unsettled : Bool) : Option (List Metric) := do
  let pending : Option Reason :=
    if legacy then some .undatedLegacyUsage
    else if unsettled then some .settlementPending else none
  let seconds := metric billableSeconds (if legacy then none else some (.int billable)) pending unsettled
  match pricing with
  | none => some [seconds, metric estimatedCost none (some .priceUnconfigured) false]
  | some p =>
    if legacy || unsettled then some [seconds, metric estimatedCost none pending false]
    else
      let cost ← p.estimate billable
      some [seconds, metric estimatedCost (some (.float (H.toFloat cost))) pending false]

def fallbackMetric (H : Host) (calls : List Call) : Metric :=
  if calls.any fun c => c.call01Fallback.isNone then
    metric call01FallbackRate none (some .unknownCall01Outcomes) false
  else
    rate H call01FallbackRate (calls.countP fun c => c.call01Fallback = some true) calls.length
      (calls.any fun c => !c.status.terminal)

def successMetric (H : Host) (name : MetricName) (succeeded unsuccessful pending : ℕ) : Metric :=
  rate H name succeeded (succeeded + unsuccessful) (pending ≠ 0)

/-- None when the bounds or the estimate raise. -/
def computeDailyMetrics (H : Host) (source : Source) (day : Day)
    (pricing : Option SimulatedPricing) : Option Projection := do
  let bounds ← H.bounds day
  let calls := source.cohort bounds
  let usage ← usageMetrics H pricing (source.billable day) (source.legacy ≠ 0)
    (source.unsettled bounds ≠ 0)
  let jobs := source.memoryJobs.filter fun j => within bounds j.createdAt
  let memoryPending := jobs.countP fun j => j.status.waiting j.nextRetryAt
  let summaries := source.summaries bounds
  let summaryPending := summaries.countP fun x => x.1.status.waiting x.1.nextRetryAt
  some {
    pricing := pricing
    date := day
    timezone := "Asia/Shanghai"
    formulaVersion := "voice-daily-v1"
    settlementPendingCalls := source.unsettled bounds
    pendingCalls := calls.countP fun c => !c.status.terminal
    pendingMemoryJobs := memoryPending
    pendingSummaryJobs := summaryPending
    metrics := callMetrics H calls (source.duration bounds) ++ usage ++
      [fallbackMetric H calls,
        successMetric H memorySuccessRate (jobs.countP fun j => j.status = .success)
          (jobs.countP fun j => j.status.unsuccessful j.nextRetryAt) memoryPending,
        successMetric H summarySuccessRate
          (summaries.countP fun x => x.1.status = .success && x.2.summaryStatus = .ready)
          (summaries.countP fun x => x.1.status.unsuccessful x.1.nextRetryAt) summaryPending] }

/-! ### Validation -/

/-- The loop of `_validated_values`; `seen` are the names so far. -/
def validateMetrics (H : Host) : List Metric → List MetricName → List (MetricName × ℚ) →
    Option (List (MetricName × ℚ))
  | [], _, values => some values
  | m :: rest, seen, values =>
    if m.name ∉ METRIC_NAMES ∨ m.name ∈ seen then none
    else
      match m.value with
      | none =>
        if m.status = .notMeasurable then validateMetrics H rest (m.name :: seen) values else none
      | some v =>
        if m.status = .notMeasurable ∨ v.toRat < 0 then none
        else if m.name ∈ RATE_NAMES ∧ 1 < v.toRat then none
        else
          validateMetrics H rest (m.name :: seen)
            (if m.status = .measured then values ++ [(m.name, v.asFloat H)] else values)

def validatedValues (H : Host) (p : Projection) (day : Day) : Option (List (MetricName × ℚ)) :=
  if p.date ≠ day ∨ p.timezone ≠ "Asia/Shanghai" ∨ p.formulaVersion ≠ "voice-daily-v1" then none
  else if p.metrics.length ≠ METRIC_NAMES.length then none
  else validateMetrics H p.metrics [] []

end CompanionBackend.DailyMetrics
