import Mathlib.Data.Int.Log
import Mathlib.Data.List.DropRight
import Mathlib.Data.Rat.Floor
import Tickline.Library.Median
import Tickline.Model.InvestigationAnalytics

/-!
# Baselines and outliers

`buildInvestigationBaseline` summarises each metric of verified investigations by its median and the
median of the deviations from it.  `evaluateInvestigationOutliers` measures another investigation
against them: in deviations where they are not zero, and in the policy's tolerance elsewhere.

A `float` is a rational number.  `statistics.median` and `fmean` are the median and the mean.
-/

set_option autoImplicit false

namespace Tickline.Model.Analytics

open Tickline.Library Tickline.Library.Grouping Tickline.Model.Storage

/-! ## Numbers as text -/

/-- The nearest integer; of two the even one. -/
def roundHalfEven (value : ℚ) : ℤ :=
  let below := ⌊value⌋
  let rest := value - below
  if rest < 1 / 2 then below
  else if 1 / 2 < rest then below + 1
  else if below % 2 = 0 then below
  else below + 1

/-- The digits behind the point, with the point, without trailing zeros. -/
def fractionText (digits : List Char) : List Char :=
  match digits.rdropWhile (· = '0') with
  | [] => []
  | kept => '.' :: kept

/-- `format` of a number that is not zero with the type `g` and so many significant digits, without
its sign. -/
def formatMagnitude (precision : ℕ) (magnitude : ℚ) : List Char :=
  let exponent := Int.log 10 magnitude
  let rounded := (roundHalfEven (magnitude / 10 ^ (exponent - (precision - 1)))).toNat
  let (rounded, exponent) :=
    if rounded = 10 ^ precision then (10 ^ (precision - 1), exponent + 1) else (rounded, exponent)
  let digits := Nat.toDigits 10 rounded
  if exponent < -4 ∨ precision ≤ exponent then
    digits.take 1 ++ fractionText (digits.drop 1) ++ ['e', if exponent < 0 then '-' else '+'] ++
      (if exponent.natAbs < 10 then ['0'] else []) ++ Nat.toDigits 10 exponent.natAbs
  else if exponent < 0 then
    '0' :: fractionText (List.replicate (exponent.natAbs - 1) '0' ++ digits)
  else digits.take (exponent.toNat + 1) ++ fractionText (digits.drop (exponent.toNat + 1))

/-- `format` of a number with the type `g`, which is of six significant digits. -/
def formatGeneral (value : ℚ) : Str :=
  Json.units <|
    if value = 0 then ['0']
    else if value < 0 then '-' :: formatMagnitude 6 (-value)
    else formatMagnitude 6 value

example : formatGeneral (7 / 2) = str "3.5" ∧ formatGeneral (-1 / 3) = str "-0.333333" ∧
    formatGeneral 1234567 = str "1.23457e+06" := by
  decide +kernel

/-! ## Metrics -/

/-- The metrics by their names.
SRC: baseline.py:151-178 -/
inductive Metric
  | commandCount
  | rejectionRate
  | sessionCount
  | uniqueTargetTicks
  | tickSpan
  | commandsPerTick
  deriving DecidableEq

namespace Metric

def name : Metric → Str
  | commandCount => str "command_count"
  | rejectionRate => str "rejection_rate"
  | sessionCount => str "session_count"
  | uniqueTargetTicks => str "unique_target_ticks"
  | tickSpan => str "tick_span"
  | commandsPerTick => str "commands_per_tick"

/-- SRC: baseline.py:139-148 -/
def commandsPerTickOf (statistics : InvestigationStatistics) : Except AnalyticsError ℚ :=
  if statistics.uniqueTargetTicks = 0 then .ok 0
  else divide statistics.outcomes.total statistics.uniqueTargetTicks

/-- The extractor of a metric. -/
def extract (statistics : InvestigationStatistics) : Metric → Except AnalyticsError ℚ
  | commandCount => .ok statistics.outcomes.total
  | rejectionRate => statistics.outcomes.rejectionRate
  | sessionCount => .ok statistics.sessionCount
  | uniqueTargetTicks => .ok statistics.uniqueTargetTicks
  | tickSpan => .ok statistics.tickSpan
  | commandsPerTick => commandsPerTickOf statistics

end Metric

/-- The metrics in the order of the extractors.
SRC: baseline.py:151-178 -/
def metricExtractors : List Metric :=
  [.commandCount, .rejectionRate, .sessionCount, .uniqueTargetTicks, .tickSpan, .commandsPerTick]

/-! ## Policies -/

/-- SRC: baseline.py:11 -/
def modifiedZScale : ℚ := 6744897501960817 / 10 ^ 16

/-- A policy that its constructor lets through.
SRC: baseline.py:23-58 -/
structure OutlierPolicy where
  minimumSamples : ℕ := 5
  modifiedZThreshold : ℚ := 7 / 2
  commandCountTolerance : ℚ := 1
  rejectionRateTolerance : ℚ := 1 / 20
  sessionCountTolerance : ℚ := 1
  uniqueTargetTicksTolerance : ℚ := 1
  tickSpanTolerance : ℚ := 1
  commandsPerTickTolerance : ℚ := 1 / 2
  enough : 3 ≤ minimumSamples := by decide
  thresholdPositive : 0 < modifiedZThreshold := by norm_num
  tolerancesPositive : ∀ tolerance ∈ [commandCountTolerance, rejectionRateTolerance,
    sessionCountTolerance, uniqueTargetTicksTolerance, tickSpanTolerance,
    commandsPerTickTolerance], 0 < tolerance := by simp

/-- `OutlierPolicy()`. -/
def defaultOutlierPolicy : OutlierPolicy := {}

/-- SRC: baseline.py:60-77 -/
def OutlierPolicy.toleranceFor (policy : OutlierPolicy) : Metric → ℚ
  | .commandCount => policy.commandCountTolerance
  | .rejectionRate => policy.rejectionRateTolerance
  | .sessionCount => policy.sessionCountTolerance
  | .uniqueTargetTicks => policy.uniqueTargetTicksTolerance
  | .tickSpan => policy.tickSpanTolerance
  | .commandsPerTick => policy.commandsPerTickTolerance

/-! ## Baselines -/

/-- SRC: baseline.py:80-89 -/
structure MetricBaseline where
  metric : Metric
  sampleCount : ℕ
  minimum : ℚ
  maximum : ℚ
  mean : ℚ
  median : ℚ
  medianAbsoluteDeviation : ℚ
  zeroMadTolerance : ℚ
  deriving DecidableEq

/-- SRC: baseline.py:92-97 -/
structure InvestigationBaseline where
  sampleCount : ℕ
  archiveDigests : List Str
  metrics : List MetricBaseline
  policy : OutlierPolicy

/-- Raise an `InvestigationBaselineError`.
SRC: baseline.py:14-20 -/
def baselineFail {α : Type} (code : String) (message : Str) : Except AnalyticsError α :=
  .error (.baseline code message)

/-- SRC: baseline.py:181-192 -/
def requireVerified (statistics : InvestigationStatistics) (role : String) :
    Except AnalyticsError Unit :=
  if statistics.replayVerified then .ok ()
  else baselineFail (role ++ ".unverified")
    (str "investigation " ++ statistics.archiveDigest ++
      str " does not have a verified replay result")

/-- What `median`, `min` and `max` say of values; they raise when there is none. -/
def ofValues {α : Type} : Option α → Except AnalyticsError α
  | some value => .ok value
  | none => .error .noData

/-- SRC: baseline.py:195-215 -/
def buildMetricBaseline (metric : Metric) (values : List ℚ) (policy : OutlierPolicy) :
    Except AnalyticsError MetricBaseline := do
  let center ← ofValues (median? values)
  let deviations := values.map fun value => |value - center|
  return {
    metric
    sampleCount := values.length
    minimum := ← ofValues values.min?
    maximum := ← ofValues values.max?
    mean := ← divide values.sum values.length
    median := center
    medianAbsoluteDeviation := ← ofValues (median? deviations)
    zeroMadTolerance := policy.toleranceFor metric }

/-- The loop over the samples, with the digests before.
SRC: baseline.py:234-249 -/
def collectDigests (archiveDigests : List Str) :
    List InvestigationStatistics → Except AnalyticsError (List Str)
  | [] => .ok archiveDigests
  | statistics :: rest => do
    requireVerified statistics "baseline"
    if statistics.archiveDigest ∈ archiveDigests then
      baselineFail "baseline.duplicate_archive"
        (str "baseline contains archive digest " ++ statistics.archiveDigest ++
          str " more than once")
    collectDigests (archiveDigests ++ [statistics.archiveDigest]) rest

/-- SRC: baseline.py:218-267 -/
def buildInvestigationBaseline (samples : List InvestigationStatistics)
    (policy : Option OutlierPolicy) : Except AnalyticsError InvestigationBaseline := do
  let activePolicy := policy.getD defaultOutlierPolicy
  if samples.length < activePolicy.minimumSamples then
    baselineFail "baseline.insufficient_samples"
      (str "expected at least " ++ strOfInt activePolicy.minimumSamples ++
        str " verified investigations, got " ++ strOfInt samples.length)
  let archiveDigests ← collectDigests [] samples
  let metrics ← metricExtractors.mapM fun metric => do
    let values ← samples.mapM fun statistics => metric.extract statistics
    buildMetricBaseline metric values activePolicy
  return {
    sampleCount := samples.length
    archiveDigests := sortOn codePoints archiveDigests
    metrics
    policy := activePolicy }

/-! ## Outliers -/

/-- SRC: baseline.py:280 -/
inductive Direction
  | high
  | low
  deriving DecidableEq

def Direction.name : Direction → Str
  | high => str "high"
  | low => str "low"

/-- SRC: baseline.py:289, baseline.py:306 -/
inductive Method
  | modifiedZ
  | zeroMadTolerance
  deriving DecidableEq

def Method.name : Method → Str
  | modifiedZ => str "modified_z"
  | zeroMadTolerance => str "zero_mad_tolerance"

/-- SRC: baseline.py:107-117 -/
structure OutlierFinding where
  metric : Metric
  direction : Direction
  observed : ℚ
  baselineMedian : ℚ
  baselineMad : ℚ
  score : ℚ
  threshold : ℚ
  method : Method
  explanation : Str
  deriving DecidableEq

/-- SRC: baseline.py:119-121 -/
def OutlierFinding.normalizedSeverity (finding : OutlierFinding) : Except AnalyticsError ℚ :=
  divide finding.score finding.threshold

/-- SRC: baseline.py:124-129 -/
structure OutlierAnalysis where
  archiveDigest : Str
  baselineSampleCount : ℕ
  evaluatedMetrics : List Metric
  findings : List OutlierFinding
  deriving DecidableEq

/-- SRC: baseline.py:131-133 -/
def OutlierAnalysis.hasOutliers (analysis : OutlierAnalysis) : Bool := !analysis.findings.isEmpty

/-- SRC: baseline.py:270-328 -/
def evaluateMetric (baseline : MetricBaseline) (observed : ℚ) (policy : OutlierPolicy) :
    Except AnalyticsError (Option OutlierFinding) := do
  let delta := observed - baseline.median
  if delta = 0 then return none
  let direction := if 0 < delta then Direction.high else Direction.low
  if 0 < baseline.medianAbsoluteDeviation then
    let score := |← divide (modifiedZScale * delta) baseline.medianAbsoluteDeviation|
    let threshold := policy.modifiedZThreshold
    if score < threshold then return none
    return some {
      metric := baseline.metric
      direction, observed
      baselineMedian := baseline.median
      baselineMad := baseline.medianAbsoluteDeviation
      score, threshold
      method := .modifiedZ
      explanation := baseline.metric.name ++ str " is " ++ direction.name ++ str ": observed " ++
        formatGeneral observed ++ str ", baseline median " ++ formatGeneral baseline.median ++
        str ", MAD " ++ formatGeneral baseline.medianAbsoluteDeviation ++
        str ", modified z-score " ++ formatGeneral score ++
        str " meets threshold " ++ formatGeneral threshold }
  else
    let tolerance := baseline.zeroMadTolerance
    let score ← divide |delta| tolerance
    let threshold : ℚ := 1
    if score < threshold then return none
    return some {
      metric := baseline.metric
      direction, observed
      baselineMedian := baseline.median
      baselineMad := baseline.medianAbsoluteDeviation
      score, threshold
      method := .zeroMadTolerance
      explanation := baseline.metric.name ++ str " is " ++ direction.name ++ str ": observed " ++
        formatGeneral observed ++ str ", fixed baseline median " ++
        formatGeneral baseline.median ++ str ", absolute deviation " ++ formatGeneral |delta| ++
        str " meets tolerance " ++ formatGeneral tolerance }

/-- `-item.normalized_severity`, and the finding.
SRC: baseline.py:364-369 -/
def ranked (finding : OutlierFinding) : Except AnalyticsError (OutlierFinding × ℚ) := do
  return (finding, -(← finding.normalizedSeverity))

/-- `metric_values[metric]`. -/
def valueOf (metricValues : List (Metric × ℚ)) (metric : Metric) : Except AnalyticsError ℚ :=
  match metricValues.lookup metric with
  | some value => .ok value
  | none => .error (.key metric.name)

/-- SRC: baseline.py:331-378 -/
def evaluateInvestigationOutliers (baseline : InvestigationBaseline)
    (candidate : InvestigationStatistics) : Except AnalyticsError OutlierAnalysis := do
  requireVerified candidate "candidate"
  if candidate.archiveDigest ∈ baseline.archiveDigests then
    baselineFail "candidate.in_baseline"
      (str "candidate archive digest is already included in the baseline")
  let metricValues ← metricExtractors.mapM fun metric => do
    return (metric, ← metric.extract candidate)
  let findings ← baseline.metrics.mapM fun item => do
    evaluateMetric item (← valueOf metricValues item.metric) baseline.policy
  let findings ← (findings.filterMap id).mapM ranked
  let sorted := sortOn
    (fun item : OutlierFinding × ℚ => toLex (item.2, codePoints item.1.metric.name)) findings
  return {
    archiveDigest := candidate.archiveDigest
    baselineSampleCount := baseline.sampleCount
    evaluatedMetrics := metricExtractors
    findings := sorted.map Prod.fst }

end Tickline.Model.Analytics
