import Mathlib.Tactic.Positivity
import Tickline.Library.Checks
import Tickline.Model.InvestigationBaseline

/-!
# The outlier rule

A baseline is what its samples determine, and it is built of enough verified samples of different
archives (`buildInvestigationBaseline_iff`).  A value that is flagged is farther from the median than
the median absolute deviation, whichever of the two methods measures it, so that at most half of the
samples are flagged against their own baseline (`outlier_rule_robust`).
-/

set_option autoImplicit false

namespace Tickline.Analysis

open Tickline.Library Tickline.Library.Checks Tickline.Library.Grouping Tickline.Model
open Tickline.Model.Storage Tickline.Model.Analytics

/-! ## Metrics -/

/-- INTERNAL: a division that does not raise. -/
theorem divide_ok {left right : ℚ} (h : right ≠ 0) : divide left right = .ok (left / right) :=
  if_neg h

/-- The value of a metric. -/
def metricValue (statistics : InvestigationStatistics) : Metric → ℚ
  | .commandCount => statistics.outcomes.total
  | .rejectionRate => statistics.outcomes.rejected / statistics.outcomes.total
  | .sessionCount => statistics.sessionCount
  | .uniqueTargetTicks => statistics.uniqueTargetTicks
  | .tickSpan => statistics.tickSpan
  | .commandsPerTick => statistics.outcomes.total / statistics.uniqueTargetTicks

/-- INTERNAL: a ratio is zero where there is nothing to divide by. -/
theorem ratio_ok (left right : ℕ) :
    (if right = 0 then .ok 0 else divide left right) = .ok ((left : ℚ) / right) := by
  split
  · next h => rw [h, Nat.cast_zero, div_zero]
  · next h => exact divide_ok (Nat.cast_ne_zero.mpr h)

/-- **An extractor never raises.** -/
theorem extract_ok (statistics : InvestigationStatistics) (metric : Metric) :
    metric.extract statistics = .ok (metricValue statistics metric) := by
  cases metric with
  | rejectionRate => exact ratio_ok statistics.outcomes.rejected statistics.outcomes.total
  | commandsPerTick => exact ratio_ok statistics.outcomes.total statistics.uniqueTargetTicks
  | _ => rfl

/-- INTERNAL: every tolerance of a policy is positive. -/
theorem toleranceFor_pos (policy : OutlierPolicy) (metric : Metric) :
    0 < policy.toleranceFor metric := by
  refine policy.tolerancesPositive _ ?_
  cases metric <;> simp [OutlierPolicy.toleranceFor]

/-! ## Baselines -/

/-- The values of a metric. -/
def metricValues (samples : List InvestigationStatistics) (metric : Metric) : List ℚ :=
  samples.map fun statistics => metricValue statistics metric

/-- The median absolute deviation. -/
def deviationOf (values : List ℚ) (center : ℚ) : ℚ :=
  (median? (values.map fun value => |value - center|)).getD 0

/-- The baseline of the values of a metric. -/
def metricBaselineOf (values : List ℚ) (policy : OutlierPolicy) (metric : Metric) :
    MetricBaseline where
  metric
  sampleCount := values.length
  minimum := values.min?.getD 0
  maximum := values.max?.getD 0
  mean := values.sum / values.length
  median := (median? values).getD 0
  medianAbsoluteDeviation := deviationOf values ((median? values).getD 0)
  zeroMadTolerance := policy.toleranceFor metric

/-- INTERNAL: what a list that is not empty says. -/
theorem ofValues_ok {α : Type} {value : Option α} (other : α) (h : value.isSome) :
    ofValues value = .ok (value.getD other) := by
  cases value with
  | none => cases h
  | some value => rfl

/-- **The baseline of a metric** is built of any values. -/
theorem buildMetricBaseline_ok (metric : Metric) {values : List ℚ} (hvalues : values ≠ [])
    (policy : OutlierPolicy) :
    buildMetricBaseline metric values policy = .ok (metricBaselineOf values policy metric) := by
  have hmedian : ∀ values : List ℚ, values ≠ [] → (median? values).isSome := fun _ h =>
    Option.isSome_iff_exists.mpr (exists_median h)
  have hlength : (values.length : ℚ) ≠ 0 :=
    Nat.cast_ne_zero.mpr (List.length_pos_iff.mpr hvalues).ne'
  have hmin : values.min?.isSome := by rwa [List.isSome_min?_iff]
  have hmax : values.max?.isSome := by rwa [List.isSome_max?_iff]
  have hdeviations := hmedian (values.map fun value => |value - (median? values).getD 0|)
    (by rwa [ne_eq, List.map_eq_nil_iff])
  simp only [buildMetricBaseline, bind_ok_iff, pure_eq_ok]
  exact ⟨_, ofValues_ok 0 (hmedian values hvalues), _, ofValues_ok 0 hmin, _, ofValues_ok 0 hmax, _,
    divide_ok hlength, _, ofValues_ok 0 hdeviations, rfl⟩

/-- Enough verified samples of different archives. -/
structure Usable (samples : List InvestigationStatistics) (policy : OutlierPolicy) : Prop where
  enough : policy.minimumSamples ≤ samples.length
  verified : ∀ statistics ∈ samples, statistics.replayVerified = true
  distinct : (samples.map (·.archiveDigest)).Nodup

/-- The baseline of samples. -/
def baselineOf (samples : List InvestigationStatistics) (policy : OutlierPolicy) :
    InvestigationBaseline where
  sampleCount := samples.length
  archiveDigests := sortOn codePoints (samples.map (·.archiveDigest))
  metrics := metricExtractors.map fun metric =>
    metricBaselineOf (metricValues samples metric) policy metric
  policy

/-- INTERNAL: in a function that returned, no check has fired. -/
theorem baseline_guard_iff {α : Type} {c : Prop} [Decidable c] {code : String} {message : Str}
    {f : PUnit → Except AnalyticsError α} {y : Except AnalyticsError α} {a : α} :
    (if c then baselineFail code message >>= f else y) = .ok a ↔ ¬ c ∧ y = .ok a :=
  ite_error_eq_ok

/-- INTERNAL: an investigation that is verified. -/
theorem requireVerified_iff {statistics : InvestigationStatistics} {role : String} {u : Unit} :
    requireVerified statistics role = .ok u ↔ statistics.replayVerified = true := by
  unfold requireVerified
  split
  · next h => exact iff_of_true rfl h
  · next h => exact iff_of_false (fun heq => by cases heq) h

/-- INTERNAL: the loop over the samples. -/
theorem collectDigests_iff {samples : List InvestigationStatistics} {seen digests : List Str}
    (hseen : seen.Nodup) :
    collectDigests seen samples = .ok digests ↔
      (∀ statistics ∈ samples, statistics.replayVerified = true) ∧
        (seen ++ samples.map (·.archiveDigest)).Nodup ∧
        digests = seen ++ samples.map (·.archiveDigest) := by
  induction samples generalizing seen with
  | nil =>
    simp only [collectDigests, Except.ok.injEq, List.map_nil, List.append_nil, hseen, eq_comm,
      List.not_mem_nil, false_implies, implies_true, true_and]
  | cons statistics samples ih =>
    have hsplit : seen ++ (statistics :: samples).map (·.archiveDigest) =
        (seen ++ [statistics.archiveDigest]) ++ samples.map (·.archiveDigest) := by
      rw [List.map_cons, List.append_assoc, List.singleton_append]
    rw [hsplit, List.forall_mem_cons]
    simp only [collectDigests, bind_ok_iff, requireVerified_iff, baseline_guard_iff]
    constructor
    · rintro ⟨-, hverified, hnew, hrest⟩
      have hnodup : (seen ++ [statistics.archiveDigest]).Nodup := by
        rw [List.nodup_append_comm, List.singleton_append, List.nodup_cons]
        exact ⟨hnew, hseen⟩
      obtain ⟨hall, hdistinct, hdigests⟩ := (ih hnodup).mp hrest
      exact ⟨⟨hverified, hall⟩, hdistinct, hdigests⟩
    · rintro ⟨⟨hverified, hall⟩, hdistinct, hdigests⟩
      have hnodup : (seen ++ [statistics.archiveDigest]).Nodup := (List.nodup_append.mp hdistinct).1
      have hnew : statistics.archiveDigest ∉ seen := by
        rw [List.nodup_append_comm, List.singleton_append, List.nodup_cons] at hnodup
        exact hnodup.1
      exact ⟨(), hverified, hnew, (ih hnodup).mpr ⟨hall, hdistinct, hdigests⟩⟩

/-- **When a baseline is built**, and what it is.
SRC: baseline.py:218-267 -/
theorem buildInvestigationBaseline_iff {samples : List InvestigationStatistics}
    {policy : Option OutlierPolicy} {baseline : InvestigationBaseline} :
    buildInvestigationBaseline samples policy = .ok baseline ↔
      Usable samples (policy.getD defaultOutlierPolicy) ∧ baseline = baselineOf samples (policy.getD defaultOutlierPolicy) := by
  have hmetrics : samples ≠ [] → (metricExtractors.mapM fun metric => do
      let values ← samples.mapM fun statistics => metric.extract statistics
      buildMetricBaseline metric values (policy.getD defaultOutlierPolicy)) =
        .ok (baselineOf samples (policy.getD defaultOutlierPolicy)).metrics := by
    intro hsamples
    refine mapM_ok (f := fun metric =>
      metricBaselineOf (metricValues samples metric) (policy.getD defaultOutlierPolicy) metric) fun metric _ => ?_
    have hvalues : samples.mapM (fun statistics => metric.extract statistics) =
        .ok (metricValues samples metric) :=
      mapM_ok fun statistics _ => extract_ok statistics metric
    rw [hvalues]
    exact buildMetricBaseline_ok metric (by rwa [metricValues, ne_eq, List.map_eq_nil_iff]) _
  have hne : ¬ samples.length < (policy.getD defaultOutlierPolicy).minimumSamples → samples ≠ [] := by
    rintro hlength rfl
    have henough := (policy.getD defaultOutlierPolicy).enough
    rw [List.length_nil] at hlength
    omega
  simp only [buildInvestigationBaseline, baseline_guard_iff, bind_ok_iff, collectDigests_iff List.nodup_nil, List.nil_append, pure_eq_ok]
  constructor
  · rintro ⟨henough, digests, ⟨hverified, hdistinct, rfl⟩, metrics, hmapped, rfl⟩
    rw [hmetrics (hne henough)] at hmapped
    cases hmapped
    exact ⟨⟨Nat.le_of_not_lt henough, hverified, hdistinct⟩, rfl⟩
  · rintro ⟨⟨henough, hverified, hdistinct⟩, rfl⟩
    have hlength := Nat.not_lt.mpr henough
    exact ⟨hlength, _, ⟨hverified, hdistinct, rfl⟩, _, hmetrics (hne hlength), rfl⟩

/-! ## Measuring a value -/

/-- How far a value is from the median, in the measure of the method. -/
def scoreOf (item : MetricBaseline) (observed : ℚ) : ℚ :=
  if 0 < item.medianAbsoluteDeviation then
    |modifiedZScale * (observed - item.median) / item.medianAbsoluteDeviation|
  else |observed - item.median| / item.zeroMadTolerance

/-- From where on a score is flagged. -/
def thresholdOf (item : MetricBaseline) (policy : OutlierPolicy) : ℚ :=
  if 0 < item.medianAbsoluteDeviation then policy.modifiedZThreshold else 1

/-- On which side of the median a value is. -/
def directionOf (item : MetricBaseline) (observed : ℚ) : Direction :=
  if 0 < observed - item.median then .high else .low

/-- A value is off the median and its score is at the threshold or over it. -/
structure Flagged (item : MetricBaseline) (policy : OutlierPolicy) (observed : ℚ) : Prop where
  off : observed ≠ item.median
  reached : thresholdOf item policy ≤ scoreOf item observed

/-- A finding is about a value. -/
structure Finds (item : MetricBaseline) (policy : OutlierPolicy) (observed : ℚ)
    (finding : OutlierFinding) : Prop where
  metric : finding.metric = item.metric
  direction : finding.direction = directionOf item observed
  value : finding.observed = observed
  score : finding.score = scoreOf item observed
  threshold : finding.threshold = thresholdOf item policy

variable {item : MetricBaseline} {policy : OutlierPolicy} {observed : ℚ}

/-- **What is found of a value.**
SRC: baseline.py:270-328 -/
theorem evaluateMetric_cases (htolerance : 0 < item.zeroMadTolerance) :
    (¬ Flagged item policy observed ∧ evaluateMetric item observed policy = .ok none) ∨
      Flagged item policy observed ∧ ∃ finding,
        evaluateMetric item observed policy = .ok (some finding) ∧
          Finds item policy observed finding := by
  by_cases hoff : observed = item.median
  · refine .inl ⟨fun h => h.off hoff, ?_⟩
    unfold evaluateMetric
    rw [if_pos (sub_eq_zero.mpr hoff)]
    rfl
  have hdelta : ¬ observed - item.median = 0 := sub_ne_zero.mpr hoff
  have hflagged : Flagged item policy observed ↔ ¬ scoreOf item observed < thresholdOf item policy :=
    ⟨fun h => not_lt.mpr h.reached, fun h => ⟨hoff, not_lt.mp h⟩⟩
  rw [hflagged]
  by_cases hmad : 0 < item.medianAbsoluteDeviation
  · have hscore : scoreOf item observed = |modifiedZScale * (observed - item.median) /
        item.medianAbsoluteDeviation| := if_pos hmad
    have hthreshold : thresholdOf item policy = policy.modifiedZThreshold := if_pos hmad
    simp only [evaluateMetric, if_neg hdelta, if_pos hmad, divide_ok hmad.ne', hthreshold, hscore]
    by_cases hlow : |modifiedZScale * (observed - item.median) /
        item.medianAbsoluteDeviation| < policy.modifiedZThreshold
    · exact .inl ⟨not_not.mpr hlow, if_pos hlow⟩
    · refine .inr ⟨hlow, _, if_neg hlow, rfl, rfl, rfl, hscore.symm, hthreshold.symm⟩
  · have hscore : scoreOf item observed = |observed - item.median| / item.zeroMadTolerance :=
      if_neg hmad
    have hthreshold : thresholdOf item policy = 1 := if_neg hmad
    simp only [evaluateMetric, if_neg hdelta, if_neg hmad, divide_ok htolerance.ne', hthreshold,
      hscore]
    by_cases hlow : |observed - item.median| / item.zeroMadTolerance < 1
    · exact .inl ⟨not_not.mpr hlow, if_pos hlow⟩
    · exact .inr ⟨hlow, _, if_neg hlow, rfl, rfl, rfl, hscore.symm, hthreshold.symm⟩

/-- INTERNAL: a value is evaluated. -/
theorem evaluateMetric_ok (htolerance : 0 < item.zeroMadTolerance) :
    ∃ result, evaluateMetric item observed policy = .ok result := by
  rcases @evaluateMetric_cases item policy observed htolerance with
    ⟨-, h⟩ | ⟨-, finding, h, -⟩
  · exact ⟨none, h⟩
  · exact ⟨some finding, h⟩

/-- INTERNAL: what is found is about a flagged value. -/
theorem finds_of_evaluateMetric (htolerance : 0 < item.zeroMadTolerance) {finding : OutlierFinding}
    (h : evaluateMetric item observed policy = .ok (some finding)) :
    Flagged item policy observed ∧ Finds item policy observed finding := by
  rcases @evaluateMetric_cases item policy observed htolerance with
    ⟨-, hnone⟩ | ⟨hflagged, other, hother, hfinds⟩
  · rw [hnone] at h
    cases h
  · rw [hother] at h
    cases h
    exact ⟨hflagged, hfinds⟩

/-- INTERNAL: a threshold is positive. -/
theorem thresholdOf_pos (item : MetricBaseline) (policy : OutlierPolicy) :
    0 < thresholdOf item policy := by
  unfold thresholdOf
  split
  · exact policy.thresholdPositive
  · exact one_pos

/-- INTERNAL: the severity of a finding. -/
theorem normalizedSeverity_ok {finding : OutlierFinding} (h : Finds item policy observed finding) :
    finding.normalizedSeverity = .ok (scoreOf item observed / thresholdOf item policy) := by
  rw [OutlierFinding.normalizedSeverity, h.score, h.threshold, divide_ok (thresholdOf_pos ..).ne']

/-- INTERNAL: the scale is positive. -/
theorem modifiedZScale_pos : 0 < modifiedZScale := by
  norm_num [modifiedZScale]

/-- **What is flagged is farther from the median** than the median absolute deviation. -/
theorem Flagged.deviation_lt (h : Flagged item policy observed)
    (hthreshold : modifiedZScale < policy.modifiedZThreshold) :
    item.medianAbsoluteDeviation < |observed - item.median| := by
  by_cases hmad : 0 < item.medianAbsoluteDeviation
  · have hscore : scoreOf item observed = modifiedZScale * |observed - item.median| /
        item.medianAbsoluteDeviation := by
      rw [scoreOf, if_pos hmad, abs_div, abs_mul, abs_of_pos modifiedZScale_pos, abs_of_pos hmad]
    have hreached : policy.modifiedZThreshold ≤ modifiedZScale * |observed - item.median| /
        item.medianAbsoluteDeviation := by
      rw [← hscore, ← (if_pos hmad : thresholdOf item policy = policy.modifiedZThreshold)]
      exact h.reached
    rw [le_div_iff₀ hmad] at hreached
    have hscaled : modifiedZScale * item.medianAbsoluteDeviation <
        modifiedZScale * |observed - item.median| :=
      (mul_lt_mul_of_pos_right hthreshold hmad).trans_le hreached
    exact lt_of_mul_lt_mul_left hscaled modifiedZScale_pos.le
  · exact (not_lt.mp hmad).trans_lt (abs_pos.mpr (sub_ne_zero.mpr h.off))

/-- Whether something is found of a value. -/
def isFlagged (item : MetricBaseline) (policy : OutlierPolicy) (observed : ℚ) : Bool :=
  match evaluateMetric item observed policy with
  | .ok (some _) => true
  | _ => false

/-- INTERNAL: of a flagged value something is found. -/
theorem flagged_of_isFlagged (htolerance : 0 < item.zeroMadTolerance)
    (h : isFlagged item policy observed = true) : Flagged item policy observed := by
  unfold isFlagged at h
  split at h
  · next finding heq => exact (finds_of_evaluateMetric htolerance heq).1
  · cases h

/-- **At most half of the values are flagged** against their own baseline. -/
theorem countP_isFlagged_le {values : List ℚ} (hvalues : values ≠ []) (metric : Metric)
    (hthreshold : modifiedZScale < policy.modifiedZThreshold) :
    2 * values.countP (isFlagged (metricBaselineOf values policy metric) policy) ≤
      values.length := by
  obtain ⟨center, hcenter⟩ := exists_median hvalues
  have hdeviations : (values.map fun value => |value - center|) ≠ [] := by
    rwa [ne_eq, List.map_eq_nil_iff]
  obtain ⟨deviation, hdeviation⟩ := exists_median hdeviations
  have hitem : (metricBaselineOf values policy metric).median = center ∧
      (metricBaselineOf values policy metric).medianAbsoluteDeviation = deviation := by
    simp only [metricBaselineOf, deviationOf, hcenter, Option.getD_some, hdeviation, and_self]
  have hfarther : values.countP (isFlagged (metricBaselineOf values policy metric) policy) ≤
      values.countP (fun value => deviation < |value - center|) := by
    refine List.countP_mono_left fun value _ hflagged => decide_eq_true ?_
    rw [← hitem.1, ← hitem.2]
    exact (flagged_of_isFlagged (toleranceFor_pos ..) hflagged).deviation_lt hthreshold
  have hhalf := countP_farther_le hdeviation
  omega

/-! ## Moving a value -/

/-- A value and one farther from the median on the same side. -/
inductive Farther (median : ℚ) : ℚ → ℚ → Prop
  | high {observed farther : ℚ} : median < observed → observed ≤ farther →
      Farther median observed farther
  | low {observed farther : ℚ} : observed < median → farther ≤ observed →
      Farther median observed farther

/-- INTERNAL: what moving does to the distance. -/
theorem Farther.spec {farther : ℚ} (h : Farther item.median observed farther) :
    |observed - item.median| ≤ |farther - item.median| ∧
      directionOf item farther = directionOf item observed ∧ farther ≠ item.median := by
  unfold directionOf
  cases h with
  | high hside hmove =>
    have h1 : 0 < observed - item.median := sub_pos.mpr hside
    have h2 : 0 < farther - item.median := sub_pos.mpr (hside.trans_le hmove)
    rw [abs_of_pos h1, abs_of_pos h2, if_pos h1, if_pos h2]
    exact ⟨sub_le_sub_right hmove _, rfl, (hside.trans_le hmove).ne'⟩
  | low hside hmove =>
    have h1 : observed - item.median < 0 := sub_neg.mpr hside
    have h2 : farther - item.median < 0 := sub_neg.mpr (hmove.trans_lt hside)
    rw [abs_of_neg h1, abs_of_neg h2, if_neg h1.not_gt, if_neg h2.not_gt]
    exact ⟨neg_le_neg (sub_le_sub_right hmove _), rfl, (hmove.trans_lt hside).ne⟩

/-- INTERNAL: the score grows with the distance. -/
theorem scoreOf_le {farther : ℚ} (htolerance : 0 < item.zeroMadTolerance)
    (h : |observed - item.median| ≤ |farther - item.median|) :
    scoreOf item observed ≤ scoreOf item farther := by
  unfold scoreOf
  split
  · rw [abs_div, abs_div, abs_mul, abs_mul]
    gcongr
  · gcongr

/-- A flagged value stays flagged with the same direction and no smaller severity. -/
structure StaysFlagged (item : MetricBaseline) (policy : OutlierPolicy) (finding : OutlierFinding)
    (farther : ℚ) (moved : OutlierFinding) : Prop where
  found : evaluateMetric item farther policy = .ok (some moved)
  direction : moved.direction = finding.direction
  severity : ∃ severity movedSeverity, finding.normalizedSeverity = .ok severity ∧
    moved.normalizedSeverity = .ok movedSeverity ∧ severity ≤ movedSeverity

/-- **Farther out a value stays flagged.** -/
theorem stays_flagged {farther : ℚ} {finding : OutlierFinding}
    (htolerance : 0 < item.zeroMadTolerance)
    (h : evaluateMetric item observed policy = .ok (some finding))
    (hfarther : Farther item.median observed farther) :
    ∃ moved, StaysFlagged item policy finding farther moved := by
  obtain ⟨hflagged, hfinds⟩ := finds_of_evaluateMetric htolerance h
  obtain ⟨hdistance, hdirection, hoff⟩ := hfarther.spec
  have hscore := scoreOf_le htolerance hdistance
  have hstill : Flagged item policy farther := ⟨hoff, hflagged.reached.trans hscore⟩
  rcases @evaluateMetric_cases item policy farther htolerance with
    ⟨hnot, -⟩ | ⟨-, moved, hmoved, hmovedFinds⟩
  · exact absurd hstill hnot
  · refine ⟨moved, hmoved, ?_, _, _, normalizedSeverity_ok hfinds,
      normalizedSeverity_ok hmovedFinds, ?_⟩
    · rw [hmovedFinds.direction, hfinds.direction, hdirection]
    · exact div_le_div_of_nonneg_right hscore (thresholdOf_pos item policy).le

/-! ## Evaluating an investigation -/

/-- INTERNAL: the values of a candidate. -/
theorem extractors_mapM (candidate : InvestigationStatistics) :
    (metricExtractors.mapM fun metric => do return (metric, ← metric.extract candidate)) =
      .ok (metricExtractors.map fun metric => (metric, metricValue candidate metric)) := by
  refine mapM_ok fun metric _ => ?_
  rw [extract_ok]
  rfl

/-- INTERNAL: the value of a metric is there. -/
theorem valueOf_ok (candidate : InvestigationStatistics) (metric : Metric) :
    valueOf (metricExtractors.map fun metric => (metric, metricValue candidate metric)) metric =
      .ok (metricValue candidate metric) := by
  cases metric <;> rfl

/-- **An evaluation succeeds** for every verified candidate that is not in the baseline.
SRC: baseline.py:331-378 -/
theorem evaluate_ok {baseline : InvestigationBaseline} {candidate : InvestigationStatistics}
    (htolerances : ∀ item ∈ baseline.metrics, 0 < item.zeroMadTolerance)
    (hverified : candidate.replayVerified = true)
    (hmember : candidate.archiveDigest ∉ baseline.archiveDigests) :
    ∃ analysis, evaluateInvestigationOutliers baseline candidate = .ok analysis := by
  obtain ⟨findings, hfindings, hfound⟩ := exists_mapM_ok baseline.metrics
    (fun item => do
      evaluateMetric item (← valueOf (metricExtractors.map fun metric =>
        (metric, metricValue candidate metric)) item.metric) baseline.policy)
    fun item hitem => by
      rw [valueOf_ok]
      exact evaluateMetric_ok (htolerances item hitem)
  obtain ⟨rankedFindings, hranked, -⟩ := exists_mapM_ok (findings.filterMap id)
    ranked fun finding hfinding => by
      obtain ⟨found, hmem, rfl⟩ := List.mem_filterMap.mp hfinding
      obtain ⟨item, hitem, hevaluated⟩ := hfound _ hmem
      rw [valueOf_ok] at hevaluated
      have hfinds := (finds_of_evaluateMetric (htolerances item hitem) hevaluated).2
      exact ⟨_, by rw [ranked, normalizedSeverity_ok hfinds]; rfl⟩
  simp only [evaluateInvestigationOutliers, bind_ok_iff, baseline_guard_iff, requireVerified_iff,
    extractors_mapM, pure_eq_ok]
  exact ⟨_, (), hverified, hmember, _, rfl, findings, hfindings, rankedFindings, hranked, rfl⟩

/-- INTERNAL: an evaluation raises only what it refuses. -/
theorem evaluate_error {baseline : InvestigationBaseline} {candidate : InvestigationStatistics}
    {error : AnalyticsError} (htolerances : ∀ item ∈ baseline.metrics, 0 < item.zeroMadTolerance)
    (h : evaluateInvestigationOutliers baseline candidate = .error error) :
    ∃ code message, error = .baseline code message := by
  by_cases hverified : candidate.replayVerified = true
  · by_cases hmember : candidate.archiveDigest ∈ baseline.archiveDigests
    · unfold evaluateInvestigationOutliers requireVerified at h
      rw [if_pos hverified] at h
      simp only [if_pos hmember] at h
      cases h
      exact ⟨_, _, rfl⟩
    · obtain ⟨analysis, hanalysis⟩ := evaluate_ok htolerances hverified hmember
      rw [hanalysis] at h
      cases h
  · unfold evaluateInvestigationOutliers requireVerified at h
    rw [if_neg hverified] at h
    cases h
    exact ⟨_, _, rfl⟩

/-! ## The rule -/

/-- The rule over a baseline of samples is robust. -/
structure Robust (samples : List InvestigationStatistics) (baseline : InvestigationBaseline) :
    Prop where
  metrics : baseline.metrics.map (·.metric) = metricExtractors
  half : ∀ item ∈ baseline.metrics, ∃ values,
    samples.mapM (fun statistics => item.metric.extract statistics) = .ok values ∧
      2 * values.countP (isFlagged item baseline.policy) ≤ samples.length
  measured : ∀ item ∈ baseline.metrics, ∀ observed,
    ∃ result, evaluateMetric item observed baseline.policy = .ok result
  evaluated : ∀ candidate error,
    evaluateInvestigationOutliers baseline candidate = .error error →
      ∃ code message, error = .baseline code message
  monotone : ∀ item ∈ baseline.metrics, ∀ observed finding farther,
    evaluateMetric item observed baseline.policy = .ok (some finding) →
      Farther item.median observed farther →
        ∃ moved, StaysFlagged item baseline.policy finding farther moved

/-- **The outlier rule is robust** where the threshold is over the scale.
SRC: baseline.py:195-378 -/
theorem outlier_rule_robust {samples : List InvestigationStatistics} {policy : Option OutlierPolicy}
    {baseline : InvestigationBaseline}
    (hthreshold : modifiedZScale < (policy.getD defaultOutlierPolicy).modifiedZThreshold)
    (h : buildInvestigationBaseline samples policy = .ok baseline) : Robust samples baseline := by
  obtain ⟨husable, rfl⟩ := buildInvestigationBaseline_iff.mp h
  have hsamples : samples ≠ [] := by
    rintro rfl
    have henough := (policy.getD defaultOutlierPolicy).enough.trans husable.enough
    cases henough
  have htolerances : ∀ item ∈ (baselineOf samples (policy.getD defaultOutlierPolicy)).metrics,
      0 < item.zeroMadTolerance := by
    intro item hitem
    obtain ⟨metric, -, rfl⟩ := List.mem_map.mp hitem
    exact toleranceFor_pos _ metric
  constructor
  case metrics => rfl
  case half =>
    intro item hitem
    obtain ⟨metric, -, rfl⟩ := List.mem_map.mp hitem
    have hvalues : metricValues samples metric ≠ [] := by
      rwa [metricValues, ne_eq, List.map_eq_nil_iff]
    have hhalf := countP_isFlagged_le hvalues metric hthreshold
    refine ⟨_, mapM_ok fun statistics _ => extract_ok statistics metric, ?_⟩
    rwa [metricValues, List.length_map] at hhalf
  case measured => exact fun item hitem observed => evaluateMetric_ok (htolerances item hitem)
  case evaluated => exact fun candidate error => evaluate_error htolerances
  case monotone =>
    exact fun item hitem observed finding farther => stays_flagged (htolerances item hitem)

/-- A verified investigation of this archive with so many accepted commands at one tick. -/
def sampleStatistics (archiveDigest : Str) (accepted : ℕ) : InvestigationStatistics where
  schemaVersion := 1
  archiveDigest
  importedAtUtc := {
    year := 2025, month := 6, day := 19, hour := 12, minute := 30, second := 15
    validYear := by decide
    validMonth := by decide
    validDay := by decide
    validTime := by decide }
  replayVerified := true
  finalTick := 5
  finalWorldFingerprint := 7
  outcomes := ⟨accepted, 0⟩
  sessionCount := 0
  uniqueClients := 0
  uniqueTargetTicks := 1
  firstTargetTick := some 5
  lastTargetTick := some 5
  tickSpan := 1
  busiestTicks := [5]
  sessions := []
  commandTypes := []
  rejectionCodes := []
  ticks := []

/-- Five investigations, one of which is out of the ordinary. -/
def fiveSamples : List InvestigationStatistics :=
  [sampleStatistics [49] 10, sampleStatistics [50] 11, sampleStatistics [51] 12,
    sampleStatistics [52] 13, sampleStatistics [53] 900]

/-- The rule over the five. -/
theorem outlier_rule_robust_five :
    Robust fiveSamples (baselineOf fiveSamples defaultOutlierPolicy) := by
  have hthreshold : modifiedZScale <
      ((none : Option OutlierPolicy).getD defaultOutlierPolicy).modifiedZThreshold := by
    norm_num [modifiedZScale, defaultOutlierPolicy]
  have husable : Usable fiveSamples ((none : Option OutlierPolicy).getD defaultOutlierPolicy) :=
    ⟨by decide, List.all_iff_forall_prop.mp (by decide), by decide⟩
  exact outlier_rule_robust hthreshold (buildInvestigationBaseline_iff.mpr ⟨husable, rfl⟩)

end Tickline.Analysis
