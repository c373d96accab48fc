import Tickline.Analysis.AnalyticsConservation
import Tickline.Analysis.OutlierRule
import Tickline.Model.AnalysisReport

/-!
# What a report does not depend on

The order of the sessions of a bundle, of the baseline bundles and of the reviews.  Whatever the
stages keep of them in a list is sorted by a key that differs between its elements: the keys of
sessions, the archive digests and the reviewed metrics.  The rest is a count, a set or a median.
-/

set_option autoImplicit false

namespace Tickline.Analysis

open Tickline.Library Tickline.Library.Checks Tickline.Library.Grouping Tickline.Model
open Tickline.Model.Storage Tickline.Model.Analytics

/-! ## Sessions -/

/-- A bundle with its sessions in another order. -/
structure SessionsReordered (bundle other : Analytics.InvestigationBundle) : Prop where
  sessions : bundle.sessions.Perm other.sessions
  rest : other = { bundle with sessions := other.sessions }

/-- INTERNAL: counting forgets the order. -/
theorem countDistinct_perm {α β : Type} [DecidableEq β] (value : α → β) {items others : List α}
    (h : items.Perm others) : countDistinct value items = countDistinct value others :=
  (h.map value).dedup.length_eq

/-- **The statistics forget the order of the sessions.** -/
theorem analyze_reordered {bundle other : Analytics.InvestigationBundle}
    (hkeys : (bundle.sessions.map (·.key)).Nodup) (h : SessionsReordered bundle other) :
    analyzeInvestigation bundle = analyzeInvestigation other := by
  have hsorted : (sortOn (fun item : Analytics.InvestigationSession => toLex item.key)
      bundle.sessions) = sortOn (fun item => toLex item.key) other.sessions := by
    refine sortOn_eq_of_perm h.sessions ?_
    have hmap := hkeys.map toLex.injective
    rwa [List.map_map] at hmap
  rw [h.rest]
  unfold analyzeInvestigation
  simp only [hsorted, h.sessions.length_eq, countDistinct_perm _ h.sessions]

/-! ## Baselines -/

/-- INTERNAL: the least of values does not depend on their order. -/
theorem min?_perm {values others : List ℚ} (h : values.Perm others) : values.min? = others.min? := by
  refine Option.ext fun value => ?_
  rw [List.min?_eq_some_iff, List.min?_eq_some_iff, h.mem_iff]
  simp only [h.mem_iff]

/-- INTERNAL: the greatest of values does not depend on their order. -/
theorem max?_perm {values others : List ℚ} (h : values.Perm others) : values.max? = others.max? := by
  refine Option.ext fun value => ?_
  rw [List.max?_eq_some_iff, List.max?_eq_some_iff, h.mem_iff]
  simp only [h.mem_iff]

/-- INTERNAL: the baseline of a metric forgets the order of the values. -/
theorem metricBaselineOf_perm {values others : List ℚ} (h : values.Perm others)
    (policy : OutlierPolicy) (metric : Metric) :
    metricBaselineOf values policy metric = metricBaselineOf others policy metric := by
  unfold metricBaselineOf deviationOf
  rw [h.length_eq, min?_perm h, max?_perm h, h.sum_eq, median?_perm h, median?_perm (h.map _)]

/-- INTERNAL: so does what makes samples usable. -/
theorem Usable.perm {samples others : List InvestigationStatistics} {policy : OutlierPolicy}
    (h : samples.Perm others) (husable : Usable samples policy) : Usable others policy where
  enough := h.length_eq ▸ husable.enough
  verified statistics hstatistics := husable.verified statistics (h.mem_iff.mpr hstatistics)
  distinct := (h.map _).nodup_iff.mp husable.distinct

/-- INTERNAL: the baseline of usable samples forgets their order. -/
theorem baselineOf_perm {samples others : List InvestigationStatistics} {policy : OutlierPolicy}
    (h : samples.Perm others) (husable : Usable samples policy) :
    baselineOf samples policy = baselineOf others policy := by
  have hdigests : sortOn codePoints (samples.map (·.archiveDigest)) =
      sortOn codePoints (others.map (·.archiveDigest)) :=
    sortOn_eq_of_perm (h.map _) (husable.distinct.map codePoints_injective)
  have hmetrics : ∀ metric, metricBaselineOf (metricValues samples metric) policy metric =
      metricBaselineOf (metricValues others metric) policy metric := fun metric =>
    metricBaselineOf_perm (h.map _) policy metric
  unfold baselineOf
  simp only [h.length_eq, hdigests, hmetrics]

/-- **A baseline forgets the order of the samples.** -/
theorem buildInvestigationBaseline_perm {samples others : List InvestigationStatistics}
    (h : samples.Perm others) {policy : Option OutlierPolicy} {baseline : InvestigationBaseline} :
    buildInvestigationBaseline samples policy = .ok baseline ↔
      buildInvestigationBaseline others policy = .ok baseline := by
  rw [buildInvestigationBaseline_iff, buildInvestigationBaseline_iff]
  constructor
  · rintro ⟨husable, rfl⟩
    exact ⟨husable.perm h, baselineOf_perm h husable⟩
  · rintro ⟨husable, rfl⟩
    exact ⟨husable.perm h.symm, baselineOf_perm h.symm husable⟩

/-! ## Reviews -/

/-- INTERNAL: in a function that returned, no check has fired. -/
theorem report_guard_iff {α : Type} {c : Prop} [Decidable c] {code : String} {message : Str}
    {f : PUnit → Except AnalyticsError α} {y : Except AnalyticsError α} {a : α} :
    (if c then reportFail code message >>= f else y) = .ok a ↔ ¬ c ∧ y = .ok a :=
  ite_error_eq_ok

/-- INTERNAL: the loop over the reviews. -/
theorem validateReviews_iff {platform : Platform} {findingMetrics : List Str} {evidenceCount : ℕ}
    {generatedAtUtc : DateTime} {reviews : List FindingReview} {seen : List Str} {u : Unit}
    (hseen : seen.Nodup) :
    validateReviews platform findingMetrics evidenceCount generatedAtUtc seen reviews = .ok u ↔
      (seen ++ reviews.map (·.metric)).Nodup ∧ ∀ review ∈ reviews,
        validateReview platform review findingMetrics evidenceCount generatedAtUtc = .ok () := by
  induction reviews generalizing seen with
  | nil => exact iff_of_true rfl ⟨by rwa [List.map_nil, List.append_nil], by simp⟩
  | cons review reviews ih =>
    have hsplit : seen ++ (review :: reviews).map (·.metric) =
        (seen ++ [review.metric]) ++ reviews.map (·.metric) := by
      rw [List.map_cons, List.append_assoc, List.singleton_append]
    have hfresh : (seen ++ [review.metric]).Nodup ↔ review.metric ∉ seen := by
      rw [List.nodup_append_comm, List.singleton_append, List.nodup_cons]
      exact and_iff_left hseen
    rw [hsplit, List.forall_mem_cons]
    simp only [validateReviews, report_guard_iff, bind_ok_iff, List.contains_iff_mem]
    constructor
    · rintro ⟨hnew, _, hreview, hrest⟩
      obtain ⟨hdistinct, hall⟩ := (ih (hfresh.mpr hnew)).mp hrest
      exact ⟨hdistinct, hreview, hall⟩
    · rintro ⟨hdistinct, hreview, hall⟩
      have hnodup := (List.nodup_append.mp hdistinct).1
      exact ⟨hfresh.mp hnodup, (), hreview, (ih hnodup).mpr ⟨hdistinct, hall⟩⟩

/-- INTERNAL: a report that is made of reviews is made of them in another order. -/
theorem buildAnalysisReport_of_perm {platform : Platform} {statistics : InvestigationStatistics}
    {baseline : InvestigationBaseline} {outliers : OutlierAnalysis} {generatedAtUtc : DateTime}
    {reviews others : List FindingReview} (h : reviews.Perm others)
    {report : InvestigationAnalysisReport}
    (hbuilt : buildAnalysisReport platform statistics baseline outliers generatedAtUtc reviews =
      .ok report) :
    buildAnalysisReport platform statistics baseline outliers generatedAtUtc others =
      .ok report := by
  simp only [buildAnalysisReport, report_guard_iff, bind_ok_iff, pure_eq_ok,
    validateReviews_iff List.nodup_nil, List.nil_append] at hbuilt ⊢
  obtain ⟨hutc, harchive, hbaseline, hfindings, u, ⟨hdistinct, hall⟩, rfl⟩ := hbuilt
  have hsorted : sortOn (fun item : FindingReview => codePoints item.metric) reviews =
      sortOn (fun item => codePoints item.metric) others := by
    refine sortOn_eq_of_perm h ?_
    have hmap := hdistinct.map codePoints_injective
    rwa [List.map_map] at hmap
  refine ⟨hutc, harchive, hbaseline, hfindings, u, ⟨(h.map _).nodup_iff.mp hdistinct, ?_⟩, ?_⟩
  · exact fun review hreview => hall review (h.mem_iff.mpr hreview)
  · rw [hsorted]

/-- **A report forgets the order of the reviews.** -/
theorem buildAnalysisReport_perm {platform : Platform} {statistics : InvestigationStatistics}
    {baseline : InvestigationBaseline} {outliers : OutlierAnalysis} {generatedAtUtc : DateTime}
    {reviews others : List FindingReview} (h : reviews.Perm others)
    {report : InvestigationAnalysisReport} :
    buildAnalysisReport platform statistics baseline outliers generatedAtUtc reviews =
        .ok report ↔
      buildAnalysisReport platform statistics baseline outliers generatedAtUtc others =
        .ok report :=
  ⟨buildAnalysisReport_of_perm h, buildAnalysisReport_of_perm h.symm⟩

/-! ## Reports -/

/-- A bundle that the parser returns. -/
def Accepted (bundle : Analytics.InvestigationBundle) : Prop :=
  ∃ message text, parseInvestigationBundleJson message text = .ok bundle

/-- Bundles in another order, each with its sessions in another order. -/
def BundlesReordered (bundles others : List Analytics.InvestigationBundle) : Prop :=
  ∃ middle, bundles.Perm middle ∧ List.Forall₂ SessionsReordered middle others

/-- INTERNAL: the statistics of bundles forget both orders. -/
theorem statistics_perm {bundles others : List Analytics.InvestigationBundle}
    (hbundles : ∀ bundle ∈ bundles, Accepted bundle) (h : BundlesReordered bundles others) :
    (bundles.map analyzeInvestigation).Perm (others.map analyzeInvestigation) := by
  obtain ⟨middle, hperm, hsessions⟩ := h
  have hmiddle : ∀ bundle ∈ middle, Accepted bundle := fun bundle hbundle =>
    hbundles bundle (hperm.mem_iff.mpr hbundle)
  have hsame : middle.map analyzeInvestigation = others.map analyzeInvestigation := by
    clear hperm
    induction hsessions with
    | nil => rfl
    | cons hfirst _ ih =>
      obtain ⟨⟨message, text, hparse⟩, hrest⟩ := List.forall_mem_cons.mp hmiddle
      rw [List.map_cons, List.map_cons, ih hrest,
        analyze_reordered (CheckedBundle.of_parse hparse).sessions hfirst]
  exact hsame ▸ hperm.map _

/-- INTERNAL: two functions that return the same. -/
theorem toOption_congr {ε α : Type} {x y : Except ε α} (h : ∀ a, x = .ok a ↔ y = .ok a) :
    x.toOption = y.toOption := by
  cases x with
  | ok a =>
    rw [(h a).mp rfl]
  | error e =>
    cases y with
    | ok a => exact absurd ((h a).mpr rfl) (by rintro ⟨⟩)
    | error e' => rfl

/-- **A report does not depend on irrelevant order**: with the baseline bundles, the reviews and
the sessions of any bundle in another order, the same document comes out, or none.
SRC: analytics.py:126-338, baseline.py:195-378, analysis_report.py:95-247,
analysis_report.py:303-476 -/
theorem report_ignores_order {candidate other : Analytics.InvestigationBundle}
    {baselines others : List Analytics.InvestigationBundle} {reviews otherReviews : List FindingReview}
    (hcandidate : Accepted candidate) (hbaselines : ∀ bundle ∈ baselines, Accepted bundle)
    (hsessions : SessionsReordered candidate other) (hbundles : BundlesReordered baselines others)
    (hreviews : reviews.Perm otherReviews) (platform : Platform) (policy : Option OutlierPolicy)
    (generatedAtUtc : DateTime) :
    (runReport platform candidate baselines policy generatedAtUtc reviews).toOption =
      (runReport platform other others policy generatedAtUtc otherReviews).toOption := by
  obtain ⟨message, text, hparse⟩ := hcandidate
  have hanalyze := analyze_reordered (CheckedBundle.of_parse hparse).sessions hsessions
  have hstatistics := statistics_perm hbaselines hbundles
  refine toOption_congr fun document => ?_
  simp only [runReport, bind_ok_iff, hanalyze]
  refine exists_congr fun baseline => and_congr (buildInvestigationBaseline_perm hstatistics) ?_
  refine exists_congr fun outliers => and_congr_right fun _ => ?_
  exact exists_congr fun report => and_congr_left' (buildAnalysisReport_perm hreviews)

/-- The document of an investigation without records. -/
def quietDocument (archive : Char) (sessionIds : List Char) : List Char :=
  let zeros := quoted (List.replicate 64 '0')
  let sessions := sessionIds.map fun sessionId => objectText [("clientId", quoted ['1']),
    ("sessionId", quoted [sessionId]), ("lastCommittedSequence", quoted ['0']),
    ("firstTargetTick", quoted ['0']), ("lastTargetTick", quoted ['0']),
    ("acceptedCommands", ['0']), ("rejectedCommands", ['0'])]
  objectText [("schemaVersion", ['1']), ("archiveDigest", quoted (List.replicate 64 archive)),
    ("initialHeadDigest", zeros), ("trustedHeadDigest", zeros),
    ("importedAtUtc", quoted "2026-07-20T00:00:00Z".toList),
    ("sessions", '[' :: (sessions.intersperse [',']).flatten ++ [']']), ("evidence", ['[', ']']),
    ("replay", objectText [("verified", "true".toList), ("finalTick", quoted ['0']),
      ("finalWorldFingerprint", quoted ['7']), ("acceptedCommands", ['0']),
      ("rejectedCommands", ['0'])])]

/-- What the parser returns of it. -/
def quietInvestigation (archive : UInt16) (sessionIds : List ℕ) :
    Analytics.InvestigationBundle where
  schemaVersion := 1
  archiveDigest := List.replicate 64 archive
  initialHeadDigest := List.replicate 64 48
  trustedHeadDigest := List.replicate 64 48
  importedAtUtc := sampleTime
  sessions := sessionIds.map fun sessionId => {
    clientId := 1
    sessionId
    lastCommittedSequence := 0
    firstTargetTick := 0
    lastTargetTick := 0
    acceptedCommands := 0
    rejectedCommands := 0 }
  evidence := []
  replay := {
    verified := true
    finalTick := 0
    finalWorldFingerprint := 7
    acceptedCommands := 0
    rejectedCommands := 0 }

/-- A review of the number of sessions. -/
def sessionReview : FindingReview where
  metric := str "session_count"
  disposition := str "expected_behavior"
  rationale := str "two clients"
  reviewer := str "analyst"
  reviewedAtUtc := ⟨sampleTime, 0, some 0⟩

/-- The default policy for three samples. -/
def sparsePolicy : OutlierPolicy :=
  { defaultOutlierPolicy with minimumSamples := 3, enough := by decide }

/-- The report of two sessions over three investigations without any. -/
def sampleReport (sessionIds : List ℕ) (archives : List UInt16) : Except AnalyticsError Document :=
  runReport ⟨id, fun value => value.time⟩ (quietInvestigation 52 sessionIds)
    (archives.map fun archive => quietInvestigation archive []) (some sparsePolicy)
    ⟨sampleTime, 0, some 0⟩ [sessionReview]

/-- Two sessions are reported, and reported alike in both orders. -/
theorem report_ignores_order_sessions :
    (sampleReport [2, 1] [49, 50, 51]).toOption.isSome = true ∧
      (sampleReport [2, 1] [49, 50, 51]).toOption = (sampleReport [1, 2] [51, 50, 49]).toOption := by
  have hcandidate : Accepted (quietInvestigation 52 [2, 1]) :=
    ⟨fun _ => [], quietDocument '4' ['2', '1'], by decide +kernel⟩
  have hfirst : Accepted (quietInvestigation 49 []) :=
    ⟨fun _ => [], quietDocument '1' [], by decide +kernel⟩
  have hsecond : Accepted (quietInvestigation 50 []) :=
    ⟨fun _ => [], quietDocument '2' [], by decide +kernel⟩
  have hthird : Accepted (quietInvestigation 51 []) :=
    ⟨fun _ => [], quietDocument '3' [], by decide +kernel⟩
  have hbaselines : ∀ bundle ∈ [49, 50, 51].map fun archive => quietInvestigation archive [],
      Accepted bundle :=
    List.forall_mem_cons.mpr ⟨hfirst, List.forall_mem_cons.mpr ⟨hsecond,
      List.forall_mem_cons.mpr ⟨hthird, by simp⟩⟩⟩
  have hsessions : SessionsReordered (quietInvestigation 52 [2, 1])
      (quietInvestigation 52 [1, 2]) :=
    ⟨List.Perm.swap .., rfl⟩
  have hbundles : BundlesReordered ([49, 50, 51].map fun archive => quietInvestigation archive [])
      ([51, 50, 49].map fun archive => quietInvestigation archive []) :=
    ⟨_, (List.reverse_perm _).symm, List.forall₂_same.mpr fun _ _ => ⟨.refl _, rfl⟩⟩
  exact ⟨by decide +kernel,
    report_ignores_order hcandidate hbaselines hsessions hbundles (.refl _) _ _ _⟩

end Tickline.Analysis
