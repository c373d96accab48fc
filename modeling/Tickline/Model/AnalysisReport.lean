import Tickline.Model.InvestigationBaseline

/-!
# Analysis reports

`buildAnalysisReport` joins the statistics of an investigation, a baseline, the outliers and the
reviews of a human into a report, and `analysisReportDocument` is the document of it.
`runReport` is the way from the bundles to the document.

What `repr` says of a string and what `astimezone` makes of a time that is not in UTC are parameters
(`Platform`).
-/

set_option autoImplicit false

namespace Tickline.Model.Analytics

open Tickline.Library Tickline.Library.Grouping Tickline.Model.Storage

/-! ## Values -/

/-- A `datetime`: its fields and its `utcoffset()`, which is `none` for a naive one. -/
structure DateTime where
  time : UtcTime
  microsecond : ℕ
  utcOffset : Option ℤ
  deriving DecidableEq

/-- What the interpreter does with strings and times. -/
structure Platform where
  repr : Str → Str
  astimezone : DateTime → UtcTime

/-- An element of `evidence_ordinals`; a `bool` is an `int` in Python. -/
inductive Ordinal
  | int (value : ℤ)
  | bool (value : Bool)
  deriving DecidableEq

namespace Ordinal

def value : Ordinal → ℤ
  | int value => value
  | bool value => if value then 1 else 0

/-- `repr` of an element. -/
def repr : Ordinal → Str
  | int (.ofNat value) => strOfInt value
  | int (.negSucc value) => str "-" ++ strOfInt (value + 1)
  | bool true => str "True"
  | bool false => str "False"

end Ordinal

/-- What a document is made of. -/
inductive Document
  | null
  | boolean (value : Bool)
  | int (value : ℤ)
  | float (value : ℚ)
  | string (text : Str)
  | list (items : List Document)
  | dict (members : List (String × Document))

def Ordinal.document : Ordinal → Document
  | int value => .int value
  | bool value => .boolean value

/-- `str` of an integer. -/
def strOfInteger (value : ℤ) : Str := (Ordinal.int value).repr

/-! ## Reports -/

/-- SRC: analysis_report.py:18 -/
def analysisReportSchemaVersion : ℕ := 1

/-- SRC: analysis_report.py:20-27 -/
def reviewDispositions : List Str :=
  [str "confirmed_anomaly", str "expected_behavior", str "false_positive", str "needs_context"]

/-- SRC: analysis_report.py:39-46 -/
structure FindingReview where
  metric : Str
  disposition : Str
  rationale : Str
  reviewer : Str
  reviewedAtUtc : DateTime
  evidenceOrdinals : List Ordinal := []
  deriving DecidableEq

/-- SRC: analysis_report.py:49-56 -/
structure InvestigationAnalysisReport where
  schemaVersion : ℕ
  generatedAtUtc : DateTime
  statistics : InvestigationStatistics
  baseline : InvestigationBaseline
  outliers : OutlierAnalysis
  reviews : List FindingReview

namespace InvestigationAnalysisReport

/-- SRC: analysis_report.py:58-60 -/
def reviewedFindingCount (report : InvestigationAnalysisReport) : ℕ := report.reviews.length

/-- SRC: analysis_report.py:62-64 -/
def unreviewedFindingCount (report : InvestigationAnalysisReport) : ℤ :=
  report.outliers.findings.length - report.reviews.length

/-- SRC: analysis_report.py:66-71 -/
def falsePositiveCount (report : InvestigationAnalysisReport) : ℕ :=
  report.reviews.countP (·.disposition = str "false_positive")

end InvestigationAnalysisReport

/-- SRC: analysis_report.py:74-75 -/
def reportFail {α : Type} (code : String) (message : Str) : Except AnalyticsError α :=
  .error (.report code message)

/-- SRC: analysis_report.py:78-82 -/
def isUtc (value : DateTime) : Bool := value.utcOffset = some 0

/-- `strftime` with the format `%Y-%m-%dT%H:%M:%SZ`. -/
def strftime (value : UtcTime) : Str :=
  Json.units <|
    paddedDigits 4 value.year ++ '-' :: paddedDigits 2 value.month ++ '-' ::
      paddedDigits 2 value.day ++ 'T' :: paddedDigits 2 value.hour ++ ':' ::
      paddedDigits 2 value.minute ++ ':' :: paddedDigits 2 value.second ++ ['Z']

/-- SRC: analysis_report.py:85-88 -/
def formatUtc (platform : Platform) (value : DateTime) : Str :=
  strftime (if isUtc value then value.time else platform.astimezone value)

/-- SRC: analysis_report.py:91-92 -/
def number (value : ℚ) : Document := .float (roundHalfEven (value * 10 ^ 12) / 10 ^ 12)

/-- The fields that order two times in UTC. -/
def DateTime.fields (value : DateTime) : List ℕ :=
  [value.time.year, value.time.month, value.time.day, value.time.hour, value.time.minute,
    value.time.second, value.microsecond]

/-- `str.isspace` of a character. -/
def isSpace (unit : UInt16) : Bool :=
  (9 ≤ unit && unit ≤ 13) || (28 ≤ unit && unit ≤ 32) || unit = 0x85 || unit = 0xa0 ||
    unit = 0x1680 || (0x2000 ≤ unit && unit ≤ 0x200a) || unit = 0x2028 || unit = 0x2029 ||
    unit = 0x202f || unit = 0x205f || unit = 0x3000

/-- `not text.strip()`. -/
def isBlank (text : Str) : Bool := text.all isSpace

/-- The loop over the ordinals of a review.
SRC: analysis_report.py:162-170 -/
def validateOrdinals (evidenceCount : ℕ) : List Ordinal → Except AnalyticsError Unit
  | [] => .ok ()
  | ordinal :: rest => do
    let outside := match ordinal with
      | .int value => !decide (0 ≤ value ∧ value < evidenceCount)
      | .bool _ => true
    if outside then
      reportFail "review.evidence_ordinal"
        (str "evidence ordinal " ++ ordinal.repr ++ str " is outside the available range 0.." ++
          strOfInteger (evidenceCount - 1))
    validateOrdinals evidenceCount rest

/-- SRC: analysis_report.py:95-170 -/
def validateReview (platform : Platform) (review : FindingReview) (findingMetrics : List Str)
    (evidenceCount : ℕ) (generatedAtUtc : DateTime) : Except AnalyticsError Unit := do
  if isBlank review.metric then
    reportFail "review.metric_empty" (str "review metric must not be empty")
  if !findingMetrics.contains review.metric then
    reportFail "review.unknown_finding"
      (str "review metric " ++ platform.repr review.metric ++
        str " does not identify an outlier finding")
  if !reviewDispositions.contains review.disposition then
    reportFail "review.invalid_disposition"
      (str "unsupported review disposition " ++ platform.repr review.disposition)
  if isBlank review.rationale then
    reportFail "review.rationale_empty" (str "review rationale must not be empty")
  if isBlank review.reviewer then
    reportFail "review.reviewer_empty" (str "reviewer must not be empty")
  if !isUtc review.reviewedAtUtc then
    reportFail "review.timestamp_not_utc" (str "review timestamp must use UTC")
  if generatedAtUtc.fields < review.reviewedAtUtc.fields then
    reportFail "review.after_report" (str "review timestamp must not follow report generation")
  let ordinals := review.evidenceOrdinals.map Ordinal.value
  let canonicalOrdinals := sortOn id ordinals.dedup
  if canonicalOrdinals ≠ ordinals then
    reportFail "review.evidence_order"
      (str "evidence ordinals must be unique and strictly increasing")
  validateOrdinals evidenceCount review.evidenceOrdinals

/-- The loop over the reviews, with the metrics before.
SRC: analysis_report.py:216-234 -/
def validateReviews (platform : Platform) (findingMetrics : List Str) (evidenceCount : ℕ)
    (generatedAtUtc : DateTime) : List Str → List FindingReview → Except AnalyticsError Unit
  | _, [] => .ok ()
  | reviewedMetrics, review :: rest => do
    if reviewedMetrics.contains review.metric then
      reportFail "review.duplicate"
        (str "metric " ++ platform.repr review.metric ++ str " has more than one review")
    validateReview platform review findingMetrics evidenceCount generatedAtUtc
    validateReviews platform findingMetrics evidenceCount generatedAtUtc
      (reviewedMetrics ++ [review.metric]) rest

/-- SRC: analysis_report.py:173-247 -/
def buildAnalysisReport (platform : Platform) (statistics : InvestigationStatistics)
    (baseline : InvestigationBaseline) (outliers : OutlierAnalysis) (generatedAtUtc : DateTime)
    (reviews : List FindingReview) : Except AnalyticsError InvestigationAnalysisReport := do
  if !isUtc generatedAtUtc then
    reportFail "report.timestamp_not_utc" (str "report generation timestamp must use UTC")
  if outliers.archiveDigest ≠ statistics.archiveDigest then
    reportFail "report.archive_mismatch"
      (str "outlier analysis archive digest does not match the investigation statistics")
  if outliers.baselineSampleCount ≠ baseline.sampleCount then
    reportFail "report.baseline_mismatch"
      (str "outlier analysis baseline sample count does not match the supplied baseline")
  let findingMetrics := (outliers.findings.map (·.metric.name)).dedup
  if findingMetrics.length ≠ outliers.findings.length then
    reportFail "report.duplicate_finding"
      (str "outlier analysis contains duplicate metric findings")
  validateReviews platform findingMetrics statistics.outcomes.total generatedAtUtc [] reviews
  return {
    schemaVersion := analysisReportSchemaVersion
    generatedAtUtc, statistics, baseline, outliers
    reviews := sortOn (fun item => codePoints item.metric) reviews }

/-! ## Documents -/

/-- SRC: analysis_report.py:250-257 -/
def outcomesDocument (outcomes : OutcomeStatistics) : Except AnalyticsError Document := do
  return .dict [("accepted", .int outcomes.accepted), ("rejected", .int outcomes.rejected),
    ("total", .int outcomes.total), ("acceptanceRate", number (← outcomes.acceptanceRate)),
    ("rejectionRate", number (← outcomes.rejectionRate))]

/-- SRC: analysis_report.py:264-279 -/
def reviewDocument (platform : Platform) (review : FindingReview) : Document :=
  .dict [("disposition", .string review.disposition), ("rationale", .string review.rationale),
    ("reviewer", .string review.reviewer),
    ("reviewedAtUtc", .string (formatUtc platform review.reviewedAtUtc)),
    ("evidenceOrdinals", .list (review.evidenceOrdinals.map Ordinal.document))]

/-- SRC: analysis_report.py:260-300 -/
def findingDocument (platform : Platform) (finding : OutlierFinding)
    (review : Option FindingReview) : Except AnalyticsError Document := do
  return .dict [("metric", .string finding.metric.name),
    ("direction", .string finding.direction.name), ("observed", number finding.observed),
    ("baselineMedian", number finding.baselineMedian), ("baselineMad", number finding.baselineMad),
    ("score", number finding.score), ("threshold", number finding.threshold),
    ("normalizedSeverity", number (← finding.normalizedSeverity)),
    ("method", .string finding.method.name), ("explanation", .string finding.explanation),
    ("reviewStatus", .string ((review.map (·.disposition)).getD (str "unreviewed"))),
    ("review", (review.map (reviewDocument platform)).getD .null)]

/-- `str` of a number, or `None`. -/
def optionalText (value : Option ℕ) : Document :=
  (value.map fun value => Document.string (strOfInt value)).getD .null

/-- A number, or `None`. -/
def optionalInt (value : Option ℕ) : Document :=
  (value.map fun value => Document.int value).getD .null

/-- SRC: analysis_report.py:350-377 -/
def sessionDocument (session : SessionStatistics) : Except AnalyticsError Document := do
  return .dict [("clientId", .string (strOfInt session.clientId)),
    ("sessionId", .string (strOfInt session.sessionId)),
    ("lastCommittedSequence", .string (strOfInt session.lastCommittedSequence)),
    ("firstTargetTick", .string (strOfInt session.firstTargetTick)),
    ("lastTargetTick", .string (strOfInt session.lastTargetTick)),
    ("tickSpan", .string (strOfInteger session.tickSpan)),
    ("uniqueTargetTicks", .int session.uniqueTargetTicks),
    ("firstOrdinal", optionalInt session.firstOrdinal),
    ("lastOrdinal", optionalInt session.lastOrdinal),
    ("commandTypes", .list (session.commandTypes.map .string)),
    ("outcomes", ← outcomesDocument session.outcomes)]

/-- SRC: analysis_report.py:378-393 -/
def commandTypeDocument (item : CommandTypeStatistics) : Except AnalyticsError Document := do
  return .dict [("commandType", .string item.commandType), ("sessionCount", .int item.sessionCount),
    ("firstTargetTick", .string (strOfInt item.firstTargetTick)),
    ("lastTargetTick", .string (strOfInt item.lastTargetTick)),
    ("outcomes", ← outcomesDocument item.outcomes)]

/-- SRC: analysis_report.py:394-403 -/
def rejectionCodeDocument (item : RejectionCodeStatistics) : Document :=
  .dict [("rejectionCode", .string item.rejectionCode), ("count", .int item.count),
    ("sessionCount", .int item.sessionCount), ("firstOrdinal", .int item.firstOrdinal),
    ("lastOrdinal", .int item.lastOrdinal)]

/-- SRC: analysis_report.py:404-416 -/
def tickDocument (item : TickStatistics) : Except AnalyticsError Document := do
  return .dict [("targetTick", .string (strOfInt item.targetTick)),
    ("sessionCount", .int item.sessionCount),
    ("commandTypes", .list (item.commandTypes.map .string)),
    ("outcomes", ← outcomesDocument item.outcomes)]

/-- SRC: analysis_report.py:317-417 -/
def investigationDocument (statistics : InvestigationStatistics) :
    Except AnalyticsError Document := do
  return .dict [("archiveDigest", .string statistics.archiveDigest),
    ("importedAtUtc", .string (strftime statistics.importedAtUtc)),
    ("replayVerified", .boolean statistics.replayVerified),
    ("finalTick", .string (strOfInt statistics.finalTick)),
    ("finalWorldFingerprint", .string (strOfInt statistics.finalWorldFingerprint)),
    ("outcomes", ← outcomesDocument statistics.outcomes),
    ("sessionCount", .int statistics.sessionCount),
    ("uniqueClients", .int statistics.uniqueClients),
    ("uniqueTargetTicks", .int statistics.uniqueTargetTicks),
    ("firstTargetTick", optionalText statistics.firstTargetTick),
    ("lastTargetTick", optionalText statistics.lastTargetTick),
    ("tickSpan", .string (strOfInteger statistics.tickSpan)),
    ("busiestTicks", .list (statistics.busiestTicks.map fun value => .string (strOfInt value))),
    ("sessions", .list (← statistics.sessions.mapM sessionDocument)),
    ("commandTypes", .list (← statistics.commandTypes.mapM commandTypeDocument)),
    ("rejectionCodes", .list (statistics.rejectionCodes.map rejectionCodeDocument)),
    ("ticks", .list (← statistics.ticks.mapM tickDocument))]

/-- SRC: analysis_report.py:418-448 -/
def baselineDocument (baseline : InvestigationBaseline) : Document :=
  .dict [("sampleCount", .int baseline.sampleCount),
    ("archiveDigests", .list (baseline.archiveDigests.map .string)),
    ("policy", .dict [("minimumSamples", .int baseline.policy.minimumSamples),
      ("modifiedZThreshold", number baseline.policy.modifiedZThreshold)]),
    ("metrics", .list <| baseline.metrics.map fun item => .dict [
      ("metric", .string item.metric.name), ("sampleCount", .int item.sampleCount),
      ("minimum", number item.minimum), ("maximum", number item.maximum),
      ("mean", number item.mean), ("median", number item.median),
      ("medianAbsoluteDeviation", number item.medianAbsoluteDeviation),
      ("zeroMadTolerance", number item.zeroMadTolerance)])]

/-- SRC: analysis_report.py:303-476 -/
def analysisReportDocument (platform : Platform) (report : InvestigationAnalysisReport) :
    Except AnalyticsError Document := do
  -- a later review of a metric would replace an earlier one
  let reviewOf (finding : OutlierFinding) : Option FindingReview :=
    report.reviews.reverse.find? (·.metric = finding.metric.name)
  return .dict [("schemaVersion", .int report.schemaVersion),
    ("generatedAtUtc", .string (formatUtc platform report.generatedAtUtc)),
    ("investigation", ← investigationDocument report.statistics),
    ("baseline", baselineDocument report.baseline),
    ("outlierAnalysis", .dict [
      ("evaluatedMetrics", .list (report.outliers.evaluatedMetrics.map fun metric =>
        .string metric.name)),
      ("hasOutliers", .boolean report.outliers.hasOutliers),
      ("findings", .list (← report.outliers.findings.mapM fun finding =>
        findingDocument platform finding (reviewOf finding)))]),
    ("reviewSummary", .dict [("findingCount", .int report.outliers.findings.length),
      ("reviewedFindingCount", .int report.reviewedFindingCount),
      ("unreviewedFindingCount", .int report.unreviewedFindingCount),
      ("falsePositiveCount", .int report.falsePositiveCount)])]

/-- From bundles to the document of a report.
SRC: cli.py:287-344 -/
def runReport (platform : Platform) (candidate : InvestigationBundle)
    (baselines : List InvestigationBundle) (policy : Option OutlierPolicy)
    (generatedAtUtc : DateTime) (reviews : List FindingReview) :
    Except AnalyticsError Document := do
  let baselineStatistics := baselines.map analyzeInvestigation
  let candidateStatistics := analyzeInvestigation candidate
  let baseline ← buildInvestigationBaseline baselineStatistics policy
  let outliers ← evaluateInvestigationOutliers baseline candidateStatistics
  let report ←
    buildAnalysisReport platform candidateStatistics baseline outliers generatedAtUtc reviews
  analysisReportDocument platform report

end Tickline.Model.Analytics
