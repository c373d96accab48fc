import Mathlib.Algebra.Order.Ring.Rat
import Mathlib.Data.Prod.Lex
import Tickline.Library.Grouping
import Tickline.Model.AnalyticsBundle

/-!
# Statistics of an investigation

`analyzeInvestigation` describes a bundle by its sessions, its command types, its rejection codes and
its ticks.  The loop that fills the four dictionaries is one grouping for each of them.

A `float` is a rational number.  Dividing by zero raises.
-/

set_option autoImplicit false

namespace Tickline.Model.Analytics

open Tickline.Library Tickline.Library.Grouping Tickline.Model.Storage

/-! ## Errors -/

/-- What the analytics of parsed bundles may raise.  Of `InvestigationBaselineError` and
`AnalysisReportError` the code and the message are kept. -/
inductive AnalyticsError
  | baseline (code : String) (message : Str)
  | report (code : String) (message : Str)
  | zeroDivision
  | noData
  | key (name : Str)
  deriving DecidableEq

/-- `left / right`. -/
def divide (left right : ℚ) : Except AnalyticsError ℚ :=
  if right = 0 then .error .zeroDivision else .ok (left / right)

/-! ## Statistics -/

/-- SRC: analytics.py:15-18 -/
structure OutcomeStatistics where
  accepted : ℕ
  rejected : ℕ
  deriving DecidableEq

namespace OutcomeStatistics

/-- SRC: analytics.py:20-22 -/
def total (outcomes : OutcomeStatistics) : ℕ := outcomes.accepted + outcomes.rejected

/-- SRC: analytics.py:24-28 -/
def acceptanceRate (outcomes : OutcomeStatistics) : Except AnalyticsError ℚ :=
  if outcomes.total = 0 then .ok 0 else divide outcomes.accepted outcomes.total

/-- SRC: analytics.py:30-34 -/
def rejectionRate (outcomes : OutcomeStatistics) : Except AnalyticsError ℚ :=
  if outcomes.total = 0 then .ok 0 else divide outcomes.rejected outcomes.total

end OutcomeStatistics

/-- SRC: analytics.py:37-49 -/
structure SessionStatistics where
  clientId : ℕ
  sessionId : ℕ
  lastCommittedSequence : ℕ
  firstTargetTick : ℕ
  lastTargetTick : ℕ
  tickSpan : ℤ
  uniqueTargetTicks : ℕ
  firstOrdinal : Option ℕ
  lastOrdinal : Option ℕ
  commandTypes : List Str
  outcomes : OutcomeStatistics
  deriving DecidableEq

/-- SRC: analytics.py:51-53 -/
def SessionStatistics.key (session : SessionStatistics) : ℕ × ℕ :=
  (session.clientId, session.sessionId)

/-- SRC: analytics.py:56-62 -/
structure CommandTypeStatistics where
  commandType : Str
  outcomes : OutcomeStatistics
  sessionCount : ℕ
  firstTargetTick : ℕ
  lastTargetTick : ℕ
  deriving DecidableEq

/-- SRC: analytics.py:65-71 -/
structure RejectionCodeStatistics where
  rejectionCode : Str
  count : ℕ
  sessionCount : ℕ
  firstOrdinal : ℕ
  lastOrdinal : ℕ
  deriving DecidableEq

/-- SRC: analytics.py:74-79 -/
structure TickStatistics where
  targetTick : ℕ
  outcomes : OutcomeStatistics
  sessionCount : ℕ
  commandTypes : List Str
  deriving DecidableEq

/-- SRC: analytics.py:82-101 -/
structure InvestigationStatistics where
  schemaVersion : ℕ
  archiveDigest : Str
  importedAtUtc : UtcTime
  replayVerified : Bool
  finalTick : ℕ
  finalWorldFingerprint : ℕ
  outcomes : OutcomeStatistics
  sessionCount : ℕ
  uniqueClients : ℕ
  uniqueTargetTicks : ℕ
  firstTargetTick : Option ℕ
  lastTargetTick : Option ℕ
  tickSpan : ℤ
  busiestTicks : List ℕ
  sessions : List SessionStatistics
  commandTypes : List CommandTypeStatistics
  rejectionCodes : List RejectionCodeStatistics
  ticks : List TickStatistics
  deriving DecidableEq

/-! ## The analysis -/

/-- SRC: analytics.py:104-113 -/
def outcomesOf (records : List InvestigationEvidenceRecord) : OutcomeStatistics where
  accepted := records.countP (·.isAccepted)
  rejected := records.countP (·.isRejected)

/-- SRC: analytics.py:116-123 -/
def tickSpan : Option ℕ → Option ℕ → ℤ
  | some firstTargetTick, some lastTargetTick => lastTargetTick - firstTargetTick + 1
  | _, _ => 0

/-- `len({… for … in items})`. -/
def countDistinct {α β : Type} [DecidableEq β] (value : α → β) (items : List α) : ℕ :=
  (items.map value).dedup.length

/-- `sorted({record.command_type for record in records})`. -/
def sortedCommandTypes (records : List InvestigationEvidenceRecord) : List Str :=
  sortOn codePoints (records.map (·.commandType)).dedup

/-- `min` and `max` of values of a group, which is never empty. -/
def least (values : List ℕ) : ℕ := values.min?.getD 0

def greatest (values : List ℕ) : ℕ := values.max?.getD 0

/-- SRC: analytics.py:160-207 -/
def sessionStatistics (sessionRecords : List InvestigationEvidenceRecord)
    (session : InvestigationSession) : SessionStatistics where
  clientId := session.clientId
  sessionId := session.sessionId
  lastCommittedSequence := session.lastCommittedSequence
  firstTargetTick := session.firstTargetTick
  lastTargetTick := session.lastTargetTick
  tickSpan := tickSpan
    (if sessionRecords.isEmpty then none else some session.firstTargetTick)
    (if sessionRecords.isEmpty then none else some session.lastTargetTick)
  uniqueTargetTicks := countDistinct (·.targetTick) sessionRecords
  firstOrdinal := sessionRecords.head?.map (·.ordinal)
  lastOrdinal := sessionRecords.getLast?.map (·.ordinal)
  commandTypes := sortedCommandTypes sessionRecords
  outcomes := outcomesOf sessionRecords

/-- SRC: analytics.py:209-228 -/
def commandTypeStatistics (commandType : Str) (commandRecords : List InvestigationEvidenceRecord) :
    CommandTypeStatistics where
  commandType
  outcomes := outcomesOf commandRecords
  sessionCount := countDistinct (·.key) commandRecords
  firstTargetTick := least (commandRecords.map (·.targetTick))
  lastTargetTick := greatest (commandRecords.map (·.targetTick))

/-- SRC: analytics.py:237-256 -/
def rejectionCodeStatistics (rejectionCode : Str)
    (rejectedRecords : List InvestigationEvidenceRecord) : RejectionCodeStatistics where
  rejectionCode
  count := rejectedRecords.length
  sessionCount := countDistinct (·.key) rejectedRecords
  firstOrdinal := least (rejectedRecords.map (·.ordinal))
  lastOrdinal := greatest (rejectedRecords.map (·.ordinal))

/-- SRC: analytics.py:265-287 -/
def tickStatistics (targetTick : ℕ) (tickRecords : List InvestigationEvidenceRecord) :
    TickStatistics where
  targetTick
  outcomes := outcomesOf tickRecords
  sessionCount := countDistinct (·.key) tickRecords
  commandTypes := sortedCommandTypes tickRecords

/-- What command types are sorted by.
SRC: analytics.py:230-235 -/
def CommandTypeStatistics.rank (item : CommandTypeStatistics) : ℤ ×ₗ List ℕ :=
  toLex (-(item.outcomes.total : ℤ), codePoints item.commandType)

/-- What rejection codes are sorted by.
SRC: analytics.py:258-263 -/
def RejectionCodeStatistics.rank (item : RejectionCodeStatistics) : ℤ ×ₗ List ℕ :=
  toLex (-(item.count : ℤ), codePoints item.rejectionCode)

/-- SRC: analytics.py:126-338 -/
def analyzeInvestigation (bundle : InvestigationBundle) : InvestigationStatistics :=
  let records := bundle.evidence
  let recordsBySession := group (·.key) records
  let recordsByCommandType := group (·.commandType) records
  let recordsByRejectionCode := group (·.rejectionCode) (records.filter (·.isRejected))
  let recordsByTick := group (·.targetTick) records
  let sessions := (sortOn (fun item : InvestigationSession => toLex item.key) bundle.sessions).map
    fun session => sessionStatistics (groupOf recordsBySession session.key) session
  let commandTypes := sortOn CommandTypeStatistics.rank <|
    recordsByCommandType.map fun entry => commandTypeStatistics entry.1 entry.2
  let rejectionCodes := sortOn RejectionCodeStatistics.rank <|
    recordsByRejectionCode.map fun entry => rejectionCodeStatistics entry.1 entry.2
  let ticks := (sortOn id (recordsByTick.map Prod.fst)).map fun targetTick =>
    tickStatistics targetTick (groupOf recordsByTick targetTick)
  let firstTargetTick := ticks.head?.map (·.targetTick)
  let lastTargetTick := ticks.getLast?.map (·.targetTick)
  let busiestCount := (ticks.map (·.outcomes.total)).max?.getD 0
  { schemaVersion := bundle.schemaVersion
    archiveDigest := bundle.archiveDigest
    importedAtUtc := bundle.importedAtUtc
    replayVerified := bundle.replay.verified
    finalTick := bundle.replay.finalTick
    finalWorldFingerprint := bundle.replay.finalWorldFingerprint
    outcomes := outcomesOf records
    sessionCount := bundle.sessions.length
    uniqueClients := countDistinct (·.clientId) bundle.sessions
    uniqueTargetTicks := ticks.length
    firstTargetTick, lastTargetTick
    tickSpan := tickSpan firstTargetTick lastTargetTick
    busiestTicks := (ticks.filter (·.outcomes.total = busiestCount)).map (·.targetTick)
    sessions, commandTypes, rejectionCodes, ticks }

end Tickline.Model.Analytics
