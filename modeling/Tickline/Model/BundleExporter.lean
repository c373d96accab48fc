import Tickline.Model.InvestigationStore

/-!
# Exporting an investigation bundle

`exportInvestigationBundleJson` reads an archive, its replay result, its evidence and its
sessions from the store, checks them against each other and writes them as JSON.  A text is a
list of characters: what it writes is ASCII, one byte for each.

The two loops that read pages are given how many pages they may read; one that would read more
ends in `unfinished`.
-/

set_option autoImplicit false

namespace Tickline.Model.Storage

open Tickline.Library Tickline.Model.Storage.InvestigationStore

/-- SRC: investigation_bundle_exporter.hpp:11 -/
def investigationBundleSchemaVersion : ℕ := 1

/-- SRC: investigation_bundle_exporter.hpp:13-21 -/
inductive InvestigationBundleExportErrorCode
  | invalidArchiveId
  | archiveNotFound
  | replayResultMissing
  | evidenceCountMismatch
  | evidenceChainMismatch
  | sessionSummaryMismatch
  | jsonIntegerOutOfRange
  deriving DecidableEq, Repr

/-- What an export may leave by: an `InvestigationBundleExportError`, what the store throws, or
`std::out_of_range`. -/
inductive ExportFault
  | export (code : InvestigationBundleExportErrorCode) (message : String)
  | store (fault : StoreFault)
  | outOfRange
  | unfinished
  deriving DecidableEq

/-- SRC: investigation_bundle_exporter.cpp:28-36 -/
def fail {α : Type} (code : InvestigationBundleExportErrorCode) (message : String) :
    Except ExportFault α := .error (.export code message)

/-! ## Writing -/

/-- What a character is written as inside a string.
SRC: investigation_bundle_exporter.cpp:46-89 -/
def jsonCharacter (character : Char) : List Char :=
  if character = '"' then ['\\', '"']
  else if character = '\\' then ['\\', '\\']
  else if character = Char.ofNat 8 then ['\\', 'b']
  else if character = Char.ofNat 12 then ['\\', 'f']
  else if character = '\n' then ['\\', 'n']
  else if character = '\r' then ['\\', 'r']
  else if character = '\t' then ['\\', 't']
  else if character.toNat < 0x20 then
    ['\\', 'u', '0', '0', Nat.digitChar (character.toNat / 16),
      Nat.digitChar (character.toNat % 16)]
  else [character]

/-- SRC: investigation_bundle_exporter.cpp:38-92 -/
def jsonString (value : List Char) : List Char := '"' :: value.flatMap jsonCharacter ++ ['"']

/-- SRC: investigation_bundle_exporter.cpp:94-97 -/
def indentation (count : ℕ) : List Char := List.replicate count ' '

/-- The end of a line.
SRC: investigation_bundle_exporter.cpp:110, 124 -/
def lineEnd (comma : Bool) : List Char := if comma then [',', '\n'] else ['\n']

/-- SRC: investigation_bundle_exporter.cpp:113-125 -/
def rawField (indent : ℕ) (name : String) (value : List Char) (comma : Bool) : List Char :=
  indentation indent ++ jsonString name.toList ++ [':', ' '] ++ value ++ lineEnd comma

/-- SRC: investigation_bundle_exporter.cpp:99-111 -/
def stringField (indent : ℕ) (name : String) (value : List Char) (comma : Bool) : List Char :=
  rawField indent name (jsonString value) comma

/-- `std::to_string` of an unsigned number. -/
def decimal (value : ℕ) : List Char := Nat.toDigits 10 value

/-- SRC: investigation_bundle_exporter.cpp:127-135 -/
def normalizeTimestamp (value : List Char) : List Char :=
  if value.length = 19 ∧ value[10]? = some ' ' then value.set 10 'T' ++ ['Z'] else value

/-! ## Names -/

/-- SRC: investigation_bundle_exporter.cpp:137-146 -/
def commandTypeName (type : CommandType) : String :=
  if type = .setVelocity then "set_velocity" else "unknown"

/-- SRC: command_validator.hpp:72-143 -/
def commandRejectionCodeName (code : CommandRejectionCode) : String :=
  (([(.none, "none"), (.unsupportedSchemaVersion, "unsupported_schema_version"),
    (.unsupportedCommandType, "unsupported_command_type"),
    (.invalidClientId, "invalid_client_id"), (.invalidSessionId, "invalid_session_id"),
    (.clientIdentityMismatch, "client_identity_mismatch"),
    (.sessionIdentityMismatch, "session_identity_mismatch"), (.sequenceZero, "sequence_zero"),
    (.staleTargetTick, "stale_target_tick"),
    (.targetTickTooFarFuture, "target_tick_too_far_future"),
    (.velocityOutOfRange, "velocity_out_of_range"), (.duplicateSequence, "duplicate_sequence"),
    (.sequenceRegression, "sequence_regression"), (.unknownEntity, "unknown_entity"),
    (.entitySequenceNotIncreasing, "entity_sequence_not_increasing"),
    (.targetTickRegression, "target_tick_regression"),
    (.simulationRejectionUnknown, "simulation_rejection_unknown")] :
      List (CommandRejectionCode × String)).lookup code).getD "unknown"

/-- SRC: command_evidence.hpp:66-97 -/
def commandQueueOutcomeName (outcome : CommandQueueOutcome) : String :=
  (([(.notAttempted, "not_attempted"), (.accepted, "accepted"), (.staleTick, "stale_tick"),
    (.unknownEntity, "unknown_entity"), (.sequenceNotIncreasing, "sequence_not_increasing"),
    (.targetTickRegression, "target_tick_regression"),
    (.velocityOutOfRange, "velocity_out_of_range"), (.unknown, "unknown")] :
      List (CommandQueueOutcome × String)).lookup outcome).getD "unknown"

/-- SRC: investigation_bundle_exporter.cpp:148-155 -/
def recordWasAccepted (record : CommandEvidenceRecord) : Bool :=
  record.entry.rejectionCode = .none && record.entry.queueOutcome = .accepted

/-- SRC: investigation_bundle_exporter.cpp:157-173 -/
def rejectionName (record : CommandEvidenceRecord) : String :=
  if record.entry.rejectionCode ≠ .none then commandRejectionCodeName record.entry.rejectionCode
  else if record.entry.queueOutcome ≠ .accepted then
    commandQueueOutcomeName record.entry.queueOutcome
  else "none"

/-! ## Reading -/

/-- SRC: investigation_bundle_exporter.cpp:175-188 -/
def requireJsonInteger (value : ℕ) (description : String) : Except ExportFault Unit :=
  if value > 2 ^ 31 - 1 then
    fail .jsonIntegerOutOfRange (description ++ " exceeds the Unity JSON integer range")
  else .ok ()

/-- The loop over the pages of archives.
SRC: investigation_bundle_exporter.cpp:190-216 -/
def findArchive (tables : Tables) (archiveId : Int64) :
    ℕ → Option Int64 → Except ExportFault EvidenceArchiveSummary
  | 0, _ => .error .unfinished
  | pages + 1, beforeArchiveId => do
    let page ← (listArchives 100 beforeArchiveId tables).mapError .store
    match page.getLast? with
    | none => fail .archiveNotFound "investigation archive was not found"
    | some last =>
      match page.find? (·.archiveId = archiveId) with
      | some archive => return archive
      | none => findArchive tables archiveId pages (some last.archiveId)

/-- The loop over the records of a page.
SRC: investigation_bundle_exporter.cpp:241-253 -/
def appendPage (records : List StoredEvidenceRecord) :
    List StoredEvidenceRecord → Except ExportFault (List StoredEvidenceRecord)
  | [] => return records
  | stored :: rest => do
    if records.getLast?.any fun last => stored.record.ordinal ≤ last.record.ordinal then
      fail .evidenceChainMismatch "evidence query returned non-increasing ordinals"
    appendPage (records ++ [stored]) rest

/-- SRC: investigation_bundle_exporter.cpp:223 -/
def pageSize : ℕ := 100

/-- The loop over the pages of evidence.
SRC: investigation_bundle_exporter.cpp:218-261 -/
def loadAllEvidence (tables : Tables) (archiveId : Int64) :
    ℕ → List StoredEvidenceRecord → Option UInt64 → Except ExportFault (List StoredEvidenceRecord)
  | 0, _, _ => .error .unfinished
  | pages + 1, records, afterOrdinal => do
    let page ← (queryEvidence archiveId { afterOrdinal, limit := pageSize } tables).mapError .store
    if page.isEmpty then return records
    let records ← appendPage records page
    if page.length < pageSize then return records
    loadAllEvidence tables archiveId pages records (page.getLast?.map (·.record.ordinal))

/-! ## Checking -/

/-- SRC: investigation_bundle_exporter.cpp:21-26 -/
structure SessionProjection where
  lastCommittedSequence : UInt64
  firstTargetTick : UInt64
  lastTargetTick : UInt64
  deriving DecidableEq

/-- `projections`. -/
abbrev SessionProjections := OrderedMap SessionKey SessionProjection

/-- Take a record into the projection of its session.
SRC: investigation_bundle_exporter.cpp:336-352 -/
def project (projections : SessionProjections) (record : CommandEvidenceRecord) :
    SessionProjections :=
  let targetTick := record.entry.envelope.targetTick
  projections.insert (sessionKey record) {
    lastCommittedSequence := record.entry.sessionSequenceAfter
    firstTargetTick :=
      match projections.find? (sessionKey record) with
      | none => targetTick
      | some projection => projection.firstTargetTick
    lastTargetTick := targetTick }

/-- SRC: investigation_bundle_exporter.cpp:310-313 -/
def initialHeadOf (evidence : List StoredEvidenceRecord) : Sha256Digest :=
  match evidence with
  | [] => {}
  | first :: _ => first.record.previousRecordDigest

/-- What the loop over the evidence has found out.
SRC: investigation_bundle_exporter.cpp:315-319 -/
structure EvidenceTotals where
  expectedDigest : Sha256Digest
  projections : SessionProjections := OrderedMap.empty
  acceptedCount : ℕ := 0
  rejectedCount : ℕ := 0

/-- SRC: investigation_bundle_exporter.cpp:334-358 -/
def EvidenceTotals.add (totals : EvidenceTotals) (stored : StoredEvidenceRecord) :
    EvidenceTotals where
  expectedDigest := stored.recordDigest
  projections := project totals.projections stored.record
  acceptedCount := totals.acceptedCount + (if recordWasAccepted stored.record then 1 else 0)
  rejectedCount := totals.rejectedCount + (if recordWasAccepted stored.record then 0 else 1)

/-- The loop over the evidence.
SRC: investigation_bundle_exporter.cpp:321-359 -/
def checkEvidence : EvidenceTotals → List StoredEvidenceRecord → Except ExportFault EvidenceTotals
  | totals, [] => return totals
  | totals, stored :: rest => do
    requireJsonInteger stored.record.ordinal.toNat "evidence ordinal"
    if stored.record.previousRecordDigest ≠ totals.expectedDigest then
      fail .evidenceChainMismatch "stored evidence chain contains a broken link"
    checkEvidence (totals.add stored) rest

/-- The key of a session's summary.
SRC: investigation_bundle_exporter.cpp:382-385 -/
def InvestigationStore.EvidenceSessionSummary.key (session : EvidenceSessionSummary) : SessionKey where
  clientId := session.clientId.value
  sessionId := session.sessionId.value

/-- The loop over the sessions, with the outcomes counted so far.
SRC: investigation_bundle_exporter.cpp:378-406 -/
def checkSessions (projections : SessionProjections) :
    ℕ → ℕ → List EvidenceSessionSummary → Except ExportFault (ℕ × ℕ)
  | accepted, rejected, [] => return (accepted, rejected)
  | accepted, rejected, session :: rest => do
    if !projections.contains session.key then
      fail .sessionSummaryMismatch "session summary references no evidence records"
    requireJsonInteger session.acceptedCount "accepted command count"
    requireJsonInteger session.rejectedCount "rejected command count"
    checkSessions projections (accepted + session.acceptedCount)
      (rejected + session.rejectedCount) rest

/-! ## The bundle -/

/-- Elements, each on lines of its own.
SRC: investigation_bundle_exporter.cpp:476, 528-531, 545, 617-620 -/
def elementLines : List (List Char) → List Char
  | [] => []
  | element :: rest =>
    "    \x7b\n".toList ++ element ++ "    \x7d".toList ++ lineEnd (!rest.isEmpty) ++ elementLines rest

/-- SRC: investigation_bundle_exporter.cpp:478-526 -/
def sessionText (session : EvidenceSessionSummary) (projection : SessionProjection) : List Char :=
  stringField 6 "clientId" (decimal session.clientId.value.toNat) true ++
  stringField 6 "sessionId" (decimal session.sessionId.value.toNat) true ++
  stringField 6 "lastCommittedSequence" (decimal projection.lastCommittedSequence.toNat) true ++
  stringField 6 "firstTargetTick" (decimal projection.firstTargetTick.toNat) true ++
  stringField 6 "lastTargetTick" (decimal projection.lastTargetTick.toNat) true ++
  rawField 6 "acceptedCommands" (decimal session.acceptedCount) true ++
  rawField 6 "rejectedCommands" (decimal session.rejectedCount) false

/-- SRC: investigation_bundle_exporter.cpp:540-615 -/
def recordText (stored : StoredEvidenceRecord) : List Char :=
  let record := stored.record
  let envelope := record.entry.envelope
  let accepted := recordWasAccepted record
  rawField 6 "ordinal" (decimal record.ordinal.toNat) true ++
  stringField 6 "clientId" (decimal envelope.clientId.value.toNat) true ++
  stringField 6 "sessionId" (decimal envelope.sessionId.value.toNat) true ++
  stringField 6 "sessionSequence" (decimal envelope.sequence.toNat) true ++
  stringField 6 "targetTick" (decimal envelope.targetTick.toNat) true ++
  stringField 6 "commandType" (commandTypeName envelope.type).toList true ++
  stringField 6 "outcome" (if accepted then "accepted" else "rejected").toList true ++
  stringField 6 "rejectionCode" (rejectionName record).toList true ++
  stringField 6 "previousDigest" record.previousRecordDigest.toHex true ++
  stringField 6 "recordDigest" stored.recordDigest.toHex false

/-- SRC: investigation_bundle_exporter.cpp:626-660 -/
def replayText (replay : CommandEvidenceReplayResult) (acceptedCount rejectedCount : ℕ) :
    List Char :=
  rawField 4 "verified" (if replay.verified then "true" else "false").toList true ++
  stringField 4 "finalTick" (decimal replay.finalTick.toNat) true ++
  stringField 4 "finalWorldFingerprint" (decimal replay.finalWorldFingerprint.value.toNat) true ++
  rawField 4 "acceptedCommands" (decimal acceptedCount) true ++
  rawField 4 "rejectedCommands" (decimal rejectedCount) false

/-- SRC: investigation_bundle_exporter.cpp:429-462 -/
def headText (archive : EvidenceArchiveSummary) (initialHead : Sha256Digest) : List Char :=
  rawField 2 "schemaVersion" (decimal investigationBundleSchemaVersion) true ++
  stringField 2 "archiveDigest" archive.archiveDigest.toHex true ++
  stringField 2 "initialHeadDigest" initialHead.toHex true ++
  stringField 2 "trustedHeadDigest" archive.trustedHead.toHex true ++
  stringField 2 "importedAtUtc" (normalizeTimestamp archive.importedAtUtc) true

/-- The text of the bundle.
SRC: investigation_bundle_exporter.cpp:424-665 -/
def bundleText (archive : EvidenceArchiveSummary) (initialHead : Sha256Digest)
    (sessions : List (EvidenceSessionSummary × SessionProjection))
    (evidence : List StoredEvidenceRecord) (replay : CommandEvidenceReplayResult)
    (acceptedCount rejectedCount : ℕ) : List Char :=
  "\x7b\n".toList ++
  headText archive initialHead ++
  "  \"sessions\": [\n".toList ++
  elementLines (sessions.map fun (session, projection) => sessionText session projection) ++
  "  ],\n".toList ++
  "  \"evidence\": [\n".toList ++
  elementLines (evidence.map recordText) ++
  "  ],\n".toList ++
  "  \"replay\": \x7b\n".toList ++
  replayText replay acceptedCount rejectedCount ++
  "  \x7d\n".toList ++
  "\x7d\n".toList

/-- `projections.at(key)`.
SRC: investigation_bundle_exporter.cpp:474 -/
def projectionAt (projections : SessionProjections) (session : EvidenceSessionSummary) :
    Except ExportFault (EvidenceSessionSummary × SessionProjection) :=
  match projections.find? session.key with
  | some projection => .ok (session, projection)
  | none => .error .outOfRange

/-- The rest of an export, of an archive with a replay result.
SRC: investigation_bundle_exporter.cpp:300-666 -/
def exportContents (tables : Tables) (archiveId : Int64) (archive : EvidenceArchiveSummary)
    (replay : CommandEvidenceReplayResult) : Except ExportFault (List Char) := do
  let evidence ← loadAllEvidence tables archiveId (tables.commandEvidence.length + 1) [] none
  if evidence.length ≠ archive.recordCount then
    fail .evidenceCountMismatch "stored evidence count does not match archive metadata"
  let initialHead := initialHeadOf evidence
  let totals ← checkEvidence { expectedDigest := initialHead } evidence
  if totals.expectedDigest ≠ archive.chainHead ∨ archive.trustedHead ≠ archive.chainHead then
    fail .evidenceChainMismatch "archive chain heads do not match stored evidence"
  let sessions ← (listSessions archiveId tables).mapError ExportFault.store
  if sessions.length ≠ totals.projections.size then
    fail .sessionSummaryMismatch "session summaries do not match stored evidence"
  let outcomes ← checkSessions totals.projections 0 0 sessions
  if outcomes ≠ (totals.acceptedCount, totals.rejectedCount) then
    fail .sessionSummaryMismatch "session outcome totals do not match evidence"
  requireJsonInteger totals.acceptedCount "replay accepted command count"
  requireJsonInteger totals.rejectedCount "replay rejected command count"
  let projected ← sessions.mapM (projectionAt totals.projections)
  return bundleText archive initialHead projected evidence replay totals.acceptedCount
    totals.rejectedCount

/-- SRC: investigation_bundle_exporter.cpp:279-666 -/
def exportInvestigationBundleJson (tables : Tables) (archiveId : Int64) :
    Except ExportFault (List Char) := do
  if archiveId ≤ 0 then
    fail .invalidArchiveId "archive identifier must be positive"
  let archive ← findArchive tables archiveId (tables.evidenceArchives.length + 1) none
  match ← (replayResult archiveId tables).mapError ExportFault.store with
  | none => fail .replayResultMissing "archive does not have replay metadata"
  | some replay => exportContents tables archiveId archive replay

end Tickline.Model.Storage
