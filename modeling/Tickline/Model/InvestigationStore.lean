import Tickline.Library.Machine
import Tickline.Library.OrderedMap
import Tickline.Library.Transaction
import Tickline.Model.CommandEvidenceArchive
import Tickline.Model.CommandEvidenceReplay
import Tickline.Model.InvestigationDatabase

/-!
# The investigation store

`InvestigationStore` keeps verified archives, a row for each of their records, a summary for
each session in them and the latest replay result of each in a SQLite database.

The mutating members run on a connection whose statements may fail; a statement is prepared,
bound and stepped, and each of these calls is one that may fail.  Of the members that only
read, the results are modelled and not that their statements may fail as well.
-/

set_option autoImplicit false

namespace Tickline.Model.Storage

open Tickline.Library

/-- SRC: investigation_store.hpp:22-29 -/
inductive InvestigationStoreErrorCode
  | openFailed
  | migrationFailed
  | sqliteFailure
  | invalidArgument
  | archiveVerificationFailed
  | archiveNotFound
  deriving DecidableEq, Repr

/-- What a member of the store may leave by: an `InvestigationStoreError`, or what a function it
calls throws.
SRC: investigation_store.hpp:31-42 -/
inductive StoreFault
  | store (code : InvestigationStoreErrorCode) (message : String)
  | other (fault : Fault)
  deriving DecidableEq

/-- A member of the store, as an action on its connection. -/
abbrev StoreMember (α : Type) := EStateM StoreFault (Connection Tables) α

/-! ## Values in columns -/

/-- SRC: investigation_store.cpp:39-59 -/
def decodeU64 (data : Blob) (columnName : String) : Except StoreFault UInt64 :=
  if data.length ≠ 8 then
    .error (.store .sqliteFailure (columnName ++ " must contain exactly eight bytes"))
  else .ok (data.foldl (fun value byte => (value <<< 8) ||| byte.toUInt64) 0)

/-- SRC: investigation_store.cpp:61-75 -/
def decodeDigest (data : Blob) (columnName : String) : Except StoreFault Sha256Digest :=
  if h : data.length = 32 then .ok ⟨⟨data.toArray, h⟩⟩
  else .error (.store .sqliteFailure (columnName ++ " must contain exactly 32 bytes"))

/-- SRC: investigation_store.cpp:77-90 -/
def checkedInt64 (value : ℕ) (name : String) : Except StoreFault Int64 :=
  if value > 2 ^ 63 - 1 then
    .error (.store .invalidArgument (name ++ " exceeds SQLite integer range"))
  else .ok (Int64.ofNat value)

/-- SRC: investigation_store.cpp:92-106 -/
def checkedSize (value : Int64) (name : String) : Except StoreFault ℕ :=
  if value < 0 then
    .error (.store .sqliteFailure (name ++ " is outside the local size range"))
  else .ok value.toInt.toNat

/-! ## Statements -/

/-- SRC: investigation_store.cpp:122-134 -/
def sqliteFailure (operation message : String) : StoreFault :=
  .store .sqliteFailure (operation ++ ": " ++ message)

/-- The most bytes SQLite takes for a text. -/
def sqliteMaximumLength : ℕ := 1000000000

namespace Statement

/-- The constructor, which prepares the statement.
SRC: investigation_store.cpp:170-192 -/
def prepare (operation : String) : StoreMember Unit :=
  Connection.attempt (sqliteFailure operation)

/-- Bind the parameters of a statement.
SRC: investigation_store.cpp:202-262 -/
def bind (operation : String) : StoreMember Unit := Connection.attempt (sqliteFailure operation)

/-- The text that binding a string gives its parameter.  The length is narrowed to an `int`; a
negative one means that the text ends at the first NUL, which is behind the string at the latest.
SRC: investigation_store.cpp:212-220 -/
def boundText (value : List UInt8) : SqlText :=
  let length := Int32.ofNat value.length
  if length < 0 then value.takeWhile (· ≠ 0) else value.take length.toInt.toNat

/-- SRC: investigation_store.cpp:212-220 -/
def bindText (operation : String) (value : List UInt8) : StoreMember SqlText :=
  Connection.execute (sqliteFailure operation) fun tables =>
    if (boundText value).length > sqliteMaximumLength then .error "string or blob too big"
    else .ok (boundText value, tables)

/-- Step a statement that may return a row.
SRC: investigation_store.cpp:264-281 -/
def stepRow {α : Type} (operation : String) (query : Tables → α) : StoreMember α :=
  Connection.execute (sqliteFailure operation) fun tables => .ok (query tables, tables)

/-- Step a statement that returns no row, and reset it.
SRC: investigation_store.cpp:283-302 -/
def stepDone {α : Type} (operation : String) (statement : Tables → Except String (α × Tables)) :
    StoreMember α := do
  let result ← Connection.execute (sqliteFailure operation) statement
  Connection.attempt (sqliteFailure operation)
  return result

end Statement

/-- A body inside a `Transaction` and its commit.
SRC: investigation_store.cpp:368-409 -/
def inTransaction {α : Type} (body : StoreMember α) : StoreMember α :=
  Connection.transaction (sqliteFailure "begin investigation transaction")
    (sqliteFailure "commit investigation transaction") body

/-! ## Importing -/

/-- SRC: investigation_store.hpp:44-54 -/
structure EvidenceArchiveImportResult where
  archiveId : Int64
  inserted : Bool
  recordCount : ℕ
  archiveDigest : Sha256Digest
  chainHead : Sha256Digest
  deriving DecidableEq

/-- The client and the session of an envelope, in the order of `std::pair`. -/
structure SessionKey where
  clientId : UInt64
  sessionId : UInt64
  deriving DecidableEq

/-- INTERNAL: the numbers of a key, in lexicographic order. -/
def SessionKey.rank (key : SessionKey) : ℕ ×ₗ ℕ :=
  toLex (key.clientId.toNat, key.sessionId.toNat)

/-- INTERNAL: the numbers determine the key. -/
theorem SessionKey.rank_injective : Function.Injective SessionKey.rank := by
  rintro ⟨c, s⟩ ⟨c', s'⟩ h
  have hpair := Prod.mk.inj (toLex.injective h)
  rw [SessionKey.mk.injEq]
  exact ⟨UInt64.toNat_inj.mp hpair.1, UInt64.toNat_inj.mp hpair.2⟩

instance : LinearOrder SessionKey := LinearOrder.lift' SessionKey.rank SessionKey.rank_injective

/-- The session that a record belongs to.
SRC: investigation_store.cpp:782-784, investigation_bundle_exporter.cpp:339-342 -/
def sessionKey (record : CommandEvidenceRecord) : SessionKey where
  clientId := record.entry.envelope.clientId.value
  sessionId := record.entry.envelope.sessionId.value

/-- SRC: investigation_store.cpp:491-498 -/
structure SessionAggregate where
  firstOrdinal : UInt64
  lastOrdinal : UInt64
  firstObservedTick : UInt64
  lastObservedTick : UInt64
  acceptedCount : ℕ := 0
  rejectedCount : ℕ := 0
  deriving DecidableEq

/-- Count a record under its outcome.
SRC: investigation_store.cpp:806-810 -/
def SessionAggregate.count (aggregate : SessionAggregate) (record : CommandEvidenceRecord) :
    SessionAggregate :=
  if record.entry.rejectionCode = .none then
    { aggregate with acceptedCount := aggregate.acceptedCount + 1 }
  else { aggregate with rejectedCount := aggregate.rejectedCount + 1 }

/-- `session_aggregates`. -/
abbrev SessionAggregates := OrderedMap SessionKey SessionAggregate

/-- Take a record into the aggregate of its session.
SRC: investigation_store.cpp:782-810 -/
def addToAggregates (aggregates : SessionAggregates) (record : CommandEvidenceRecord) :
    SessionAggregates :=
  let ordinal := record.ordinal
  let tick := record.entry.observedTick
  let aggregate : SessionAggregate :=
    match aggregates.find? (sessionKey record) with
    | none => {
        firstOrdinal := ordinal, lastOrdinal := ordinal
        firstObservedTick := tick, lastObservedTick := tick }
    | some aggregate => { aggregate with lastOrdinal := ordinal, lastObservedTick := tick }
  aggregates.insert (sessionKey record) (aggregate.count record)

/-- The row of a record.
SRC: investigation_store.cpp:751-780 -/
def evidenceRow (archiveId : Int64) (record : CommandEvidenceRecord) : EvidenceRow where
  archiveId := archiveId
  ordinal := encodeU64 record.ordinal
  recordDigest := appendDigest (digestCommandEvidence record)
  previousRecordDigest := appendDigest record.previousRecordDigest
  worldFingerprintBefore := encodeU64 record.entry.worldFingerprintBefore.value
  observedTick := encodeU64 record.entry.observedTick
  schemaVersion := Int64.ofNat record.entry.envelope.schemaVersion.toNat
  commandType := Int64.ofNat record.entry.envelope.type.value.toNat
  clientId := encodeU64 record.entry.envelope.clientId.value
  sessionId := encodeU64 record.entry.envelope.sessionId.value
  sequence := encodeU64 record.entry.envelope.sequence
  targetTick := encodeU64 record.entry.envelope.targetTick
  entityId := encodeU64 record.entry.envelope.payload.entityId.value
  velocityX := record.entry.envelope.payload.velocity.x.count
  velocityY := record.entry.envelope.payload.velocity.y.count
  sessionSequenceBefore := encodeU64 record.entry.sessionSequenceBefore
  sessionSequenceAfter := encodeU64 record.entry.sessionSequenceAfter
  pendingCommandsBefore := encodeU64 record.entry.pendingCommandsBefore
  pendingCommandsAfter := encodeU64 record.entry.pendingCommandsAfter
  rejectionCode := Int64.ofNat record.entry.rejectionCode.value.toNat
  queueOutcome := Int64.ofNat record.entry.queueOutcome.value.toNat
  encodedRecord := encodeCommandEvidence record

/-- The record loop.
SRC: investigation_store.cpp:744-812 -/
def insertRecords (archiveId : Int64) :
    List CommandEvidenceRecord → SessionAggregates → StoreMember SessionAggregates
  | [], aggregates => return aggregates
  | record :: rest, aggregates => do
    Statement.bind "insert command evidence record"
    Statement.stepDone "insert command evidence record"
      (Tables.insertEvidence (evidenceRow archiveId record))
    insertRecords archiveId rest (addToAggregates aggregates record)

/-- The row of a session's aggregate, but for its counts.
SRC: investigation_store.cpp:823-835 -/
def sessionRow (archiveId : Int64) (key : SessionKey) (aggregate : SessionAggregate)
    (acceptedCount rejectedCount : Int64) : SessionRow where
  archiveId := archiveId
  clientId := encodeU64 key.clientId
  sessionId := encodeU64 key.sessionId
  firstOrdinal := encodeU64 aggregate.firstOrdinal
  lastOrdinal := encodeU64 aggregate.lastOrdinal
  firstObservedTick := encodeU64 aggregate.firstObservedTick
  lastObservedTick := encodeU64 aggregate.lastObservedTick
  acceptedCount := acceptedCount
  rejectedCount := rejectedCount

/-- The session loop.
SRC: investigation_store.cpp:822-837 -/
def insertSessions (archiveId : Int64) :
    List (SessionKey × SessionAggregate) → StoreMember Unit
  | [] => return ()
  | (key, aggregate) :: rest => do
    Statement.bind "insert archive session summary"
    let acceptedCount ← checkedInt64 aggregate.acceptedCount "accepted count"
    let rejectedCount ← checkedInt64 aggregate.rejectedCount "rejected count"
    Statement.stepDone "insert archive session summary"
      (Tables.insertSession (sessionRow archiveId key aggregate acceptedCount rejectedCount))
    insertSessions archiveId rest

/-- The rest of an import whose archive row was skipped: it must be there already.
SRC: investigation_store.cpp:693-732 -/
def importExisting (archive : CommandEvidenceArchive) (archiveDigest : Sha256Digest) :
    StoreMember EvidenceArchiveImportResult := do
  Statement.prepare "read existing evidence archive"
  Statement.bind "read existing evidence archive"
  let existing ← Statement.stepRow "read existing evidence archive" fun tables =>
    tables.evidenceArchives.find? (·.archiveDigest = appendDigest archiveDigest)
  match existing with
  | none => throw (.store .sqliteFailure "duplicate archive digest was not readable")
  | some existing =>
    let existingCount ← checkedSize existing.recordCount "stored archive record count"
    let existingHead ← decodeDigest existing.declaredHead "stored archive head"
    if existingCount ≠ archive.records.length ∨ existingHead ≠ archive.headDigest then
      throw (.store .sqliteFailure "archive digest conflicts with stored archive metadata")
    return {
      archiveId := existing.archiveId
      inserted := false
      recordCount := archive.records.length
      archiveDigest
      chainHead := archive.headDigest }

/-- The rest of an import whose archive row went in.
SRC: investigation_store.cpp:734-848 -/
def importContents (archiveId : Int64) (archive : CommandEvidenceArchive)
    (archiveDigest : Sha256Digest) : StoreMember EvidenceArchiveImportResult := do
  Statement.prepare "insert command evidence record"
  let aggregates ← insertRecords archiveId archive.records OrderedMap.empty
  Statement.prepare "insert archive session summary"
  insertSessions archiveId aggregates.entries
  return {
    archiveId
    inserted := true
    recordCount := archive.records.length
    archiveDigest
    chainHead := archive.headDigest }

/-- What an import does inside its transaction.
SRC: investigation_store.cpp:658-848 -/
def importBody (now : UtcTime) (archive : CommandEvidenceArchive)
    (archiveDigest trustedHead : Sha256Digest) (source : List UInt8) :
    StoreMember EvidenceArchiveImportResult := do
  Statement.prepare "insert evidence archive"
  Statement.bind "insert evidence archive"
  let recordCount ← checkedInt64 archive.records.length "archive record count"
  let source ← Statement.bindText "insert evidence archive" source
  let inserted ← Statement.stepDone "insert evidence archive" (Tables.insertArchive now {
    archiveId := 0
    archiveDigest := appendDigest archiveDigest
    trustedHead := appendDigest trustedHead
    declaredHead := appendDigest archive.headDigest
    archiveSchema := Int64.ofNat commandEvidenceArchiveSchemaVersion.toNat
    recordSchema := Int64.ofNat commandEvidenceSchemaVersion.toNat
    recordCount, source
    importedAtUtc := [] })
  match inserted with
  | none => importExisting archive archiveDigest
  | some archiveId => importContents archiveId archive archiveDigest

/-- What a decoder that throws means for an import.
SRC: investigation_store.cpp:642-655 -/
def verificationFault : Fault → StoreFault
  | .commandEvidenceArchiveError _ what =>
    .store .archiveVerificationFailed ("evidence archive verification failed: " ++ what)
  | .commandEvidenceDecodeError _ what =>
    .store .archiveVerificationFailed ("evidence record verification failed: " ++ what)
  | fault => .other fault

namespace InvestigationStore

/-- SRC: investigation_store.cpp:625-848 -/
def importArchive (now : UtcTime) (encodedArchive : List UInt8) (trustedHead : Sha256Digest)
    (source : List UInt8) : StoreMember EvidenceArchiveImportResult := do
  if encodedArchive.isEmpty then
    throw (.store .invalidArgument "encoded evidence archive must not be empty")
  if source.isEmpty then
    throw (.store .invalidArgument "evidence archive source must not be empty")
  let archive ← (decodeCommandEvidenceArchive encodedArchive trustedHead).mapError verificationFault
  inTransaction (importBody now archive (sha256 encodedArchive) trustedHead source)

/-! ## Replay results -/

/-- SRC: command_evidence_replay.hpp:17-27 -/
def replayCodeValue : CommandEvidenceReplayCode → Int64
  | .verified => 0
  | .chainVerificationFailed => 1
  | .observedTickRegression => 2
  | .tickAdvanceLimitExceeded => 3
  | .simulationAdvanceFailed => 4
  | .sessionStateMismatch => 5
  | .pendingCommandCountMismatch => 6
  | .worldStateMismatch => 7
  | .submissionRecordMismatch => 8

/-- The code with a value; of other values the enumeration has no name. -/
def replayCodeOfValue (value : Int64) : Option CommandEvidenceReplayCode :=
  [.verified, .chainVerificationFailed, .observedTickRegression, .tickAdvanceLimitExceeded,
    .simulationAdvanceFailed, .sessionStateMismatch, .pendingCommandCountMismatch,
    .worldStateMismatch, .submissionRecordMismatch].find? fun code => replayCodeValue code = value

/-- The row of a replay result.
SRC: investigation_store.cpp:901-920 -/
def replayRow (archiveId : Int64) (processedRecords : Int64)
    (result : CommandEvidenceReplayResult) : ReplayRow where
  archiveId := archiveId
  replayCode := replayCodeValue result.code
  processedRecords := processedRecords
  failedOrdinal := result.failedOrdinal.map encodeU64
  performedTickAdvances := encodeU64 result.performedTickAdvances
  finalTick := encodeU64 result.finalTick
  finalSessionSequence := encodeU64 result.finalSessionSequence
  finalPendingCommandCount := encodeU64 (UInt64.ofNat result.finalPendingCommandCount)
  finalWorldFingerprint := encodeU64 result.finalWorldFingerprint.value
  replayedHeadDigest := appendDigest result.replayedHeadDigest

/-- The write of a replay result, inside its transaction.
SRC: investigation_store.cpp:880-922 -/
def recordBody (archiveId : Int64) (result : CommandEvidenceReplayResult) : StoreMember Unit := do
  Statement.prepare "record replay result"
  Statement.bind "record replay result"
  let processedRecords ← checkedInt64 result.processedRecords "processed record count"
  Statement.stepDone "record replay result"
    (Tables.upsertReplay (replayRow archiveId processedRecords result))

/-- SRC: investigation_store.cpp:850-923 -/
def recordReplayResult (archiveId : Int64) (result : CommandEvidenceReplayResult) :
    StoreMember Unit := do
  if archiveId ≤ 0 then
    throw (.store .invalidArgument "archive identifier must be positive")
  Statement.prepare "locate archive before replay result"
  Statement.bind "locate archive before replay result"
  let found ← Statement.stepRow "locate archive before replay result"
    (Tables.hasArchive · archiveId)
  if !found then
    throw (.store .archiveNotFound "archive identifier does not exist")
  if result.finalPendingCommandCount > 2 ^ 64 - 1 then
    throw (.store .invalidArgument "pending command count exceeds storage range")
  inTransaction (recordBody archiveId result)

/-- SRC: investigation_store.cpp:1133-1184 -/
def replayResult (archiveId : Int64) (tables : Tables) :
    Except StoreFault (Option CommandEvidenceReplayResult) := do
  if archiveId ≤ 0 then
    throw (.store .invalidArgument "archive identifier must be positive")
  match tables.replayResults.find? (·.archiveId = archiveId) with
  | none => return none
  | some row =>
    let failedOrdinal ← row.failedOrdinal.mapM fun ordinal => decodeU64 ordinal "failed ordinal"
    let processedRecords ← checkedSize row.processedRecords "processed replay records"
    let performedTickAdvances ← decodeU64 row.performedTickAdvances "performed tick advances"
    let finalTick ← decodeU64 row.finalTick "final replay tick"
    let finalSessionSequence ← decodeU64 row.finalSessionSequence "final session sequence"
    let finalPendingCommandCount ←
      decodeU64 row.finalPendingCommandCount "final pending command count"
    let finalWorldFingerprint ← decodeU64 row.finalWorldFingerprint "final world fingerprint"
    let replayedHeadDigest ← decodeDigest row.replayedHeadDigest "replayed head digest"
    match replayCodeOfValue row.replayCode with
    | none => throw (.other .undefinedBehaviour)
    | some code => return some {
        code, processedRecords, failedOrdinal, performedTickAdvances, finalTick
        finalSessionSequence
        finalPendingCommandCount := finalPendingCommandCount.toNat
        finalWorldFingerprint := ⟨finalWorldFingerprint⟩
        replayedHeadDigest }

/-! ## Reading -/

/-- SRC: investigation_store.hpp:56-68 -/
structure EvidenceArchiveSummary where
  archiveId : Int64
  source : SqlText
  importedAtUtc : List Char
  recordCount : ℕ
  archiveDigest : Sha256Digest
  trustedHead : Sha256Digest
  chainHead : Sha256Digest
  deriving DecidableEq

/-- SRC: investigation_store.hpp:70-83 -/
structure EvidenceSessionSummary where
  clientId : ClientId
  sessionId : SessionId
  firstOrdinal : UInt64
  lastOrdinal : UInt64
  firstObservedTick : UInt64
  lastObservedTick : UInt64
  acceptedCount : ℕ
  rejectedCount : ℕ
  deriving DecidableEq

/-- SRC: investigation_store.hpp:85-94 -/
structure EvidenceQuery where
  clientId : Option ClientId := none
  sessionId : Option SessionId := none
  rejectionCode : Option CommandRejectionCode := none
  queueOutcome : Option CommandQueueOutcome := none
  minimumObservedTick : Option UInt64 := none
  maximumObservedTick : Option UInt64 := none
  afterOrdinal : Option UInt64 := none
  limit : ℕ := 100

/-- SRC: investigation_store.hpp:96-104 -/
structure StoredEvidenceRecord where
  archiveId : Int64
  recordDigest : Sha256Digest
  record : CommandEvidenceRecord
  deriving DecidableEq

/-- SRC: investigation_store.cpp:1196-1204 -/
def validateLimit (limit : ℕ) : Except StoreFault Unit :=
  if limit = 0 ∨ limit > 1000 then
    .error (.store .invalidArgument "query limit must be between one and 1000")
  else .ok ()

/-- SRC: investigation_store.cpp:959-977 -/
def archiveSummary (row : ArchiveRow) : Except StoreFault EvidenceArchiveSummary := do
  let recordCount ← checkedSize row.recordCount "archive record count"
  let archiveDigest ← decodeDigest row.archiveDigest "archive digest"
  let trustedHead ← decodeDigest row.trustedHead "archive trusted head"
  let chainHead ← decodeDigest row.declaredHead "archive chain head"
  return {
    archiveId := row.archiveId, source := row.source, importedAtUtc := row.importedAtUtc
    recordCount, archiveDigest, trustedHead, chainHead }

/-- SRC: investigation_store.cpp:925-981 -/
def listArchives (limit : ℕ) (beforeArchiveId : Option Int64) (tables : Tables) :
    Except StoreFault (List EvidenceArchiveSummary) := do
  validateLimit limit
  if beforeArchiveId.any (· ≤ 0) then
    throw (.store .invalidArgument "archive cursor must be positive")
  let limit ← checkedInt64 limit "archive query limit"
  let rows := limitRows (some (.integer limit))
    ((tables.evidenceArchives.filter fun row => beforeArchiveId.all (row.archiveId < ·)).insertionSort
      fun left right => right.archiveId ≤ left.archiveId)
  rows.mapM archiveSummary

/-- Add what a filter adds when it is set. -/
def whenSet {α β : Type} (filter : Option α) (added : α → β) : List β :=
  (filter.map added).toList

/-- The conditions of a query, in the order in which its text names them.
SRC: investigation_store.cpp:1003-1030 -/
def EvidenceQuery.conditions (query : EvidenceQuery) : List Condition :=
  [⟨.archiveId, .equal⟩] ++
  whenSet query.clientId (fun _ => ⟨.clientId, .equal⟩) ++
  whenSet query.sessionId (fun _ => ⟨.sessionId, .equal⟩) ++
  whenSet query.rejectionCode (fun _ => ⟨.rejectionCode, .equal⟩) ++
  whenSet query.queueOutcome (fun _ => ⟨.queueOutcome, .equal⟩) ++
  whenSet query.minimumObservedTick (fun _ => ⟨.observedTick, .atLeast⟩) ++
  whenSet query.maximumObservedTick (fun _ => ⟨.observedTick, .atMost⟩) ++
  whenSet query.afterOrdinal (fun _ => ⟨.ordinal, .greater⟩)

/-- The parameters of a query, in the order in which they are bound.
SRC: investigation_store.cpp:1034-1063 -/
def EvidenceQuery.parameters (query : EvidenceQuery) (archiveId limit : Int64) : List SqlValue :=
  [.integer archiveId] ++
  whenSet query.clientId (fun clientId => .blob (encodeU64 clientId.value)) ++
  whenSet query.sessionId (fun sessionId => .blob (encodeU64 sessionId.value)) ++
  whenSet query.rejectionCode (fun code => .integer (Int64.ofNat code.value.toNat)) ++
  whenSet query.queueOutcome (fun outcome => .integer (Int64.ofNat outcome.value.toNat)) ++
  whenSet query.minimumObservedTick (fun tick => .blob (encodeU64 tick)) ++
  whenSet query.maximumObservedTick (fun tick => .blob (encodeU64 tick)) ++
  whenSet query.afterOrdinal (fun ordinal => .blob (encodeU64 ordinal)) ++
  [.integer limit]

/-- SRC: investigation_store.cpp:1068-1082 -/
def storedRecord (archiveId : Int64) (row : EvidenceRow) :
    Except StoreFault StoredEvidenceRecord := do
  let storedDigest ← decodeDigest row.recordDigest "stored evidence digest"
  let record ← (decodeCommandEvidence row.encodedRecord).mapError .other
  if digestCommandEvidence record ≠ storedDigest then
    throw (.store .sqliteFailure "stored evidence digest does not match encoded record")
  return { archiveId, recordDigest := storedDigest, record }

/-- SRC: investigation_store.cpp:983-1085 -/
def queryEvidence (archiveId : Int64) (query : EvidenceQuery) (tables : Tables) :
    Except StoreFault (List StoredEvidenceRecord) := do
  if archiveId ≤ 0 then
    throw (.store .invalidArgument "archive identifier must be positive")
  validateLimit query.limit
  match query.minimumObservedTick, query.maximumObservedTick with
  | some minimum, some maximum =>
    if minimum > maximum then
      throw (.store .invalidArgument "minimum observed tick exceeds maximum observed tick")
  | _, _ => pure ()
  let limit ← checkedInt64 query.limit "evidence query limit"
  (tables.selectEvidence query.conditions (query.parameters archiveId limit)).mapM
    (storedRecord archiveId)

/-- SRC: investigation_store.cpp:1105-1128 -/
def sessionSummary (row : SessionRow) : Except StoreFault EvidenceSessionSummary := do
  let clientId ← decodeU64 row.clientId "session client identifier"
  let sessionId ← decodeU64 row.sessionId "session identifier"
  let firstOrdinal ← decodeU64 row.firstOrdinal "first ordinal"
  let lastOrdinal ← decodeU64 row.lastOrdinal "last ordinal"
  let firstObservedTick ← decodeU64 row.firstObservedTick "first observed tick"
  let lastObservedTick ← decodeU64 row.lastObservedTick "last observed tick"
  let acceptedCount ← checkedSize row.acceptedCount "accepted count"
  let rejectedCount ← checkedSize row.rejectedCount "rejected count"
  return {
    clientId := ⟨clientId⟩, sessionId := ⟨sessionId⟩
    firstOrdinal, lastOrdinal, firstObservedTick, lastObservedTick
    acceptedCount, rejectedCount }

/-- Not after, in the order `client_id ASC, session_id ASC`. -/
def sessionRowNotAfter (left right : SessionRow) : Bool :=
  left.clientId.lt right.clientId ||
    (left.clientId = right.clientId && !right.sessionId.lt left.sessionId)

/-- SRC: investigation_store.cpp:1087-1131 -/
def listSessions (archiveId : Int64) (tables : Tables) :
    Except StoreFault (List EvidenceSessionSummary) := do
  if archiveId ≤ 0 then
    throw (.store .invalidArgument "archive identifier must be positive")
  ((tables.archiveSessions.filter (·.archiveId = archiveId)).insertionSort
    fun left right => sessionRowNotAfter left right).mapM sessionSummary

/-- SRC: investigation_store.cpp:1186-1189 -/
def archiveCount (tables : Tables) : ℕ := tables.evidenceArchives.length

/-- SRC: investigation_store.cpp:1191-1194 -/
def evidenceRecordCount (tables : Tables) : ℕ := tables.commandEvidence.length

/-! ## Runs -/

/-- A call of a mutating member: which of its statements fail, the time it is made at when it
matters, and its arguments. -/
inductive Call
  | importArchive (failures : List (Option Failure)) (now : UtcTime) (encodedArchive : List UInt8)
      (trustedHead : Sha256Digest) (source : List UInt8)
  | recordReplayResult (failures : List (Option Failure)) (archiveId : Int64)
      (result : CommandEvidenceReplayResult)
  deriving DecidableEq

/-- What a call came back with. -/
inductive Answer
  | imported (result : EvidenceArchiveImportResult)
  | recorded
  | threw (fault : StoreFault)
  deriving DecidableEq

/-- Run a member on a connection some of whose statements fail. -/
def call {α : Type} (answer : α → Answer) (failures : List (Option Failure))
    (action : StoreMember α) (store : Connection Tables) : Answer × Connection Tables :=
  match action { store with failures } with
  | .ok a store => (answer a, { store with failures := [] })
  | .error fault store => (.threw fault, { store with failures := [] })

/-- A store answering its calls. -/
def machine : Machine (Connection Tables) Call Answer where
  perform
    | .importArchive failures now encodedArchive trustedHead source =>
      call .imported failures (importArchive now encodedArchive trustedHead source)
    | .recordReplayResult failures archiveId result =>
      call (fun _ => .recorded) failures (recordReplayResult archiveId result)

/-- A new store. -/
def opened : Connection Tables := { committed := {} }

end InvestigationStore

end Tickline.Model.Storage
