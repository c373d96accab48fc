import Mathlib.Algebra.Group.Int.Defs
import Mathlib.Data.List.Sort
import Mathlib.Data.Nat.Notation
import Mathlib.Data.Prod.Lex
import Tickline.Model.Bytes

/-!
# The investigation database

The tables of the schema, their constraints, and the statements that the store runs on them,
with the meaning that SQLite documents for each.  A statement that a constraint refuses ends
in SQLite's message for it.

Unsigned 64-bit numbers are in the tables as blobs of eight bytes, and blobs are compared as
`memcmp` compares them.  A column that is never read is left out.
-/

set_option autoImplicit false

namespace Tickline.Model.Storage

/-- A value of storage class BLOB. -/
abbrev Blob := List UInt8

/-- The bytes of a value of storage class TEXT. -/
abbrev SqlText := List UInt8

/-- SRC: investigation_store.cpp:24-37 -/
def encodeU64 (value : UInt64) : Blob := bytesAtShifts value [56, 48, 40, 32, 24, 16, 8, 0]

/-- The order of blobs: the first difference decides, and a prefix comes first. -/
def Blob.lt : Blob → Blob → Bool
  | _, [] => false
  | [], _ :: _ => true
  | a :: as, b :: bs => if a < b then true else if b < a then false else Blob.lt as bs

/-- `length` of a text: what is in front of its first NUL counts. -/
def textIsNonempty (text : SqlText) : Bool := text.head?.any (· ≠ 0)

/-! ## Time -/

/-- The days of a month. -/
def daysInMonth (year month : ℕ) : ℕ :=
  if month = 2 then
    if year % 4 = 0 ∧ (year % 100 ≠ 0 ∨ year % 400 = 0) then 29 else 28
  else if month ∈ [4, 6, 9, 11] then 30 else 31

/-- A date and a time in UTC that SQLite can tell. -/
structure UtcTime where
  year : ℕ
  month : ℕ
  day : ℕ
  hour : ℕ
  minute : ℕ
  second : ℕ
  validYear : 1 ≤ year ∧ year ≤ 9999
  validMonth : 1 ≤ month ∧ month ≤ 12
  validDay : 1 ≤ day ∧ day ≤ daysInMonth year month
  validTime : hour < 24 ∧ minute < 60 ∧ second < 60
  deriving DecidableEq

/-- A number as this many decimal digits. -/
def paddedDigits : ℕ → ℕ → List Char
  | 0, _ => []
  | width + 1, n => paddedDigits width (n / 10) ++ [Nat.digitChar (n % 10)]

/-- `CURRENT_TIMESTAMP`: the text `YYYY-MM-DD HH:MM:SS`. -/
def UtcTime.currentTimestamp (now : UtcTime) : List Char :=
  paddedDigits 4 now.year ++ '-' :: paddedDigits 2 now.month ++ '-' :: paddedDigits 2 now.day ++
    ' ' :: paddedDigits 2 now.hour ++ ':' :: paddedDigits 2 now.minute ++
    ':' :: paddedDigits 2 now.second

/-! ## Rows -/

/-- SRC: investigation_store.cpp:412-422 -/
structure ArchiveRow where
  archiveId : Int64
  archiveDigest : Blob
  trustedHead : Blob
  declaredHead : Blob
  archiveSchema : Int64
  recordSchema : Int64
  recordCount : Int64
  source : SqlText
  importedAtUtc : List Char
  deriving DecidableEq

/-- SRC: investigation_store.cpp:413-421 -/
def ArchiveRow.passesChecks (row : ArchiveRow) : Bool :=
  row.archiveDigest.length = 32 && row.trustedHead.length = 32 &&
    row.declaredHead.length = 32 && 0 ≤ row.recordCount && textIsNonempty row.source

/-- SRC: investigation_store.cpp:424-449 -/
structure EvidenceRow where
  archiveId : Int64
  ordinal : Blob
  recordDigest : Blob
  previousRecordDigest : Blob
  worldFingerprintBefore : Blob
  observedTick : Blob
  schemaVersion : Int64
  commandType : Int64
  clientId : Blob
  sessionId : Blob
  sequence : Blob
  targetTick : Blob
  entityId : Blob
  velocityX : Int64
  velocityY : Int64
  sessionSequenceBefore : Blob
  sessionSequenceAfter : Blob
  pendingCommandsBefore : Blob
  pendingCommandsAfter : Blob
  rejectionCode : Int64
  queueOutcome : Int64
  encodedRecord : Blob
  deriving DecidableEq

/-- SRC: investigation_store.cpp:426-446 -/
def EvidenceRow.passesChecks (row : EvidenceRow) : Bool :=
  row.ordinal.length = 8 && row.recordDigest.length = 32 &&
    row.previousRecordDigest.length = 32 && row.worldFingerprintBefore.length = 8 &&
    row.observedTick.length = 8 && row.clientId.length = 8 && row.sessionId.length = 8 &&
    row.sequence.length = 8 && row.targetTick.length = 8 && row.entityId.length = 8 &&
    row.sessionSequenceBefore.length = 8 && row.sessionSequenceAfter.length = 8 &&
    row.pendingCommandsBefore.length = 8 && row.pendingCommandsAfter.length = 8 &&
    row.encodedRecord.length = 160

/-- SRC: investigation_store.cpp:451-462 -/
structure SessionRow where
  archiveId : Int64
  clientId : Blob
  sessionId : Blob
  firstOrdinal : Blob
  lastOrdinal : Blob
  firstObservedTick : Blob
  lastObservedTick : Blob
  acceptedCount : Int64
  rejectedCount : Int64
  deriving DecidableEq

/-- SRC: investigation_store.cpp:453-460 -/
def SessionRow.passesChecks (row : SessionRow) : Bool :=
  row.clientId.length = 8 && row.sessionId.length = 8 && row.firstOrdinal.length = 8 &&
    row.lastOrdinal.length = 8 && row.firstObservedTick.length = 8 &&
    row.lastObservedTick.length = 8 && 0 ≤ row.acceptedCount && 0 ≤ row.rejectedCount

/-- SRC: investigation_store.cpp:464-476 -/
structure ReplayRow where
  archiveId : Int64
  replayCode : Int64
  processedRecords : Int64
  failedOrdinal : Option Blob
  performedTickAdvances : Blob
  finalTick : Blob
  finalSessionSequence : Blob
  finalPendingCommandCount : Blob
  finalWorldFingerprint : Blob
  replayedHeadDigest : Blob
  deriving DecidableEq

/-- SRC: investigation_store.cpp:467-474 -/
def ReplayRow.passesChecks (row : ReplayRow) : Bool :=
  0 ≤ row.processedRecords && row.failedOrdinal.all (·.length = 8) &&
    row.performedTickAdvances.length = 8 && row.finalTick.length = 8 &&
    row.finalSessionSequence.length = 8 && row.finalPendingCommandCount.length = 8 &&
    row.finalWorldFingerprint.length = 8 && row.replayedHeadDigest.length = 32

/-- The contents of the database, each table in the order its rows went in.
SRC: investigation_store.cpp:411-488 -/
structure Tables where
  evidenceArchives : List ArchiveRow := []
  commandEvidence : List EvidenceRow := []
  archiveSessions : List SessionRow := []
  replayResults : List ReplayRow := []
  deriving DecidableEq

namespace Tables

/-- Whether an archive is there, as a foreign key wants it. -/
def hasArchive (tables : Tables) (archiveId : Int64) : Bool :=
  tables.evidenceArchives.any (·.archiveId = archiveId)

/-- The largest archive identifier in use, or zero. -/
def largestArchiveId (tables : Tables) : ℤ :=
  tables.evidenceArchives.foldl (fun largest row => max largest row.archiveId.toInt) 0

/-! ## Statements that change tables -/

/-- `INSERT OR IGNORE INTO evidence_archives`; the row's identifier and time are assigned.  A
row that a constraint refuses is skipped.  The result is the identifier of the new row, which
`sqlite3_changes` and `sqlite3_last_insert_rowid` tell.
SRC: investigation_store.cpp:660-686 -/
def insertArchive (now : UtcTime) (row : ArchiveRow) (tables : Tables) :
    Except String (Option Int64 × Tables) :=
  let archiveId := tables.largestArchiveId + 1
  let row := { row with
    archiveId := Int64.ofInt archiveId
    importedAtUtc := now.currentTimestamp }
  if !row.passesChecks || tables.evidenceArchives.any (·.archiveDigest = row.archiveDigest) then
    .ok (none, tables)
  else if archiveId ≥ 2 ^ 63 then .error "database or disk is full"
  else .ok (some row.archiveId, { tables with
    evidenceArchives := tables.evidenceArchives ++ [row] })

/-- `INSERT INTO command_evidence`.
SRC: investigation_store.cpp:732-740 -/
def insertEvidence (row : EvidenceRow) (tables : Tables) : Except String (Unit × Tables) :=
  if !row.passesChecks then .error "CHECK constraint failed: command_evidence"
  else if tables.commandEvidence.any fun other =>
      other.archiveId = row.archiveId && other.ordinal = row.ordinal then
    .error "UNIQUE constraint failed: command_evidence.archive_id, command_evidence.ordinal"
  else if tables.commandEvidence.any fun other =>
      other.archiveId = row.archiveId && other.recordDigest = row.recordDigest then
    .error "UNIQUE constraint failed: command_evidence.archive_id, command_evidence.record_digest"
  else if !tables.hasArchive row.archiveId then .error "FOREIGN KEY constraint failed"
  else .ok ((), { tables with commandEvidence := tables.commandEvidence ++ [row] })

/-- `INSERT INTO archive_sessions`.
SRC: investigation_store.cpp:814-820 -/
def insertSession (row : SessionRow) (tables : Tables) : Except String (Unit × Tables) :=
  if !row.passesChecks then .error "CHECK constraint failed: archive_sessions"
  else if tables.archiveSessions.any fun other => other.archiveId = row.archiveId &&
      other.clientId = row.clientId && other.sessionId = row.sessionId then
    .error "UNIQUE constraint failed: archive_sessions"
  else if !tables.hasArchive row.archiveId then .error "FOREIGN KEY constraint failed"
  else .ok ((), { tables with archiveSessions := tables.archiveSessions ++ [row] })

/-- `INSERT INTO replay_results ... ON CONFLICT(archive_id) DO UPDATE`, which sets every column
that the insertion gives.
SRC: investigation_store.cpp:880-899 -/
def upsertReplay (row : ReplayRow) (tables : Tables) : Except String (Unit × Tables) :=
  if !row.passesChecks then .error "CHECK constraint failed: replay_results"
  else if tables.replayResults.any (·.archiveId = row.archiveId) then
    .ok ((), { tables with replayResults := tables.replayResults.map fun old =>
      if old.archiveId = row.archiveId then row else old })
  else if !tables.hasArchive row.archiveId then .error "FOREIGN KEY constraint failed"
  else .ok ((), { tables with replayResults := tables.replayResults ++ [row] })

end Tables

/-! ## Conditions on evidence -/

/-- A value and its storage class. -/
inductive SqlValue
  | integer (value : Int64)
  | text (value : SqlText)
  | blob (value : Blob)
  deriving DecidableEq

/-- The order of values: integers, then texts, then blobs. -/
def SqlValue.lt : SqlValue → SqlValue → Bool
  | .integer a, .integer b => a < b
  | .integer _, _ => true
  | _, .integer _ => false
  | .text a, .text b => Blob.lt a b
  | .text _, .blob _ => true
  | .blob _, .text _ => false
  | .blob a, .blob b => Blob.lt a b

/-- The columns of the evidence table that conditions are about. -/
inductive EvidenceColumn
  | archiveId
  | clientId
  | sessionId
  | rejectionCode
  | queueOutcome
  | observedTick
  | ordinal
  deriving DecidableEq, Repr

/-- The value in a column. -/
def EvidenceRow.column (row : EvidenceRow) : EvidenceColumn → SqlValue
  | .archiveId => .integer row.archiveId
  | .clientId => .blob row.clientId
  | .sessionId => .blob row.sessionId
  | .rejectionCode => .integer row.rejectionCode
  | .queueOutcome => .integer row.queueOutcome
  | .observedTick => .blob row.observedTick
  | .ordinal => .blob row.ordinal

/-- How a condition compares a column with its parameter. -/
inductive Comparison
  | equal
  | atLeast
  | atMost
  | greater
  deriving DecidableEq, Repr

/-- Whether a comparison holds. -/
def Comparison.holds (comparison : Comparison) (left right : SqlValue) : Bool :=
  match comparison with
  | .equal => left = right
  | .atLeast => !left.lt right
  | .atMost => !right.lt left
  | .greater => right.lt left

/-- One condition of a `WHERE` clause, with a parameter on its right. -/
structure Condition where
  column : EvidenceColumn
  comparison : Comparison
  deriving DecidableEq

/-- Whether a row meets the conditions, each with the parameter at its position. -/
def EvidenceRow.satisfies (row : EvidenceRow) (conditions : List Condition)
    (parameters : List SqlValue) : Bool :=
  (conditions.zip parameters).all fun (condition, parameter) =>
    condition.comparison.holds (row.column condition.column) parameter

/-- The first rows, at most as many as a `LIMIT` parameter says. -/
def limitRows {α : Type} (limit : Option SqlValue) (rows : List α) : List α :=
  match limit with
  | some (.integer limit) => if limit < 0 then rows else rows.take limit.toInt.toNat
  | _ => rows

/-- `SELECT ... FROM command_evidence WHERE ... ORDER BY ordinal ASC LIMIT ?`: the parameter
behind those of the conditions is the limit.
SRC: investigation_store.cpp:1003-1034 -/
def Tables.selectEvidence (conditions : List Condition) (parameters : List SqlValue)
    (tables : Tables) : List EvidenceRow :=
  limitRows parameters[conditions.length]?
    ((tables.commandEvidence.filter (·.satisfies conditions parameters)).insertionSort
      fun left right => !right.ordinal.lt left.ordinal)

end Tickline.Model.Storage
