import Tickline.Library.ByteCursor
import Tickline.Model.Bytes
import Tickline.Model.CanonicalState
import Tickline.Model.CommandSession
import Tickline.Model.Sha256

/-!
# Command evidence

One `CommandEvidenceRecord` states what a submission saw and did.  Records are encoded
in 160 bytes, and each carries the SHA-256 digest of the record before it; the log
keeps the records and the digest of the last one.

`decodeCommandEvidence` reads field by field in the source's order, so that the error
reported for bytes with several faults is the source's.
-/

set_option autoImplicit false

namespace Tickline.Model

open Tickline.Library

/-- SRC: command_evidence.hpp:22-23 -/
def commandEvidenceSchemaVersion : UInt16 := 2

/-- SRC: command_evidence.hpp:25-26 -/
def commandEvidenceEncodedSize : ℕ := 160

/-- SRC: command_evidence.hpp:28-37 -/
structure CommandQueueOutcome where
  value : UInt16
  deriving DecidableEq

namespace CommandQueueOutcome

def notAttempted : CommandQueueOutcome := ⟨0⟩
def accepted : CommandQueueOutcome := ⟨1⟩
def staleTick : CommandQueueOutcome := ⟨2⟩
def unknownEntity : CommandQueueOutcome := ⟨3⟩
def sequenceNotIncreasing : CommandQueueOutcome := ⟨4⟩
def targetTickRegression : CommandQueueOutcome := ⟨5⟩
def velocityOutOfRange : CommandQueueOutcome := ⟨6⟩
def unknown : CommandQueueOutcome := ⟨65535⟩

end CommandQueueOutcome

/-- SRC: command_evidence.hpp:39-64 -/
def commandQueueOutcome : QueueCommandResult → CommandQueueOutcome
  | .accepted => .accepted
  | .staleTick => .staleTick
  | .unknownEntity => .unknownEntity
  | .sequenceNotIncreasing => .sequenceNotIncreasing
  | .targetTickRegression => .targetTickRegression
  | .velocityOutOfRange => .velocityOutOfRange

/-- SRC: command_evidence.hpp:99-113 -/
structure CommandEvidenceEntry where
  worldFingerprintBefore : StateFingerprint
  observedTick : UInt64
  envelope : CommandEnvelope
  sessionSequenceBefore : UInt64
  sessionSequenceAfter : UInt64
  pendingCommandsBefore : UInt64
  pendingCommandsAfter : UInt64
  rejectionCode : CommandRejectionCode
  queueOutcome : CommandQueueOutcome
  deriving DecidableEq

/-- SRC: command_evidence.hpp:115-123 -/
structure CommandEvidenceRecord where
  ordinal : UInt64
  previousRecordDigest : Sha256Digest
  entry : CommandEvidenceEntry
  deriving DecidableEq

/-! ## Encoding -/

/-- SRC: command_evidence.cpp:77-83 -/
def appendDigest (digest : Sha256Digest) : List UInt8 := digest.bytes.toList

/-- SRC: command_evidence.cpp:352-357 -/
def commandEvidenceMagic : List UInt8 := [0x54, 0x4c, 0x43, 0x45]

/-- SRC: command_evidence.cpp:349-450 -/
def encodeCommandEvidence (record : CommandEvidenceRecord) : List UInt8 :=
  commandEvidenceMagic ++
  appendU16 commandEvidenceSchemaVersion ++
  appendU16 0 ++
  appendU64 record.ordinal ++
  appendDigest record.previousRecordDigest ++
  appendU64 record.entry.worldFingerprintBefore.value ++
  appendU64 record.entry.observedTick ++
  appendU16 record.entry.envelope.schemaVersion ++
  appendU16 record.entry.envelope.type.value ++
  appendU64 record.entry.envelope.clientId.value ++
  appendU64 record.entry.envelope.sessionId.value ++
  appendU64 record.entry.envelope.sequence ++
  appendU64 record.entry.envelope.targetTick ++
  appendU64 record.entry.envelope.payload.entityId.value ++
  appendI64 record.entry.envelope.payload.velocity.x.count ++
  appendI64 record.entry.envelope.payload.velocity.y.count ++
  appendU64 record.entry.sessionSequenceBefore ++
  appendU64 record.entry.sessionSequenceAfter ++
  appendU64 record.entry.pendingCommandsBefore ++
  appendU64 record.entry.pendingCommandsAfter ++
  appendU16 record.entry.rejectionCode.value ++
  appendU16 record.entry.queueOutcome.value

/-! ## Decoding -/

/-- The reader of records; the reader of archives has the same members.
SRC: command_evidence.cpp:96-168, command_evidence_archive.cpp:96-167 -/
abbrev EvidenceReader := ByteCursor

namespace EvidenceReader

/-- A read past the end of the span is undefined behaviour.
SRC: command_evidence.cpp:104-112 -/
def readByte : Member EvidenceReader UInt8 := do
  let reader ← get
  match reader.input[reader.offset]? with
  | some value =>
    set { reader with offset := reader.offset + 1 }
    return value
  | none => throw .undefinedBehaviour

/-- Read bytes into an accumulator, one after the other. -/
def readLoop {α : Type} (push : α → UInt8 → α) : ℕ → α → Member EvidenceReader α
  | 0, value => return value
  | count + 1, value => do
    let byte ← readByte
    readLoop push count (push value byte)

/-- SRC: command_evidence.cpp:114-126 -/
def readU16 : Member EvidenceReader UInt16 := do
  let first ← readByte
  let second ← readByte
  return (first.toUInt16 <<< 8) ||| second.toUInt16

/-- SRC: command_evidence_archive.cpp:126-138 -/
def readU32 : Member EvidenceReader UInt32 :=
  readLoop (fun value byte => (value <<< 8) ||| byte.toUInt32) 4 0

/-- SRC: command_evidence.cpp:128-140 -/
def readU64 : Member EvidenceReader UInt64 :=
  readLoop (fun value byte => (value <<< 8) ||| byte.toUInt64) 8 0

/-- SRC: command_evidence.cpp:142-146 -/
def readI64 : Member EvidenceReader Int64 := do
  return (← readU64).toInt64

/-- Fill an array of the given size. -/
def readArray : (size : ℕ) → Member EvidenceReader (Vector UInt8 size)
  | 0 => return #v[]
  | size + 1 => do
    let bytes ← readArray size
    return bytes.push (← readByte)

/-- SRC: command_evidence.cpp:148-158 -/
def readDigest : Member EvidenceReader Sha256Digest := do
  return ⟨← readArray 32⟩

/-- Compare the next bytes with a magic value, one by one.
SRC: command_evidence.cpp:472-479 -/
def readMagic (fault : Fault) : List UInt8 → Member EvidenceReader Unit
  | [] => return ()
  | expected :: rest => do
    if (← readByte) ≠ expected then
      throw fault
    readMagic fault rest

end EvidenceReader

/-- SRC: command_evidence.cpp:181-206 -/
def isKnownRejectionCode (code : CommandRejectionCode) : Bool :=
  code ∈ ([.none, .unsupportedSchemaVersion, .unsupportedCommandType, .invalidClientId,
    .invalidSessionId, .clientIdentityMismatch, .sessionIdentityMismatch, .sequenceZero,
    .staleTargetTick, .targetTickTooFarFuture, .velocityOutOfRange, .duplicateSequence,
    .sequenceRegression, .unknownEntity, .entitySequenceNotIncreasing, .targetTickRegression,
    .simulationRejectionUnknown] : List CommandRejectionCode)

/-- SRC: command_evidence.cpp:208-224 -/
def isKnownQueueOutcome (outcome : CommandQueueOutcome) : Bool :=
  outcome ∈ ([.notAttempted, .accepted, .staleTick, .unknownEntity, .sequenceNotIncreasing,
    .targetTickRegression, .velocityOutOfRange, .unknown] : List CommandQueueOutcome)

/-- SRC: command_evidence.cpp:226-261 -/
def expectedRejectionCode (outcome : CommandQueueOutcome) : Option CommandRejectionCode :=
  if outcome = .notAttempted then none
  else if outcome = .accepted then some .none
  else if outcome = .staleTick then some .staleTargetTick
  else if outcome = .unknownEntity then some .unknownEntity
  else if outcome = .sequenceNotIncreasing then some .entitySequenceNotIncreasing
  else if outcome = .targetTickRegression then some .targetTickRegression
  else if outcome = .velocityOutOfRange then some .velocityOutOfRange
  else if outcome = .unknown then some .simulationRejectionUnknown
  else none

/-- SRC: command_evidence.cpp:263-331 -/
def validateRecordInvariants (record : CommandEvidenceRecord) : Except Fault Unit := do
  let entry := record.entry
  let accepted := decide (entry.rejectionCode = .none)
  if accepted ≠ decide (entry.queueOutcome = .accepted) then
    throw (.commandEvidenceDecodeError .inconsistentOutcome
      "evidence rejection code and queue outcome are inconsistent")
  let expected := expectedRejectionCode entry.queueOutcome
  if expected.isSome ∧ expected ≠ some entry.rejectionCode then
    throw (.commandEvidenceDecodeError .inconsistentOutcome
      "evidence queue outcome does not match its rejection code")
  if accepted then
    if entry.sessionSequenceAfter ≠ entry.envelope.sequence ∨
        entry.sessionSequenceAfter ≤ entry.sessionSequenceBefore then
      throw (.commandEvidenceDecodeError .inconsistentStateTransition
        "accepted evidence has an invalid session sequence transition")
    if entry.pendingCommandsBefore = UInt64.ofNat (2 ^ 64 - 1) then
      throw (.commandEvidenceDecodeError .inconsistentStateTransition
        "accepted evidence pending-command count overflows")
    if entry.pendingCommandsAfter ≠ entry.pendingCommandsBefore + 1 then
      throw (.commandEvidenceDecodeError .inconsistentStateTransition
        "accepted evidence has an invalid pending-command transition")
    return
  if entry.sessionSequenceAfter ≠ entry.sessionSequenceBefore ∨
      entry.pendingCommandsAfter ≠ entry.pendingCommandsBefore then
    throw (.commandEvidenceDecodeError .inconsistentStateTransition
      "rejected evidence must not mutate session or queue state")

open EvidenceReader in
/-- The reads and checks of the decoder, up to the record invariants.
SRC: command_evidence.cpp:464-643 -/
def readCommandEvidence : Member EvidenceReader CommandEvidenceRecord := do
  readMagic (.commandEvidenceDecodeError .invalidMagic
    "command evidence record has an invalid magic value") commandEvidenceMagic
  let schemaVersion ← readU16
  if schemaVersion ≠ commandEvidenceSchemaVersion then
    throw (.commandEvidenceDecodeError .unsupportedSchemaVersion
      "command evidence schema version is unsupported")
  if (← readU16) ≠ 0 then
    throw (.commandEvidenceDecodeError .nonzeroReservedField
      "command evidence reserved field must be zero")
  let ordinal ← readU64
  let previousDigest ← readDigest
  let worldFingerprint ← readU64
  let observedTick ← readU64
  let envelopeSchema ← readU16
  let commandType ← readU16
  let clientId ← readU64
  let sessionId ← readU64
  let sequence ← readU64
  let targetTick ← readU64
  let entityIdValue ← readU64
  let velocityX ← readI64
  let velocityY ← readI64
  let sessionSequenceBefore ← readU64
  let sessionSequenceAfter ← readU64
  let pendingCommandsBefore ← readU64
  let pendingCommandsAfter ← readU64
  let rejectionCode : CommandRejectionCode := ⟨← readU16⟩
  if !isKnownRejectionCode rejectionCode then
    throw (.commandEvidenceDecodeError .unknownRejectionCode
      "command evidence contains an unknown rejection code")
  let queueOutcome : CommandQueueOutcome := ⟨← readU16⟩
  if !isKnownQueueOutcome queueOutcome then
    throw (.commandEvidenceDecodeError .unknownQueueOutcome
      "command evidence contains an unknown queue outcome")
  match EntityId.make entityIdValue with
  | .error _ => throw (.commandEvidenceDecodeError .invalidEntityId
      "command evidence contains an invalid entity identifier")
  | .ok entityId =>
    return {
      ordinal
      previousRecordDigest := previousDigest
      entry := {
        worldFingerprintBefore := ⟨worldFingerprint⟩
        observedTick
        envelope := {
          schemaVersion := envelopeSchema
          type := ⟨commandType⟩
          clientId := ⟨clientId⟩
          sessionId := ⟨sessionId⟩
          sequence, targetTick
          payload := { entityId, velocity := { x := ⟨velocityX⟩, y := ⟨velocityY⟩ } } }
        sessionSequenceBefore, sessionSequenceAfter
        pendingCommandsBefore, pendingCommandsAfter
        rejectionCode, queueOutcome } }

/-- SRC: command_evidence.cpp:452-648 -/
def decodeCommandEvidence (encoded : List UInt8) : Except Fault CommandEvidenceRecord := do
  if encoded.length ≠ commandEvidenceEncodedSize then
    throw (.commandEvidenceDecodeError .invalidSize
      "command evidence record has an invalid encoded size")
  let (record, _) ← Member.onCopy readCommandEvidence { input := encoded }
  validateRecordInvariants record
  return record

/-! ## The chain and the log -/

/-- SRC: command_evidence.cpp:650-661 -/
def digestCommandEvidence (record : CommandEvidenceRecord) : Sha256Digest :=
  sha256 (encodeCommandEvidence record)

/-- The loop of the chain check, from `index` on.
SRC: command_evidence.cpp:663-697 -/
def verifyChainFrom (expectedHead : Sha256Digest) (index : ℕ) (previous : Sha256Digest) :
    List CommandEvidenceRecord → Bool
  | [] => previous = expectedHead
  | record :: rest =>
    if ¬ index < 2 ^ 64 then false
    else if record.ordinal ≠ UInt64.ofNat index then false
    else if record.previousRecordDigest ≠ previous then false
    else verifyChainFrom expectedHead (index + 1) (digestCommandEvidence record) rest

/-- SRC: command_evidence.cpp:663-697 -/
def verifyCommandEvidenceChain (records : List CommandEvidenceRecord)
    (expectedHead : Sha256Digest) : Bool :=
  verifyChainFrom expectedHead 0 {} records

/-- SRC: command_evidence.hpp:168-196 -/
structure CommandEvidenceLog where
  records : List CommandEvidenceRecord := []
  headDigest : Sha256Digest := {}
  deriving DecidableEq

/-- `sizeof(CommandEvidenceRecord)` with the padding of its 16-bit fields. -/
def commandEvidenceRecordSize : ℕ := 160

namespace CommandEvidenceLog

/-- SRC: command_evidence.cpp:725-730 -/
def verify (log : CommandEvidenceLog) : Bool :=
  verifyCommandEvidenceChain log.records log.headDigest

/-- SRC: command_evidence.cpp:732-748 -/
def prepareAppend : Member CommandEvidenceLog Unit := do
  let log ← get
  if ¬ log.records.length < 2 ^ 64 then
    throw (.overflowError "command evidence ordinal cannot be represented")
  if log.records.length = vectorMaxSize commandEvidenceRecordSize then
    throw (.lengthError "command evidence log reached its maximum size")

/-- SRC: command_evidence.cpp:750-781 -/
def append (entry : CommandEvidenceEntry) : Member CommandEvidenceLog Unit := do
  let log ← get
  let record : CommandEvidenceRecord := {
    ordinal := UInt64.ofNat log.records.length
    previousRecordDigest := log.headDigest
    entry }
  set ({ records := log.records ++ [record]
         headDigest := digestCommandEvidence record } : CommandEvidenceLog)

end CommandEvidenceLog

end Tickline.Model
