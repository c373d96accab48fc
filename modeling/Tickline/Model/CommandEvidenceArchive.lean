import Tickline.Model.CommandEvidence

/-!
# Evidence archives

An archive is a 56-byte header with the record count and the head digest, and then one
160-byte encoding per record.  Sizes are computed in the machine's 64-bit `size_t`, so
a wrap-around would show; a subspan that leaves the input is undefined behaviour.
-/

set_option autoImplicit false

namespace Tickline.Model

open Tickline.Library

/-- SRC: command_evidence_archive.hpp:15-16 -/
def commandEvidenceArchiveSchemaVersion : UInt16 := 1

/-- SRC: command_evidence_archive.hpp:18-19 -/
def commandEvidenceArchiveHeaderSize : ℕ := 56

/-- SRC: command_evidence_archive.hpp:49-56 -/
structure CommandEvidenceArchive where
  records : List CommandEvidenceRecord
  headDigest : Sha256Digest
  deriving DecidableEq

/-- SRC: command_evidence_archive.cpp:15-20 -/
def archiveMagic : List UInt8 := [0x54, 0x4c, 0x43, 0x41]

/-- The size in bytes of an archive of `recordCount` records.
SRC: command_evidence_archive.cpp:179-212 -/
def checkedArchiveSize (recordCount : UInt64) : Except Fault UInt64 := do
  -- The source first asks whether the count fits a `size_t`, which has the same 64 bits.
  let maximum : UInt64 := UInt64.ofNat (2 ^ 64 - 1)
  let headerSize := UInt64.ofNat commandEvidenceArchiveHeaderSize
  let encodedSize := UInt64.ofNat commandEvidenceEncodedSize
  if (maximum - headerSize) / encodedSize < recordCount then
    throw (.commandEvidenceArchiveError .recordCountOverflow
      "evidence archive encoded size overflows")
  return headerSize + recordCount * encodedSize

/-- SRC: command_evidence_archive.cpp:233-304 -/
def encodeCommandEvidenceArchive (records : List CommandEvidenceRecord)
    (headDigest : Sha256Digest) : Except Fault (List UInt8) := do
  if !verifyCommandEvidenceChain records headDigest then
    throw (.commandEvidenceArchiveError .chainVerificationFailed
      "command evidence records do not match the supplied chain head")
  if ¬ records.length < 2 ^ 64 then
    throw (.commandEvidenceArchiveError .recordCountOverflow
      "command evidence record count cannot be encoded")
  let encodedSize ← checkedArchiveSize (UInt64.ofNat records.length)
  reserve 1 encodedSize.toNat
  let output := archiveMagic ++
    appendU16 commandEvidenceArchiveSchemaVersion ++
    appendU16 commandEvidenceSchemaVersion ++
    appendU32 (UInt32.ofNat commandEvidenceEncodedSize) ++
    appendU32 0 ++
    appendU64 (UInt64.ofNat records.length) ++
    appendDigest headDigest ++
    records.flatMap encodeCommandEvidence
  if output.length ≠ encodedSize.toNat then
    throw (.logicError "command evidence archive encoded size is inconsistent")
  return output

/-- `std::span::subspan`. -/
def subspan (bytes : List UInt8) (offset count : ℕ) : Except Fault (List UInt8) :=
  if offset + count ≤ bytes.length then .ok ((bytes.drop offset).take count)
  else .error .undefinedBehaviour

/-- The reader of the header; its members are those of the record reader.
SRC: command_evidence_archive.cpp:96-167 -/
abbrev ArchiveReader := EvidenceReader

open EvidenceReader in
/-- The reads and checks of the header: the record count and the declared head.
SRC: command_evidence_archive.cpp:318-377 -/
def readArchiveHeader : Member ArchiveReader (UInt64 × Sha256Digest) := do
  readMagic (.commandEvidenceArchiveError .invalidMagic
    "command evidence archive has an invalid magic value") archiveMagic
  let archiveSchema ← readU16
  if archiveSchema ≠ commandEvidenceArchiveSchemaVersion then
    throw (.commandEvidenceArchiveError .unsupportedArchiveSchema
      "command evidence archive schema is unsupported")
  let recordSchema ← readU16
  if recordSchema ≠ commandEvidenceSchemaVersion then
    throw (.commandEvidenceArchiveError .unsupportedRecordSchema
      "command evidence record schema is unsupported")
  let recordSize ← readU32
  if recordSize ≠ UInt32.ofNat commandEvidenceEncodedSize then
    throw (.commandEvidenceArchiveError .invalidRecordSize
      "command evidence archive declares an invalid record size")
  if (← readU32) ≠ 0 then
    throw (.commandEvidenceArchiveError .nonzeroReservedField
      "command evidence archive reserved field must be zero")
  let recordCount ← readU64
  let declaredHead ← readDigest
  return (recordCount, declaredHead)

/-- The record loop, with `count` records to go.
SRC: command_evidence_archive.cpp:406-421 -/
def decodeRecords (encoded : List UInt8) :
    (count offset : ℕ) → Except Fault (List CommandEvidenceRecord)
  | 0, _ => return []
  | count + 1, offset => do
    let recordBytes ← subspan encoded offset commandEvidenceEncodedSize
    let record ← decodeCommandEvidence recordBytes
    let rest ← decodeRecords encoded count (offset + commandEvidenceEncodedSize)
    return record :: rest

/-- SRC: command_evidence_archive.cpp:306-441 -/
def decodeCommandEvidenceArchive (encoded : List UInt8) (trustedHead : Sha256Digest) :
    Except Fault CommandEvidenceArchive := do
  if encoded.length < commandEvidenceArchiveHeaderSize then
    throw (.commandEvidenceArchiveError .truncatedHeader
      "command evidence archive header is truncated")
  let header ← subspan encoded 0 commandEvidenceArchiveHeaderSize
  let ((recordCount, declaredHead), _) ← Member.onCopy readArchiveHeader { input := header }
  let expectedSize ← checkedArchiveSize recordCount
  if encoded.length < expectedSize.toNat then
    throw (.commandEvidenceArchiveError .truncatedRecords
      "command evidence archive records are truncated")
  if expectedSize.toNat < encoded.length then
    throw (.commandEvidenceArchiveError .trailingData
      "command evidence archive contains trailing data")
  reserve commandEvidenceRecordSize recordCount.toNat
  let records ← decodeRecords encoded recordCount.toNat commandEvidenceArchiveHeaderSize
  if !verifyCommandEvidenceChain records declaredHead then
    throw (.commandEvidenceArchiveError .chainVerificationFailed
      "command evidence archive chain verification failed")
  if declaredHead ≠ trustedHead then
    throw (.commandEvidenceArchiveError .trustedHeadMismatch
      "command evidence archive does not match the trusted chain head")
  return { records, headDigest := declaredHead }

end Tickline.Model
