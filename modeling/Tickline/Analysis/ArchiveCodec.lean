import Tickline.Analysis.EvidenceCodec
import Tickline.Library.HashChain

/-!
# The archive codec and the binding of a trusted head

`archiveBytes` is what an archive of records under a head looks like: a header of 56 bytes
and the record encodings one after the other.  Encoding returns exactly that, for a
verified chain that is not too long (`encodeCommandEvidenceArchive_iff`); decoding accepts
exactly that, for records that satisfy `RecordOk` (`decodeCommandEvidenceArchive_iff`).
Together they say that the format is exact (`archive_exact`).

The verified chain of an archive is a `Library.HashChain`, whose binding theorem turns two
archives under one head into one archive or a break of SHA-256 (`trusted_head_binding`).
-/

set_option autoImplicit false

namespace Tickline.Analysis

open Tickline.Library Tickline.Model Tickline.Model.EvidenceReader

/-! ## Sizes -/

/-- The most records whose archive size a `size_t` can hold. -/
def representableRecordCount : ℕ := (2 ^ 64 - 1 - commandEvidenceArchiveHeaderSize) /
  commandEvidenceEncodedSize

/-- The most records that a vector can hold; their archive just fits a vector as well. -/
def maximumRecordCount : ℕ := vectorMaxSize commandEvidenceRecordSize

/-- The guard of the size computation keeps it from wrapping around.
SRC: command_evidence_archive.cpp:179-212 -/
theorem checkedArchiveSize_iff {recordCount size : UInt64} :
    checkedArchiveSize recordCount = .ok size ↔
      recordCount.toNat ≤ representableRecordCount ∧
        size.toNat = commandEvidenceArchiveHeaderSize +
          recordCount.toNat * commandEvidenceEncodedSize := by
  have hmaximum : ((UInt64.ofNat (2 ^ 64 - 1) - UInt64.ofNat commandEvidenceArchiveHeaderSize) /
      UInt64.ofNat commandEvidenceEncodedSize).toNat = representableRecordCount := by decide
  have hvalue : representableRecordCount = 115292150460684697 := by decide
  unfold checkedArchiveSize
  simp only [except_guard_iff]
  rw [UInt64.not_lt, UInt64.le_iff_toNat_le, hmaximum]
  apply and_congr_right
  intro hle
  have hsize : (UInt64.ofNat commandEvidenceArchiveHeaderSize +
      recordCount * UInt64.ofNat commandEvidenceEncodedSize).toNat =
        commandEvidenceArchiveHeaderSize + recordCount.toNat * commandEvidenceEncodedSize := by
    rw [UInt64.toNat_add, UInt64.toNat_mul,
      show (UInt64.ofNat commandEvidenceArchiveHeaderSize).toNat = 56 from rfl,
      show (UInt64.ofNat commandEvidenceEncodedSize).toNat = 160 from rfl,
      commandEvidenceArchiveHeaderSize, commandEvidenceEncodedSize]
    omega
  rw [← hsize, UInt64.toNat_inj, eq_comm]
  exact ⟨Except.ok.inj, congrArg Except.ok⟩

theorem maximumRecordCount_eq : maximumRecordCount = 57646075230342348 := by decide

/-- What a vector can hold, a `size_t` can count. -/
theorem maximumRecordCount_le : maximumRecordCount ≤ representableRecordCount := by decide

/-- A vector can hold the archive exactly when a vector can hold the records. -/
theorem archive_fits {recordCount : ℕ} :
    commandEvidenceArchiveHeaderSize + recordCount * commandEvidenceEncodedSize ≤
        vectorMaxSize 1 ↔ recordCount ≤ maximumRecordCount := by
  have hbytes : vectorMaxSize 1 = 9223372036854775807 := by decide
  rw [hbytes, maximumRecordCount_eq, commandEvidenceArchiveHeaderSize, commandEvidenceEncodedSize]
  omega

/-- INTERNAL: a count that is not too large survives its eight bytes. -/
theorem toNat_recordCount {n : ℕ} (h : n ≤ maximumRecordCount) : (UInt64.ofNat n).toNat = n := by
  rw [maximumRecordCount_eq] at h
  rw [UInt64.toNat_ofNat']
  exact Nat.mod_eq_of_lt (by omega)

/-- INTERNAL: the size of an archive that a vector can hold is computed. -/
theorem checkedArchiveSize_ok {n : ℕ} (h : n ≤ maximumRecordCount) :
    ∃ size, checkedArchiveSize (UInt64.ofNat n) = .ok size ∧
      size.toNat = commandEvidenceArchiveHeaderSize + n * commandEvidenceEncodedSize := by
  have hfits := archive_fits.mpr h
  have hsize : (UInt64.ofNat (commandEvidenceArchiveHeaderSize +
      n * commandEvidenceEncodedSize)).toNat =
        commandEvidenceArchiveHeaderSize + n * commandEvidenceEncodedSize := by
    rw [UInt64.toNat_ofNat']
    exact Nat.mod_eq_of_lt (Nat.lt_of_le_of_lt hfits (by decide))
  refine ⟨_, checkedArchiveSize_iff.mpr ?_, hsize⟩
  rw [toNat_recordCount h]
  exact ⟨h.trans maximumRecordCount_le, hsize⟩

/-! ## The chain -/

/-- Evidence records as a hash chain. -/
def evidenceChain : HashChain CommandEvidenceRecord (List UInt8) Sha256Digest where
  encode := encodeCommandEvidence
  hash := sha256
  ordinal record := record.ordinal.toNat
  previous record := record.previousRecordDigest

theorem evidenceChain_digest (record : CommandEvidenceRecord) :
    evidenceChain.digest record = digestCommandEvidence record := rfl

/-- The digest that the first record carries: all zero. -/
def genesisDigest : Sha256Digest := {}

/-- INTERNAL: the loop of the chain check decides the chain from its position on.
SRC: command_evidence.cpp:663-697 -/
theorem verifyChainFrom_iff {head previous : Sha256Digest} {index : ℕ}
    {records : List CommandEvidenceRecord} (hindex : index ≤ 2 ^ 64) :
    verifyChainFrom head index previous records = true ↔
      index + records.length ≤ 2 ^ 64 ∧ evidenceChain.Linked index previous records head := by
  induction records generalizing index previous with
  | nil =>
    simp only [verifyChainFrom, HashChain.Linked, List.length_nil, Nat.add_zero, hindex, true_and,
      decide_eq_true_eq]
  | cons record records ih =>
    by_cases hlt : index < 2 ^ 64
    · have hordinal : record.ordinal ≠ UInt64.ofNat index ↔ record.ordinal.toNat ≠ index := by
        rw [ne_eq, ← UInt64.toNat_inj, UInt64.toNat_ofNat', Nat.mod_eq_of_lt hlt]
      have hnext : index + 1 ≤ 2 ^ 64 := hlt
      simp only [verifyChainFrom, hlt, not_true_eq_false, if_false, hordinal]
      split_ifs with hord hprev
      · simp [HashChain.Linked, evidenceChain, hord]
      · simp [HashChain.Linked, evidenceChain, hprev]
      · rw [ih hnext, List.length_cons]
        simp only [HashChain.Linked, evidenceChain, not_not] at hord hprev ⊢
        simp only [hord, hprev, true_and]
        refine and_congr (by omega) Iff.rfl
    · have hlong : ¬ index + (records.length + 1) ≤ 2 ^ 64 := by omega
      simp only [verifyChainFrom, hlt, not_false_eq_true, if_true, List.length_cons, hlong,
        false_and, Bool.false_eq_true]

/-- **The chain check** accepts the chains from the genesis digest to the given head. -/
theorem verifyCommandEvidenceChain_iff {records : List CommandEvidenceRecord}
    {head : Sha256Digest} :
    verifyCommandEvidenceChain records head = true ↔
      records.length ≤ 2 ^ 64 ∧ evidenceChain.Linked 0 genesisDigest records head := by
  rw [verifyCommandEvidenceChain, verifyChainFrom_iff (Nat.zero_le _), Nat.zero_add]
  rfl

/-! ## The header -/

/-- The 56 bytes before the records. -/
def archiveHeader (recordCount : UInt64) (head : Sha256Digest) : List UInt8 :=
  archiveMagic ++ appendU16 commandEvidenceArchiveSchemaVersion ++
    appendU16 commandEvidenceSchemaVersion ++
    appendU32 (UInt32.ofNat commandEvidenceEncodedSize) ++ appendU32 0 ++
    appendU64 recordCount ++ appendDigest head

theorem length_archiveHeader (recordCount : UInt64) (head : Sha256Digest) :
    (archiveHeader recordCount head).length = commandEvidenceArchiveHeaderSize := by
  unfold archiveHeader
  simp only [List.length_append, length_appendU16, length_appendU32, length_appendU64,
    length_appendDigest]
  rfl

/-- INTERNAL: reading takes the header of an archive. -/
theorem readArchiveHeader_takes (recordCount : UInt64) (head : Sha256Digest) :
    Takes readArchiveHeader (archiveHeader recordCount head) (recordCount, head) := by
  rw [← List.append_nil (archiveHeader recordCount head)]
  unfold archiveHeader readArchiveHeader
  simp only [List.append_assoc]
  apply (readMagic_takes _ _).bind
  refine (readU16_reads.takes _).bind (takes_guard (not_not.mpr rfl) ?_)
  refine (readU16_reads.takes _).bind (takes_guard (not_not.mpr rfl) ?_)
  refine (readU32_reads.takes _).bind (takes_guard (not_not.mpr rfl) ?_)
  refine (readU32_reads.takes _).bind (takes_guard (not_not.mpr rfl) ?_)
  apply (readU64_reads.takes _).bind
  apply (readDigest_reads.takes _).bind
  exact Takes.pure _

/-- INTERNAL: a header that was accepted is the header of its fields. -/
theorem readArchiveHeader_sound {recordCount : UInt64} {head : Sha256Digest} {c c' : ByteCursor}
    (h : readArchiveHeader c = .ok (recordCount, head) c') :
    c.rest = archiveHeader recordCount head ++ c'.rest := by
  unfold readArchiveHeader at h
  obtain ⟨_, c0, e0, h⟩ := bind_eq_ok h
  replace e0 := readMagic_sound e0
  obtain ⟨archiveSchema, c1, e1, h⟩ := readU16_reads.bind_ok h
  obtain ⟨harchive, h⟩ := guard_ok h
  obtain ⟨recordSchema, c2, e2, h⟩ := readU16_reads.bind_ok h
  obtain ⟨hrecord, h⟩ := guard_ok h
  obtain ⟨recordSize, c3, e3, h⟩ := readU32_reads.bind_ok h
  obtain ⟨hsize, h⟩ := guard_ok h
  obtain ⟨reserved, c4, e4, h⟩ := readU32_reads.bind_ok h
  obtain ⟨hreserved, h⟩ := guard_ok h
  obtain ⟨count, c5, e5, h⟩ := readU64_reads.bind_ok h
  obtain ⟨declared, c6, e6, h⟩ := readDigest_reads.bind_ok h
  cases h
  rw [not_not.mp harchive] at e1
  rw [not_not.mp hrecord] at e2
  rw [not_not.mp hsize] at e3
  rw [not_not.mp hreserved] at e4
  unfold archiveHeader
  simp only [e0, e1, e2, e3, e4, e5, e6, List.append_assoc]

/-- **The header codec is exact.**
SRC: command_evidence_archive.cpp:318-377 -/
theorem readArchiveHeader_iff {header : List UInt8} {recordCount : UInt64} {head : Sha256Digest}
    (hlen : header.length = commandEvidenceArchiveHeaderSize) :
    (∃ c, Member.onCopy readArchiveHeader { input := header } = .ok ((recordCount, head), c)) ↔
      header = archiveHeader recordCount head := by
  simp only [Member.onCopy_iff]
  constructor
  · rintro ⟨c, hread⟩
    exact ByteCursor.eq_of_rest_start (readArchiveHeader_sound hread)
      (hlen.trans (length_archiveHeader recordCount head).symm)
  · rintro rfl
    exact (readArchiveHeader_takes recordCount head).whole

/-! ## The records -/

/-- INTERNAL: 160 bytes for each record. -/
theorem length_flatMap_encode (records : List CommandEvidenceRecord) :
    (records.flatMap encodeCommandEvidence).length =
      records.length * commandEvidenceEncodedSize := by
  induction records with
  | nil => exact (Nat.zero_mul _).symm
  | cons record records ih =>
    rw [List.flatMap_cons, List.length_append, length_encodeCommandEvidence, ih, List.length_cons,
      Nat.succ_mul, Nat.add_comm]

/-- INTERNAL: a subspan that stays inside the bytes. -/
theorem subspan_iff {bytes out : List UInt8} {offset count : ℕ} :
    subspan bytes offset count = .ok out ↔
      offset + count ≤ bytes.length ∧ (bytes.drop offset).take count = out := by
  unfold subspan
  split_ifs with h <;> simp [h]

/-- The record loop reads exactly the encodings of acceptable records.
SRC: command_evidence_archive.cpp:406-421 -/
theorem decodeRecords_iff {encoded : List UInt8} {count offset : ℕ}
    {records : List CommandEvidenceRecord}
    (hlen : encoded.length = offset + count * commandEvidenceEncodedSize) :
    decodeRecords encoded count offset = .ok records ↔
      encoded.drop offset = records.flatMap encodeCommandEvidence ∧ records.length = count ∧
        ∀ record ∈ records, RecordOk record := by
  induction count generalizing offset records with
  | zero =>
    have hdrop : encoded.drop offset = [] := List.drop_eq_nil_of_le (by omega)
    simp only [decodeRecords, pure, Except.pure, Except.ok.injEq, hdrop]
    constructor
    · rintro rfl
      simp
    · rintro ⟨-, hnil, -⟩
      exact (List.length_eq_zero_iff.mp hnil).symm
  | succ count ih =>
    rw [Nat.succ_mul, Nat.add_comm _ commandEvidenceEncodedSize, ← Nat.add_assoc] at hlen
    have hroom : offset + commandEvidenceEncodedSize ≤ encoded.length := by omega
    have hsplit : encoded.drop offset = (encoded.drop offset).take commandEvidenceEncodedSize ++
        encoded.drop (offset + commandEvidenceEncodedSize) := by
      rw [← List.drop_drop, List.take_append_drop]
    simp only [decodeRecords, except_bind_iff, subspan_iff, decodeCommandEvidence_iff, ih hlen]
    constructor
    · rintro ⟨_, ⟨-, rfl⟩, record, ⟨hbytes, hok⟩, rest, ⟨hdrop, hcount, hall⟩, hreturn⟩
      obtain rfl : record :: rest = records := Except.ok.inj hreturn
      refine ⟨?_, by rw [List.length_cons, hcount], List.forall_mem_cons.mpr ⟨hok, hall⟩⟩
      rw [hsplit, hbytes, hdrop, List.flatMap_cons]
    · rintro ⟨hbytes, hcount, hall⟩
      obtain ⟨record, rest, rfl⟩ := List.exists_cons_of_length_eq_add_one hcount
      obtain ⟨hok, hall⟩ := List.forall_mem_cons.mp hall
      have hwidth : ((encoded.drop offset).take commandEvidenceEncodedSize).length =
          (encodeCommandEvidence record).length := by
        rw [List.length_take, List.length_drop, length_encodeCommandEvidence]
        omega
      rw [hsplit, List.flatMap_cons] at hbytes
      obtain ⟨hfirst, hlater⟩ := List.append_inj hbytes hwidth
      exact ⟨_, ⟨hroom, rfl⟩, record, ⟨hfirst, hok⟩, rest,
        ⟨hlater, Nat.succ.inj hcount, hall⟩, rfl⟩

/-! ## The archive -/

/-- The bytes of an archive. -/
def archiveBytes (records : List CommandEvidenceRecord) (head : Sha256Digest) : List UInt8 :=
  archiveHeader (UInt64.ofNat records.length) head ++ records.flatMap encodeCommandEvidence

/-- INTERNAL: the size of an archive. -/
theorem length_archiveBytes (records : List CommandEvidenceRecord) (head : Sha256Digest) :
    (archiveBytes records head).length =
      commandEvidenceArchiveHeaderSize + records.length * commandEvidenceEncodedSize := by
  rw [archiveBytes, List.length_append, length_archiveHeader, length_flatMap_encode]

/-- **Encoding an archive** succeeds on the verified chains that are not too long.
SRC: command_evidence_archive.cpp:233-304 -/
theorem encodeCommandEvidenceArchive_iff {records : List CommandEvidenceRecord}
    {head : Sha256Digest} {bytes : List UInt8} :
    encodeCommandEvidenceArchive records head = .ok bytes ↔
      verifyCommandEvidenceChain records head = true ∧ records.length ≤ maximumRecordCount ∧
        bytes = archiveBytes records head := by
  unfold encodeCommandEvidenceArchive
  simp only [except_guard_iff, except_bind_iff, reserve_iff]
  constructor
  · rintro ⟨hverify, hcount, size, hsize, -, hreserve, -, hreturn⟩
    rw [(checkedArchiveSize_iff.mp hsize).2, UInt64.toNat_ofNat',
      Nat.mod_eq_of_lt (not_not.mp hcount)] at hreserve
    exact ⟨by simpa using hverify, archive_fits.mp hreserve, (Except.ok.inj hreturn).symm⟩
  · rintro ⟨hverify, hcount, rfl⟩
    obtain ⟨size, hsize, hnat⟩ := checkedArchiveSize_ok hcount
    have hshort : records.length < 2 ^ 64 := by
      rw [maximumRecordCount_eq] at hcount
      omega
    have hlength : (archiveBytes records head).length = size.toNat := by
      rw [length_archiveBytes, hnat]
    exact ⟨by simpa using hverify, not_not.mpr hshort, size, hsize, (),
      hnat ▸ archive_fits.mpr hcount, not_not.mpr hlength, rfl⟩

/-- **Decoding an archive** accepts the bytes of verified chains of acceptable records
under the trusted head, and no others.
SRC: command_evidence_archive.cpp:306-441 -/
theorem decodeCommandEvidenceArchive_iff {bytes : List UInt8} {head : Sha256Digest}
    {archive : CommandEvidenceArchive} :
    decodeCommandEvidenceArchive bytes head = .ok archive ↔
      archive.headDigest = head ∧ verifyCommandEvidenceChain archive.records head = true ∧
        archive.records.length ≤ maximumRecordCount ∧ bytes = archiveBytes archive.records head ∧
        ∀ record ∈ archive.records, RecordOk record := by
  unfold decodeCommandEvidenceArchive
  simp only [except_guard_iff, except_bind_iff, reserve_iff, subspan_iff, List.drop_zero]
  constructor
  · rintro ⟨hlong, _, ⟨-, rfl⟩, ⟨⟨recordCount, declaredHead⟩, c⟩, hheader, size, hsize, hfew, hmany,
      -, hroom, records, hrecords, hverify, htrusted, hreturn⟩
    obtain rfl : declaredHead = head := not_not.mp htrusted
    obtain rfl : { records, headDigest := declaredHead } = archive := Except.ok.inj hreturn
    have hwidth : (bytes.take commandEvidenceArchiveHeaderSize).length =
        commandEvidenceArchiveHeaderSize := by
      rw [List.length_take]
      omega
    have hfirst := (readArchiveHeader_iff hwidth).mp ⟨c, hheader⟩
    have hnat := (checkedArchiveSize_iff.mp hsize).2
    obtain ⟨hdrop, hcount, hall⟩ := (decodeRecords_iff (by omega)).mp hrecords
    refine ⟨rfl, by simpa using hverify, hcount ▸ hroom, ?_, hall⟩
    rw [archiveBytes, hcount, UInt64.ofNat_toNat, ← hfirst, ← hdrop, List.take_append_drop]
  · obtain ⟨records, declaredHead⟩ := archive
    rintro ⟨hhead, hverify, hcount, hbytes, hall⟩
    obtain rfl : declaredHead = head := hhead
    change records.length ≤ maximumRecordCount at hcount
    have hlen : bytes.length =
        commandEvidenceArchiveHeaderSize + records.length * commandEvidenceEncodedSize := by
      rw [hbytes, length_archiveBytes]
    have hwidth := length_archiveHeader (UInt64.ofNat records.length) declaredHead
    have htake : bytes.take commandEvidenceArchiveHeaderSize =
        archiveHeader (UInt64.ofNat records.length) declaredHead := by
      rw [hbytes, archiveBytes, ← hwidth, List.take_left]
    have hdrop : bytes.drop commandEvidenceArchiveHeaderSize =
        records.flatMap encodeCommandEvidence := by
      rw [hbytes, archiveBytes, ← hwidth, List.drop_left]
    obtain ⟨c, hheader⟩ := (readArchiveHeader_iff (htake ▸ hwidth)).mpr htake
    obtain ⟨size, hsize, hnat⟩ := checkedArchiveSize_ok hcount
    have hrecords := (decodeRecords_iff hlen).mpr ⟨hdrop, rfl, hall⟩
    have hreadCount := toNat_recordCount hcount
    exact ⟨by omega, _, ⟨by omega, rfl⟩, ((_, declaredHead), c), hheader, size, hsize, by omega,
      by omega, (), hreadCount.symm ▸ hcount, records, hreadCount.symm ▸ hrecords,
      by simpa using hverify, not_not.mpr rfl, rfl⟩

/-! ## Exactness -/

/-- **The archive format is exact.**  Decoding returns an archive exactly when encoding
its records under the trusted head returns these bytes, its head is the trusted one and
its records are acceptable.  So decoding undoes encoding, and an archive has one spelling.
SRC: command_evidence_archive.cpp:233-441, command_evidence.cpp:349-648 -/
theorem archive_exact :
    (∀ (bytes : List UInt8) (head : Sha256Digest) (archive : CommandEvidenceArchive),
      decodeCommandEvidenceArchive bytes head = .ok archive ↔
        encodeCommandEvidenceArchive archive.records head = .ok bytes ∧
          archive.headDigest = head ∧ ∀ record ∈ archive.records, RecordOk record) ∧
    (∀ (records : List CommandEvidenceRecord) (head : Sha256Digest) (bytes : List UInt8),
      (∀ record ∈ records, RecordOk record) →
        encodeCommandEvidenceArchive records head = .ok bytes →
        decodeCommandEvidenceArchive bytes head = .ok { records, headDigest := head }) ∧
    (∀ (bytes bytes' : List UInt8) (head head' : Sha256Digest) (archive : CommandEvidenceArchive),
      decodeCommandEvidenceArchive bytes head = .ok archive →
        decodeCommandEvidenceArchive bytes' head' = .ok archive → bytes = bytes') := by
  refine ⟨fun bytes head archive => ?_, fun records head bytes hall hencode => ?_,
    fun bytes bytes' head head' archive h h' => ?_⟩
  · rw [decodeCommandEvidenceArchive_iff, encodeCommandEvidenceArchive_iff]
    tauto
  · obtain ⟨hverify, hcount, hbytes⟩ := encodeCommandEvidenceArchive_iff.mp hencode
    exact decodeCommandEvidenceArchive_iff.mpr ⟨rfl, hverify, hcount, hbytes, hall⟩
  · obtain ⟨rfl, -, -, hbytes, -⟩ := decodeCommandEvidenceArchive_iff.mp h
    obtain ⟨rfl, -, -, hbytes', -⟩ := decodeCommandEvidenceArchive_iff.mp h'
    rw [hbytes, hbytes']

/-! ## Binding -/

/-- **A trusted head binds the whole archive.**  Two byte strings that decode under one
head are the same bytes, or their archives exhibit a break of the hash: two different
record encodings, one from each, with one digest, or a record encoding whose digest is
the all-zero genesis digest.
SRC: command_evidence.cpp:349-450, 663-697, command_evidence_archive.cpp:306-441 -/
theorem trusted_head_binding {head : Sha256Digest} {bytes bytes' : List UInt8}
    {archive archive' : CommandEvidenceArchive}
    (h : decodeCommandEvidenceArchive bytes head = .ok archive)
    (h' : decodeCommandEvidenceArchive bytes' head = .ok archive') :
    bytes = bytes' ∨
      (∃ r ∈ archive.records, ∃ s ∈ archive'.records,
        encodeCommandEvidence r ≠ encodeCommandEvidence s ∧
          sha256 (encodeCommandEvidence r) = sha256 (encodeCommandEvidence s)) ∨
      ∃ r ∈ archive.records ++ archive'.records,
        sha256 (encodeCommandEvidence r) = ⟨Vector.replicate 32 0⟩ := by
  obtain ⟨-, hverify, -, hbytes, hall⟩ := decodeCommandEvidenceArchive_iff.mp h
  obtain ⟨-, hverify', -, hbytes', hall'⟩ := decodeCommandEvidenceArchive_iff.mp h'
  have hlinked := (verifyCommandEvidenceChain_iff.mp hverify).2
  have hlinked' := (verifyCommandEvidenceChain_iff.mp hverify').2
  have hinj : ∀ r ∈ archive.records, ∀ s ∈ archive'.records,
      evidenceChain.encode r = evidenceChain.encode s → r = s :=
    fun r hr s hs => encodeCommandEvidence_injective (hall r hr) (hall' s hs)
  rcases hlinked.binding hinj hlinked' with hsame | hbreak
  · exact Or.inl (by rw [hbytes, hbytes', hsame])
  · exact Or.inr hbreak

/-- The entity of the samples. -/
def sampleEntityId : EntityId := ⟨1, by decide⟩

/-- A refused submission of an envelope with sequence zero, as the first record of a log. -/
def sampleRecord : CommandEvidenceRecord where
  ordinal := 0
  previousRecordDigest := {}
  entry := {
    worldFingerprintBefore := ⟨0⟩
    observedTick := 0
    envelope := {
      clientId := ⟨1⟩, sessionId := ⟨1⟩, sequence := 0, targetTick := 1
      payload := { entityId := sampleEntityId, velocity := ⟨⟨0⟩, ⟨0⟩⟩ } }
    sessionSequenceBefore := 0
    sessionSequenceAfter := 0
    pendingCommandsBefore := 0
    pendingCommandsAfter := 0
    rejectionCode := .sequenceZero
    queueOutcome := .notAttempted }

/-- INTERNAL: the archive of that record under its own digest decodes. -/
theorem sample_decodes : decodeCommandEvidenceArchive
    (archiveBytes [sampleRecord] (digestCommandEvidence sampleRecord))
    (digestCommandEvidence sampleRecord) =
      .ok ⟨[sampleRecord], digestCommandEvidence sampleRecord⟩ := by
  have hok : RecordOk sampleRecord :=
    ⟨by decide, by decide, by decide, by rfl⟩
  have hverify : verifyCommandEvidenceChain [sampleRecord] (digestCommandEvidence sampleRecord) =
      true :=
    verifyCommandEvidenceChain_iff.mpr
      ⟨by decide, rfl, rfl, evidenceChain_digest sampleRecord⟩
  exact decodeCommandEvidenceArchive_iff.mpr
    ⟨rfl, hverify, by decide, rfl, fun r hr => List.mem_singleton.mp hr ▸ hok⟩

/-- The archive of that record under its own digest is bound. -/
theorem trusted_head_binding_sample :
    let head := digestCommandEvidence sampleRecord
    let bytes := archiveBytes [sampleRecord] head
    decodeCommandEvidenceArchive bytes head = .ok ⟨[sampleRecord], head⟩ ∧
      (bytes = bytes ∨
        (∃ r ∈ [sampleRecord], ∃ s ∈ [sampleRecord],
          encodeCommandEvidence r ≠ encodeCommandEvidence s ∧
            sha256 (encodeCommandEvidence r) = sha256 (encodeCommandEvidence s)) ∨
        ∃ r ∈ [sampleRecord] ++ [sampleRecord],
          sha256 (encodeCommandEvidence r) = ⟨Vector.replicate 32 0⟩) := by
  intro head bytes
  exact ⟨sample_decodes, trusted_head_binding sample_decodes sample_decodes⟩

end Tickline.Analysis
