import Tickline.Analysis.ArchiveCodec
import Tickline.Library.Checks

/-!
# Bounds of the archive decoder

Nothing that the archive decoder reads lies outside its input, whatever the bytes are.  The readers
check their bounds by assertions only, so this rests on the widths of the fields: those of a header
add up to 56 (`readArchiveHeader_within`) and those of a record to 160
(`readCommandEvidence_within`).  The count of records is compared with the size of the input before
anything is allocated or decoded for it (`checkedHeader`), and the record loop then cuts the rest of
the input into pieces of 160 bytes (`decodeRecords_pieces`).
-/

set_option autoImplicit false

namespace Tickline.Analysis

open Tickline.Library Tickline.Library.Checks Tickline.Model Tickline.Model.EvidenceReader

/-! ## The readers -/

section

variable {allowed : Fault → ℕ → Prop}

theorem readByte_within : ReadsWithin allowed readByte 1 := by
  intro c hroom
  have hlt : c.offset < c.input.length := hroom
  have hrun : readByte c = .ok (c.input[c.offset]) (c.skip 1) := by
    unfold readByte
    simp only [Member.bind_apply, Member.get_apply, List.getElem?_eq_getElem hlt,
      Member.set_apply, Member.pure_apply]
    rfl
  rw [hrun]

theorem readLoop_within {α : Type} (push : α → UInt8 → α) (count : ℕ) (value : α) :
    ReadsWithin allowed (readLoop push count value) count := by
  induction count generalizing value with
  | zero => exact ReadsWithin.pure value
  | succ count ih =>
    have hbind : ReadsWithin allowed (readLoop push (count + 1) value) (1 + count) :=
      readByte_within.bind fun byte => ih (push value byte)
    rwa [Nat.add_comm 1 count] at hbind

theorem readU16_within : ReadsWithin allowed readU16 2 := by
  rw [readU16_eq]
  exact readLoop_within _ 2 _

theorem readU32_within : ReadsWithin allowed readU32 4 := readLoop_within _ 4 _

theorem readU64_within : ReadsWithin allowed readU64 8 := readLoop_within _ 8 _

theorem readI64_within : ReadsWithin allowed readI64 8 :=
  readU64_within.bind fun _ => ReadsWithin.pure _

theorem readArray_within (size : ℕ) : ReadsWithin allowed (readArray size) size := by
  induction size generalizing allowed with
  | zero => exact ReadsWithin.pure _
  | succ size ih => exact ih.bind fun _ => readByte_within.bind (n := 0) fun _ => ReadsWithin.pure _

theorem readDigest_within : ReadsWithin allowed readDigest 32 :=
  (readArray_within 32).bind fun _ => ReadsWithin.pure _

/-- INTERNAL: a magic value is compared byte by byte, and refused at the first that differs. -/
theorem readMagic_within {fault : Fault} (hfault : ∀ left, allowed fault left)
    (magic : List UInt8) : ReadsWithin allowed (readMagic fault magic) magic.length := by
  induction magic with
  | nil => exact ReadsWithin.pure _
  | cons expected rest ih =>
    rw [List.length_cons, Nat.add_comm]
    exact readByte_within.bind fun byte => ReadsWithin.guard (hfault _) ih

end

/-- No read outside the span, and the record's last error is raised at its end: the entity is looked
at behind the assertion that the reader has come to the end of the record. -/
def StaysInside (fault : Fault) (left : ℕ) : Prop :=
  fault ≠ .undefinedBehaviour ∧
    ∀ what, fault = .commandEvidenceDecodeError .invalidEntityId what → left = 0

/-- INTERNAL: the faults of the checks of the header and of the record. -/
theorem staysInside_archiveError (code : CommandEvidenceArchiveErrorCode) (what : String)
    (left : ℕ) : StaysInside (.commandEvidenceArchiveError code what) left :=
  ⟨nofun, nofun⟩

theorem staysInside_decodeError {code : CommandEvidenceDecodeErrorCode}
    (hcode : code ≠ .invalidEntityId) (what : String) (left : ℕ) :
    StaysInside (.commandEvidenceDecodeError code what) left :=
  ⟨nofun, fun _ h => absurd (Fault.commandEvidenceDecodeError.inj h).1 hcode⟩

/-- **The fields of a header are 56 bytes.**
SRC: command_evidence_archive.cpp:318-377 -/
theorem readArchiveHeader_within :
    ReadsWithin StaysInside readArchiveHeader commandEvidenceArchiveHeaderSize := by
  unfold readArchiveHeader
  have hcheck : ∀ code what left,
      StaysInside (.commandEvidenceArchiveError code what) left := staysInside_archiveError
  refine ReadsWithin.bind (m := 4) (n := 52)
    (readMagic_within (fun left => ?_) archiveMagic) fun _ => ?_
  · exact hcheck _ _ _
  refine readU16_within.bind (n := 50) fun _ => ReadsWithin.guard (hcheck _ _ _) ?_
  refine readU16_within.bind (n := 48) fun _ => ReadsWithin.guard (hcheck _ _ _) ?_
  refine readU32_within.bind (n := 44) fun _ => ReadsWithin.guard (hcheck _ _ _) ?_
  refine readU32_within.bind (n := 40) fun _ => ReadsWithin.guard (hcheck _ _ _) ?_
  refine readU64_within.bind (n := 32) fun _ => ?_
  exact readDigest_within.bind (n := 0) fun _ => ReadsWithin.pure _

/-- **The fields of a record are 160 bytes.**
SRC: command_evidence.cpp:464-596 -/
theorem readCommandEvidence_within :
    ReadsWithin StaysInside readCommandEvidence commandEvidenceEncodedSize := by
  unfold readCommandEvidence
  have hcheck : ∀ code, code ≠ .invalidEntityId → ∀ what left,
      StaysInside (.commandEvidenceDecodeError code what) left := fun _ => staysInside_decodeError
  refine ReadsWithin.bind (m := 4) (n := 156)
    (readMagic_within (fun left => ?_) commandEvidenceMagic) fun _ => ?_
  · exact hcheck _ (by decide) _ _
  refine readU16_within.bind (n := 154) fun _ => ReadsWithin.guard (hcheck _ (by decide) _ _) ?_
  refine readU16_within.bind (n := 152) fun _ => ReadsWithin.guard (hcheck _ (by decide) _ _) ?_
  refine readU64_within.bind (n := 144) fun _ => ?_
  refine readDigest_within.bind (n := 112) fun _ => ?_
  refine readU64_within.bind (n := 104) fun _ => ?_
  refine readU64_within.bind (n := 96) fun _ => ?_
  refine readU16_within.bind (n := 94) fun _ => ?_
  refine readU16_within.bind (n := 92) fun _ => ?_
  refine readU64_within.bind (n := 84) fun _ => ?_
  refine readU64_within.bind (n := 76) fun _ => ?_
  refine readU64_within.bind (n := 68) fun _ => ?_
  refine readU64_within.bind (n := 60) fun _ => ?_
  refine readU64_within.bind (n := 52) fun _ => ?_
  refine readI64_within.bind (n := 44) fun _ => ?_
  refine readI64_within.bind (n := 36) fun _ => ?_
  refine readU64_within.bind (n := 28) fun _ => ?_
  refine readU64_within.bind (n := 20) fun _ => ?_
  refine readU64_within.bind (n := 12) fun _ => ?_
  refine readU64_within.bind (n := 4) fun _ => ?_
  refine readU16_within.bind (n := 2) fun _ => ReadsWithin.guard (hcheck _ (by decide) _ _) ?_
  refine readU16_within.bind (n := 0) fun _ => ReadsWithin.guard (hcheck _ (by decide) _ _) ?_
  -- Behind the last read: what is left of the record is nothing.
  split
  · exact ReadsWithin.throw ⟨nofun, fun _ _ => rfl⟩
  · exact ReadsWithin.pure _

/-- No read of a reader lies outside the bytes.  A reader that returns has come to their end, and so
has one that finds the entity invalid. -/
def ReadsInside {α : Type} (reader : Member EvidenceReader α) (bytes : List UInt8) : Prop :=
  match reader { input := bytes } with
  | .ok _ c => c.offset = bytes.length
  | .error fault c => fault ≠ .undefinedBehaviour ∧ c.offset ≤ bytes.length ∧
      ∀ what, fault = .commandEvidenceDecodeError .invalidEntityId what → c.offset = bytes.length

theorem readsInside_of_within {α : Type} {reader : Member EvidenceReader α} {width : ℕ}
    (h : ReadsWithin StaysInside reader width) {bytes : List UInt8} (hlen : bytes.length = width) :
    ReadsInside reader bytes := by
  have hrun := h { input := bytes } (by rw [Nat.zero_add, hlen])
  unfold ReadsInside
  cases hreader : reader { input := bytes } with
  | ok a c =>
    rw [hreader] at hrun
    obtain rfl : c = _ := hrun
    show 0 + width = bytes.length
    omega
  | error fault c =>
    rw [hreader] at hrun
    obtain ⟨used, left, hsum, rfl, hdefined, hend⟩ := hrun
    refine ⟨hdefined, ?_, fun what hwhat => ?_⟩
    · show 0 + used ≤ bytes.length
      omega
    · have hleft := hend what hwhat
      show 0 + used = bytes.length
      omega

/-- INTERNAL: a reader that stays inside does not leave by undefined behaviour. -/
theorem onCopy_defined {α : Type} {reader : Member EvidenceReader α} {bytes : List UInt8}
    (h : ReadsInside reader bytes) :
    Member.onCopy reader { input := bytes } ≠ .error .undefinedBehaviour := by
  unfold ReadsInside at h
  unfold Member.onCopy
  cases hreader : reader { input := bytes } with
  | ok a c => exact nofun
  | error fault c =>
    rw [hreader] at h
    exact fun heq => h.1 (Except.error.inj heq)

/-! ## The decoder -/

/-- INTERNAL: the checks of a record compare fields only. -/
theorem validateRecordInvariants_defined (record : CommandEvidenceRecord) :
    validateRecordInvariants record ≠ .error .undefinedBehaviour := by
  unfold validateRecordInvariants
  simp only [throw_bind]
  refine ite_error_ne_error nofun (ite_error_ne_error nofun ?_)
  split
  · exact ite_error_ne_error nofun (ite_error_ne_error nofun (ite_error_ne_error nofun nofun))
  · exact ite_error_ne_error nofun nofun

/-- **A record is decoded inside its bytes**, of whatever number they are. -/
theorem decodeCommandEvidence_defined (bytes : List UInt8) :
    decodeCommandEvidence bytes ≠ .error .undefinedBehaviour := by
  unfold decodeCommandEvidence
  simp only [throw_bind]
  split
  · exact nofun
  · rename_i hlen
    have hinside := readsInside_of_within readCommandEvidence_within (not_not.mp hlen)
    exact bind_ne_error (onCopy_defined hinside) fun _ =>
      bind_ne_error (validateRecordInvariants_defined _) nofun

/-- **The size of an archive is exact**, or its computation is refused.
SRC: command_evidence_archive.cpp:179-212 -/
theorem checkedArchiveSize_cases (recordCount : UInt64) :
    (∃ size, checkedArchiveSize recordCount = .ok size ∧
        size.toNat = 56 + 160 * recordCount.toNat) ∨
      2 ^ 64 ≤ 56 + 160 * recordCount.toNat ∧
        ∃ what, checkedArchiveSize recordCount =
          .error (.commandEvidenceArchiveError .recordCountOverflow what) := by
  have hvalue : representableRecordCount = 115292150460684697 := by decide
  by_cases hfew : recordCount.toNat ≤ representableRecordCount
  · left
    have hsize : (UInt64.ofNat (56 + 160 * recordCount.toNat)).toNat =
        56 + 160 * recordCount.toNat := by
      rw [UInt64.toNat_ofNat']
      exact Nat.mod_eq_of_lt (by omega)
    refine ⟨_, checkedArchiveSize_iff.mpr ⟨hfew, hsize.trans ?_⟩, hsize⟩
    rw [commandEvidenceArchiveHeaderSize, commandEvidenceEncodedSize, Nat.mul_comm]
  · right
    refine ⟨by omega, ?_⟩
    cases hrun : checkedArchiveSize recordCount with
    | ok size => exact absurd (checkedArchiveSize_iff.mp hrun).1 hfew
    | error fault =>
      unfold checkedArchiveSize at hrun
      simp only [throw_bind] at hrun
      split at hrun
      · exact ⟨_, hrun.symm⟩
      · cases hrun

/-- What the decoder does before it allocates: it reads the header, and compares the size that the
record count comes to with that of the input.
SRC: command_evidence_archive.cpp:306-400 -/
def checkedHeader (encoded : List UInt8) : Except Fault (UInt64 × Sha256Digest) := do
  if encoded.length < commandEvidenceArchiveHeaderSize then
    throw (.commandEvidenceArchiveError .truncatedHeader
      "command evidence archive header is truncated")
  let header ← subspan encoded 0 commandEvidenceArchiveHeaderSize
  let ((recordCount, declaredHead), _) ← Member.onCopy readArchiveHeader { input := header }
  let expectedSize ← checkedArchiveSize recordCount
  if encoded.length < expectedSize.toNat then
    throw (.commandEvidenceArchiveError .truncatedRecords
      "command evidence archive records are truncated")
  if expectedSize.toNat < encoded.length then
    throw (.commandEvidenceArchiveError .trailingData
      "command evidence archive contains trailing data")
  return (recordCount, declaredHead)

/-- What it does with the record count it has checked.
SRC: command_evidence_archive.cpp:402-441 -/
def decodeChecked (encoded : List UInt8) (trustedHead : Sha256Digest) (recordCount : UInt64)
    (declaredHead : Sha256Digest) : Except Fault CommandEvidenceArchive := do
  reserve commandEvidenceRecordSize recordCount.toNat
  let records ← decodeRecords encoded recordCount.toNat commandEvidenceArchiveHeaderSize
  if !verifyCommandEvidenceChain records declaredHead then
    throw (.commandEvidenceArchiveError .chainVerificationFailed
      "command evidence archive chain verification failed")
  if declaredHead ≠ trustedHead then
    throw (.commandEvidenceArchiveError .trustedHeadMismatch
      "command evidence archive does not match the trusted chain head")
  return { records, headDigest := declaredHead }

/-- **Nothing is allocated or decoded for a record count that was not checked.** -/
theorem decodeCommandEvidenceArchive_eq (encoded : List UInt8) (trustedHead : Sha256Digest) :
    decodeCommandEvidenceArchive encoded trustedHead =
      checkedHeader encoded >>= fun checked =>
        decodeChecked encoded trustedHead checked.1 checked.2 := by
  unfold decodeCommandEvidenceArchive checkedHeader decodeChecked
  simp only [throw_bind]
  split
  · rfl
  · rw [bind_assoc]
    congr 1
    funext header
    rw [bind_assoc]
    congr 1
    funext fields
    rw [bind_assoc]
    congr 1
    funext expectedSize
    split
    · rfl
    · split <;> rfl

/-- INTERNAL: what the checks of the header establish. -/
theorem checkedHeader_ok {encoded : List UInt8} {recordCount : UInt64} {declaredHead : Sha256Digest}
    (h : checkedHeader encoded = .ok (recordCount, declaredHead)) :
    encoded.length = 56 + 160 * recordCount.toNat := by
  unfold checkedHeader at h
  simp only [throw_bind, ite_error_eq_ok, bind_ok_iff, pure_eq_ok] at h
  obtain ⟨-, _, -, ⟨⟨count, declared⟩, _⟩, -, size, hsize, hfew, hmany, hreturn⟩ := h
  obtain rfl : count = recordCount := congrArg Prod.fst hreturn
  have hexact := (checkedArchiveSize_iff.mp hsize).2
  rw [commandEvidenceArchiveHeaderSize, commandEvidenceEncodedSize, Nat.mul_comm] at hexact
  dsimp only at hexact
  omega

theorem checkedHeader_defined (encoded : List UInt8) :
    checkedHeader encoded ≠ .error .undefinedBehaviour := by
  unfold checkedHeader
  simp only [throw_bind]
  by_cases hlong : encoded.length < commandEvidenceArchiveHeaderSize
  · rw [if_pos hlong]
    exact nofun
  · have hheader : subspan encoded 0 commandEvidenceArchiveHeaderSize =
        .ok (encoded.take commandEvidenceArchiveHeaderSize) :=
      subspan_iff.mpr ⟨by omega, by rw [List.drop_zero]⟩
    have hwidth : (encoded.take commandEvidenceArchiveHeaderSize).length =
        commandEvidenceArchiveHeaderSize := by
      rw [List.length_take]
      omega
    have hinside := readsInside_of_within readArchiveHeader_within hwidth
    rw [if_neg hlong, hheader]
    change (Member.onCopy readArchiveHeader
      { input := encoded.take commandEvidenceArchiveHeaderSize } >>= _) ≠ _
    refine bind_ne_error (onCopy_defined hinside) fun fields => bind_ne_error ?_ fun size => ?_
    · rcases checkedArchiveSize_cases fields.1.1 with ⟨size, hsize, -⟩ | ⟨-, what, hsize⟩ <;>
        rw [hsize] <;> intro heq <;> cases heq
    · exact ite_error_ne_error nofun (ite_error_ne_error nofun nofun)

/-- **The record loop consumes the rest of the input exactly**: it decodes the pieces of 160 bytes
that the rest is cut into, one after the other.
SRC: command_evidence_archive.cpp:406-421 -/
theorem decodeRecords_pieces (encoded : List UInt8) (count offset : ℕ)
    (hlen : encoded.length = offset + 160 * count) :
    ∃ pieces : List (List UInt8), pieces.length = count ∧
      (∀ piece ∈ pieces, piece.length = commandEvidenceEncodedSize) ∧
      encoded.drop offset = pieces.flatten ∧
      decodeRecords encoded count offset = pieces.mapM decodeCommandEvidence := by
  induction count generalizing offset with
  | zero =>
    have hdrop : encoded.drop offset = [] := List.drop_eq_nil_of_le (by omega)
    exact ⟨[], rfl, by simp, by rw [hdrop, List.flatten_nil], rfl⟩
  | succ count ih =>
    have hroom : offset + commandEvidenceEncodedSize ≤ encoded.length := by
      rw [commandEvidenceEncodedSize]
      omega
    have hrest : encoded.length = offset + commandEvidenceEncodedSize + 160 * count := by
      rw [commandEvidenceEncodedSize]
      omega
    obtain ⟨pieces, hcount, hwidths, hdrop, hrun⟩ := ih _ hrest
    have hwidth : ((encoded.drop offset).take commandEvidenceEncodedSize).length =
        commandEvidenceEncodedSize := by
      rw [List.length_take, List.length_drop]
      omega
    refine ⟨(encoded.drop offset).take commandEvidenceEncodedSize :: pieces,
      by rw [List.length_cons, hcount], List.forall_mem_cons.mpr ⟨hwidth, hwidths⟩, ?_, ?_⟩
    · rw [List.flatten_cons, ← hdrop, ← List.drop_drop, List.take_append_drop]
    · rw [decodeRecords, subspan_iff.mpr ⟨hroom, rfl⟩, hrun, List.mapM_cons]
      rfl

theorem decodeChecked_defined {encoded : List UInt8} {recordCount : UInt64}
    (hlen : encoded.length = 56 + 160 * recordCount.toNat)
    (trustedHead declaredHead : Sha256Digest) :
    decodeChecked encoded trustedHead recordCount declaredHead ≠ .error .undefinedBehaviour := by
  obtain ⟨pieces, -, -, -, hrun⟩ := decodeRecords_pieces encoded recordCount.toNat
    commandEvidenceArchiveHeaderSize hlen
  unfold decodeChecked
  simp only [throw_bind]
  refine bind_ne_error ?_ fun _ => bind_ne_error ?_ fun records => ?_
  · unfold reserve
    split <;> exact nofun
  · rw [hrun]
    exact mapM_ne_error fun piece _ => decodeCommandEvidence_defined piece
  · exact ite_error_ne_error nofun (ite_error_ne_error nofun nofun)

/-- What a checked record count says about an input: it is the number of records that the input has
behind its header, and the loop decodes each of them inside its own 160 bytes. -/
structure CountedInput (encoded : List UInt8) (recordCount : UInt64) : Prop where
  atMost : recordCount.toNat ≤ encoded.length / 160
  records : ∃ (header : List UInt8) (pieces : List (List UInt8)), encoded = header ++ pieces.flatten ∧
    header.length = commandEvidenceArchiveHeaderSize ∧ ReadsInside readArchiveHeader header ∧
    pieces.length = recordCount.toNat ∧
    (∀ piece ∈ pieces, piece.length = commandEvidenceEncodedSize ∧
      ReadsInside readCommandEvidence piece) ∧
    decodeRecords encoded recordCount.toNat commandEvidenceArchiveHeaderSize =
      pieces.mapM decodeCommandEvidence

theorem countedInput_of_checked {encoded : List UInt8} {recordCount : UInt64}
    {declaredHead : Sha256Digest} (h : checkedHeader encoded = .ok (recordCount, declaredHead)) :
    CountedInput encoded recordCount := by
  have hlen := checkedHeader_ok h
  obtain ⟨pieces, hcount, hwidths, hdrop, hrun⟩ := decodeRecords_pieces encoded recordCount.toNat
    commandEvidenceArchiveHeaderSize hlen
  have hheader : (encoded.take commandEvidenceArchiveHeaderSize).length =
      commandEvidenceArchiveHeaderSize := by
    rw [List.length_take, commandEvidenceArchiveHeaderSize]
    omega
  refine ⟨by omega, encoded.take commandEvidenceArchiveHeaderSize, pieces, ?_, hheader,
    readsInside_of_within readArchiveHeader_within hheader, hcount, fun piece hpiece => ?_, hrun⟩
  · rw [← hdrop, List.take_append_drop]
  · exact ⟨hwidths piece hpiece,
      readsInside_of_within readCommandEvidence_within (hwidths piece hpiece)⟩

/-- **Archives are decoded in bounds**, for every input and every trusted head: the size of an
archive is computed exactly or refused, no read and no subspan leaves the input, and the records are
allocated and decoded for a count that the size of the input confirms.
SRC: command_evidence_archive.cpp:179-212, 306-441, command_evidence.cpp:96-170, 452-648 -/
theorem archive_decoding_in_bounds :
    (∀ recordCount,
      (∃ size, checkedArchiveSize recordCount = .ok size ∧
        size.toNat = 56 + 160 * recordCount.toNat) ∨
      2 ^ 64 ≤ 56 + 160 * recordCount.toNat ∧ ∃ what, checkedArchiveSize recordCount =
        .error (.commandEvidenceArchiveError .recordCountOverflow what)) ∧
    ∀ encoded trustedHead,
      decodeCommandEvidenceArchive encoded trustedHead ≠ .error .undefinedBehaviour ∧
      (commandEvidenceArchiveHeaderSize ≤ encoded.length →
        ReadsInside readArchiveHeader (encoded.take commandEvidenceArchiveHeaderSize)) ∧
      (decodeCommandEvidenceArchive encoded trustedHead =
        checkedHeader encoded >>= fun checked =>
          decodeChecked encoded trustedHead checked.1 checked.2) ∧
      ∀ recordCount declaredHead, checkedHeader encoded = .ok (recordCount, declaredHead) →
        CountedInput encoded recordCount := by
  refine ⟨checkedArchiveSize_cases, fun encoded trustedHead => ⟨?_, fun hlong => ?_,
    decodeCommandEvidenceArchive_eq encoded trustedHead, fun _ _ => countedInput_of_checked⟩⟩
  · rw [decodeCommandEvidenceArchive_eq]
    cases hchecked : checkedHeader encoded with
    | error fault =>
      intro heq
      obtain rfl : fault = .undefinedBehaviour := Except.error.inj heq
      exact checkedHeader_defined encoded hchecked
    | ok checked => exact decodeChecked_defined (checkedHeader_ok hchecked) _ _
  · exact readsInside_of_within readArchiveHeader_within (by rw [List.length_take]; omega)

/-- INTERNAL: a header that declares no records is checked when it is all of the input. -/
theorem checkedHeader_bare (declaredHead : Sha256Digest) :
    checkedHeader (archiveHeader 0 declaredHead) = .ok (0, declaredHead) := by
  have hlen := length_archiveHeader 0 declaredHead
  obtain ⟨c, hread⟩ := (readArchiveHeader_iff hlen).mpr rfl
  have hsize : checkedArchiveSize 0 = .ok 56 := by decide
  have hspan : subspan (archiveHeader 0 declaredHead) 0 commandEvidenceArchiveHeaderSize =
      .ok (archiveHeader 0 declaredHead) :=
    subspan_iff.mpr ⟨by omega, by rw [List.drop_zero, ← hlen, List.take_length]⟩
  generalize archiveHeader 0 declaredHead = header at *
  simp only [commandEvidenceArchiveHeaderSize] at hlen hspan
  simp [checkedHeader, commandEvidenceArchiveHeaderSize, hlen, hspan, hread, hsize, bind,
    Except.bind, pure, Except.pure]

/-- The archive without records: its header is its input, and it counts none. -/
theorem archive_decoding_in_bounds_empty :
    ReadsInside readArchiveHeader
        ((archiveHeader 0 genesisDigest).take commandEvidenceArchiveHeaderSize) ∧
      CountedInput (archiveHeader 0 genesisDigest) 0 := by
  have hinput := archive_decoding_in_bounds.2 (archiveHeader 0 genesisDigest) genesisDigest
  have hlen := length_archiveHeader 0 genesisDigest
  have hchecked := checkedHeader_bare genesisDigest
  generalize archiveHeader 0 genesisDigest = header at *
  exact ⟨hinput.2.1 hlen.ge, hinput.2.2.2 0 genesisDigest hchecked⟩

end Tickline.Analysis
