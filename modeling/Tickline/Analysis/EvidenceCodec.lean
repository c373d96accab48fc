import Tickline.Analysis.FieldCodec

/-!
# The record codec

The decoder of evidence records accepts exactly the encodings of the records that satisfy
`RecordOk` (`decodeCommandEvidence_iff`): the encoding has no second spelling, and what
the decoder demands beyond the layout is the known codes, the entity and the record
invariants.  Both directions read the 22 fields once, `readCommandEvidence_takes` with
the rules of `Takes` and `readCommandEvidence_sound` with those of `Reads`.
-/

set_option autoImplicit false

namespace Tickline.Analysis

open Tickline.Library Tickline.Model Tickline.Model.EvidenceReader

/-- What the decoder demands of a record beyond its layout.
SRC: command_evidence.cpp:464-648 -/
structure RecordOk (record : CommandEvidenceRecord) : Prop where
  knownRejection : isKnownRejectionCode record.entry.rejectionCode = true
  knownOutcome : isKnownQueueOutcome record.entry.queueOutcome = true
  entity : record.entry.envelope.payload.entityId.value ≠ 0
  invariants : validateRecordInvariants record = .ok ()

@[simp] theorem length_encodeCommandEvidence (record : CommandEvidenceRecord) :
    (encodeCommandEvidence record).length = commandEvidenceEncodedSize := by
  unfold encodeCommandEvidence
  simp only [List.length_append, length_appendU16, length_appendU64, length_appendI64,
    length_appendDigest]
  rfl

/-- A check of the reader that does not fire. -/
theorem takes_guard {α : Type} {c : Prop} [Decidable c] {x y : Member EvidenceReader α}
    {bytes : List UInt8} {a : α} (hc : ¬ c) (hy : Takes y bytes a) :
    Takes (if c then x else y) bytes a := by
  rwa [if_neg hc]

/-- In a member that returned, no check has fired. -/
theorem guard_ok {σ α : Type} {c : Prop} [Decidable c] {fault : Fault}
    {f : PUnit → Member σ α} {y : Member σ α} {s s' : σ} {a : α}
    (h : (if c then throw fault >>= f else y) s = .ok a s') : ¬ c ∧ y s = .ok a s' := by
  by_cases hc : c
  · rw [if_pos hc, Member.bind_apply, Member.throw_apply] at h
    cases h
  · rw [if_neg hc] at h
    exact ⟨hc, h⟩

/-- INTERNAL: an entity identifier has the value it was made from. -/
theorem make_value {value : UInt64} {id : EntityId} (h : EntityId.make value = .ok id) :
    id.value = value := by
  unfold EntityId.make at h
  split_ifs at h
  cases h
  rfl

/-- Reading takes the encoding of an acceptable record. -/
theorem readCommandEvidence_takes {record : CommandEvidenceRecord} (h : RecordOk record) :
    Takes readCommandEvidence (encodeCommandEvidence record) record := by
  rw [← List.append_nil (encodeCommandEvidence record)]
  unfold encodeCommandEvidence
  simp only [List.append_assoc]
  unfold readCommandEvidence
  apply (readMagic_takes _ _).bind
  refine (readU16_reads.takes _).bind (takes_guard (not_not.mpr rfl) ?_)
  refine (readU16_reads.takes _).bind (takes_guard (not_not.mpr rfl) ?_)
  apply (readU64_reads.takes _).bind
  apply (readDigest_reads.takes _).bind
  apply (readU64_reads.takes _).bind
  apply (readU64_reads.takes _).bind
  apply (readU16_reads.takes _).bind
  apply (readU16_reads.takes _).bind
  apply (readU64_reads.takes _).bind
  apply (readU64_reads.takes _).bind
  apply (readU64_reads.takes _).bind
  apply (readU64_reads.takes _).bind
  apply (readU64_reads.takes _).bind
  apply (readI64_reads.takes _).bind
  apply (readI64_reads.takes _).bind
  apply (readU64_reads.takes _).bind
  apply (readU64_reads.takes _).bind
  apply (readU64_reads.takes _).bind
  apply (readU64_reads.takes _).bind
  refine (readU16_reads.takes _).bind (takes_guard (by simpa using h.knownRejection) ?_)
  refine (readU16_reads.takes _).bind (takes_guard (by simpa using h.knownOutcome) ?_)
  rw [EntityId.make, dif_neg h.entity]
  exact Takes.pure _

/-- Whatever reading returns, it read the encoding of. -/
theorem readCommandEvidence_sound {record : CommandEvidenceRecord} {c c' : ByteCursor}
    (h : readCommandEvidence c = .ok record c') :
    c.rest = encodeCommandEvidence record ++ c'.rest ∧
      isKnownRejectionCode record.entry.rejectionCode = true ∧
      isKnownQueueOutcome record.entry.queueOutcome = true := by
  unfold readCommandEvidence at h
  obtain ⟨_, c0, e0, h⟩ := bind_eq_ok h
  replace e0 := readMagic_sound e0
  obtain ⟨schema, c1, e1, h⟩ := readU16_reads.bind_ok h
  obtain ⟨hschema, h⟩ := guard_ok h
  obtain ⟨reserved, c2, e2, h⟩ := readU16_reads.bind_ok h
  obtain ⟨hreserved, h⟩ := guard_ok h
  obtain ⟨ordinal, c3, e3, h⟩ := readU64_reads.bind_ok h
  obtain ⟨previous, c4, e4, h⟩ := readDigest_reads.bind_ok h
  obtain ⟨fingerprint, c5, e5, h⟩ := readU64_reads.bind_ok h
  obtain ⟨observedTick, c6, e6, h⟩ := readU64_reads.bind_ok h
  obtain ⟨envelopeSchema, c7, e7, h⟩ := readU16_reads.bind_ok h
  obtain ⟨commandType, c8, e8, h⟩ := readU16_reads.bind_ok h
  obtain ⟨clientId, c9, e9, h⟩ := readU64_reads.bind_ok h
  obtain ⟨sessionId, c10, e10, h⟩ := readU64_reads.bind_ok h
  obtain ⟨sequence, c11, e11, h⟩ := readU64_reads.bind_ok h
  obtain ⟨targetTick, c12, e12, h⟩ := readU64_reads.bind_ok h
  obtain ⟨entityIdValue, c13, e13, h⟩ := readU64_reads.bind_ok h
  obtain ⟨velocityX, c14, e14, h⟩ := readI64_reads.bind_ok h
  obtain ⟨velocityY, c15, e15, h⟩ := readI64_reads.bind_ok h
  obtain ⟨sessionBefore, c16, e16, h⟩ := readU64_reads.bind_ok h
  obtain ⟨sessionAfter, c17, e17, h⟩ := readU64_reads.bind_ok h
  obtain ⟨pendingBefore, c18, e18, h⟩ := readU64_reads.bind_ok h
  obtain ⟨pendingAfter, c19, e19, h⟩ := readU64_reads.bind_ok h
  obtain ⟨rejection, c20, e20, h⟩ := readU16_reads.bind_ok h
  obtain ⟨hrejection, h⟩ := guard_ok h
  obtain ⟨outcome, c21, e21, h⟩ := readU16_reads.bind_ok h
  obtain ⟨houtcome, h⟩ := guard_ok h
  cases hmake : EntityId.make entityIdValue with
  | error fault =>
    rw [hmake] at h
    cases h
  | ok entityId =>
    rw [hmake] at h
    have hvalue : entityId.value = entityIdValue := make_value hmake
    cases h
    obtain rfl : schema = commandEvidenceSchemaVersion := not_not.mp hschema
    obtain rfl : reserved = 0 := not_not.mp hreserved
    refine ⟨?_, by simpa using hrejection, by simpa using houtcome⟩
    unfold encodeCommandEvidence
    simp only [e0, e1, e2, e3, e4, e5, e6, e7, e8, e9, e10, e11, e12, e13, e14, e15, e16, e17, e18,
      e19, e20, e21, hvalue, List.append_assoc]

/-- **The record codec is exact.**
SRC: command_evidence.cpp:349-450, 452-648 -/
theorem decodeCommandEvidence_iff {bytes : List UInt8} {record : CommandEvidenceRecord} :
    decodeCommandEvidence bytes = .ok record ↔
      bytes = encodeCommandEvidence record ∧ RecordOk record := by
  unfold decodeCommandEvidence
  simp only [except_guard_iff, except_bind_iff]
  constructor
  · rintro ⟨hlen, ⟨decoded, c⟩, hread, _, hvalid, hreturn⟩
    obtain rfl : decoded = record := Except.ok.inj hreturn
    obtain ⟨hrest, hrejection, houtcome⟩ := readCommandEvidence_sound (Member.onCopy_iff.mp hread)
    have hbytes := ByteCursor.eq_of_rest_start hrest
      ((not_not.mp hlen).trans (length_encodeCommandEvidence decoded).symm)
    exact ⟨hbytes, hrejection, houtcome, decoded.entry.envelope.payload.entityId.nonzero, hvalid⟩
  · rintro ⟨hbytes, hok⟩
    obtain ⟨c, hread⟩ := (readCommandEvidence_takes hok).whole
    rw [hbytes]
    exact ⟨not_not.mpr (length_encodeCommandEvidence record), (record, c),
      Member.onCopy_iff.mpr hread, (), hok.invariants, rfl⟩

/-- Records that the decoder accepts have different encodings. -/
theorem encodeCommandEvidence_injective {r s : CommandEvidenceRecord} (hr : RecordOk r)
    (hs : RecordOk s) (h : encodeCommandEvidence r = encodeCommandEvidence s) : r = s := by
  have hdr := decodeCommandEvidence_iff.mpr ⟨rfl, hr⟩
  have hds := decodeCommandEvidence_iff.mpr ⟨h, hs⟩
  exact Except.ok.inj (hdr.symm.trans hds)

end Tickline.Analysis
