import Tickline.Analysis.FrameCodec
import Tickline.Analysis.Submission
import Tickline.Model.CommandGateway

/-!
# The command wire format and the gateway

The encoder's writes fill the array from the front without a gap, so a frame is its header
and `payloadBytes` (`encodeCommandFrame_eq`).  The decoder accepts a payload exactly when it
is `payloadBytes` of the envelope it returns (`decodeCommandEnvelope_iff`); with
`parseFrame_ok_iff` this makes the wire format canonical, and the gateway a filter in front
of its pipeline (`command_wire_format`).
-/

set_option autoImplicit false

namespace Tickline.Analysis

open Tickline.Library Tickline.Model

/-! ## Writers -/

/-- INTERNAL: overwriting a slot of an array. -/
theorem write_slot (front new : List UInt8) :
    ∀ {old back : List UInt8}, new.length = old.length →
      Span.write (front ++ (old ++ back)) front.length new = front ++ (new ++ back) := by
  induction new generalizing front with
  | nil =>
    intro old back hlen
    obtain rfl := List.length_eq_zero_iff.mp hlen.symm
    rfl
  | cons byte new ih =>
    intro old back hlen
    cases old with
    | nil => cases hlen
    | cons b old =>
      have hrest := @ih (front ++ [byte]) old back (Nat.succ.inj hlen)
      rw [List.length_append, List.length_singleton, List.append_assoc, List.append_assoc,
        List.singleton_append, List.singleton_append] at hrest
      rw [Span.write, List.cons_append, List.set_append_right _ _ (Nat.le_refl _), Nat.sub_self,
        List.set_cons_zero]
      exact hrest

/-- INTERNAL: writing at the end of what is filled of a zeroed array. -/
theorem write_zeros {done word : List UInt8} {offset n : ℕ} (hoffset : done.length = offset)
    (hfits : word.length ≤ n) :
    Span.write (done ++ List.replicate n 0) offset word =
      (done ++ word) ++ List.replicate (n - word.length) 0 := by
  have hzeros : List.replicate n (0 : UInt8) =
      List.replicate word.length 0 ++ List.replicate (n - word.length) 0 := by
    rw [← List.replicate_add]
    congr 1
    omega
  rw [hzeros, ← hoffset, write_slot done word (by rw [List.length_replicate]), List.append_assoc]

/-- INTERNAL: the low byte of a shifted word. -/
theorem toUInt8_shift (value : UInt64) (k : ℕ) (hk : k < 8) :
    (value >>> UInt64.ofNat (8 * k)).toUInt8 = UInt8.ofNat (value.toNat / 256 ^ k) := by
  apply UInt8.toNat_inj.mp
  have hshift : (UInt64.ofNat (8 * k)).toNat = 8 * k := by
    rw [UInt64.toNat_ofNat']
    exact Nat.mod_eq_of_lt (by omega)
  rw [UInt64.toNat_toUInt8, UInt64.toNat_shiftRight, hshift, UInt8.toNat_ofNat',
    Nat.mod_eq_of_lt (show 8 * k < 64 by omega), Nat.shiftRight_eq_div_pow, Nat.pow_mul]

/-- INTERNAL: the bytes that `writeU64` writes. -/
theorem writtenU64 (value : UInt64) :
    (List.range 8).map (fun index => (value >>> UInt64.ofNat ((7 - index) * 8)).toUInt8) =
      appendU64 value := by
  rw [appendU64_eq]
  simp only [List.range, List.range.loop, List.map_cons, List.map_nil, BigEndian.encode]
  rw [← toUInt8_shift value 7 (by omega), ← toUInt8_shift value 6 (by omega),
    ← toUInt8_shift value 5 (by omega), ← toUInt8_shift value 4 (by omega),
    ← toUInt8_shift value 3 (by omega), ← toUInt8_shift value 2 (by omega),
    ← toUInt8_shift value 1 (by omega), ← toUInt8_shift value 0 (by omega)]

/-- INTERNAL: the bytes that `writeU32` writes. -/
theorem writtenU32 (value : UInt32) :
    [(value >>> 24).toUInt8, (value >>> 16).toUInt8, (value >>> 8).toUInt8, value.toUInt8] =
      appendU32 value := by
  rw [appendU32_eq]
  simp only [BigEndian.encode, List.cons.injEq, and_true]
  refine ⟨?_, ?_, ?_, ?_⟩ <;> apply UInt8.toNat_inj.mp <;>
    simp [Nat.shiftRight_eq_div_pow]

/-- INTERNAL: the bytes that `writeU16` writes. -/
theorem writtenU16 (value : UInt16) :
    [(value >>> 8).toUInt8, value.toUInt8] = appendU16 value := by
  rw [appendU16_eq]
  simp only [BigEndian.encode, List.cons.injEq, and_true]
  refine ⟨?_, ?_⟩ <;> apply UInt8.toNat_inj.mp <;> simp [Nat.shiftRight_eq_div_pow]

/-- INTERNAL: a two-byte field at the end of what is filled. -/
theorem writeU16_zeros {done : List UInt8} {offset n : ℕ} (value : UInt16)
    (hoffset : done.length = offset) (hfits : 2 ≤ n) :
    Span.writeU16 (done ++ List.replicate n 0) offset value =
      (done ++ appendU16 value) ++ List.replicate (n - 2) 0 := by
  rw [Span.writeU16, writtenU16, write_zeros hoffset (by simpa using hfits), length_appendU16]

theorem writeU32_zeros {done : List UInt8} {offset n : ℕ} (value : UInt32)
    (hoffset : done.length = offset) (hfits : 4 ≤ n) :
    Span.writeU32 (done ++ List.replicate n 0) offset value =
      (done ++ appendU32 value) ++ List.replicate (n - 4) 0 := by
  rw [Span.writeU32, writtenU32, write_zeros hoffset (by simpa using hfits), length_appendU32]

theorem writeU64_zeros {done : List UInt8} {offset n : ℕ} (value : UInt64)
    (hoffset : done.length = offset) (hfits : 8 ≤ n) :
    Span.writeU64 (done ++ List.replicate n 0) offset value =
      (done ++ appendU64 value) ++ List.replicate (n - 8) 0 := by
  rw [Span.writeU64, writtenU64, write_zeros hoffset (by simpa using hfits), length_appendU64]

/-! ## Encodings -/

/-- The payload of a command frame. -/
def payloadBytes (envelope : CommandEnvelope) : List UInt8 :=
  appendU16 envelope.schemaVersion ++
    (appendU16 envelope.type.value ++
    (appendU64 envelope.clientId.value ++
    (appendU64 envelope.sessionId.value ++
    (appendU64 envelope.sequence ++
    (appendU64 envelope.targetTick ++
    (appendU64 envelope.payload.entityId.value ++
    (appendU64 envelope.payload.velocity.x.count.toUInt64 ++
    appendU64 envelope.payload.velocity.y.count.toUInt64)))))))

@[simp] theorem length_payloadBytes (envelope : CommandEnvelope) :
    (payloadBytes envelope).length = commandEnvelopePayloadSize := by
  simp [payloadBytes, commandEnvelopePayloadSize]

/-- INTERNAL: the payload writes fill the rest of an array.
SRC: command_envelope_codec.cpp:78-106 -/
theorem encodePayload_eq (envelope : CommandEnvelope) {done : List UInt8} {base : ℕ}
    (hbase : done.length = base) :
    encodePayload envelope base (done ++ List.replicate 60 0) = done ++ payloadBytes envelope := by
  unfold encodePayload
  simp only [Nat.add_zero]
  rw [writeU16_zeros _ hbase (by omega), writeU16_zeros _ (by simp [hbase]) (by omega),
    writeU64_zeros _ (by simp [hbase]) (by omega), writeU64_zeros _ (by simp [hbase]) (by omega),
    writeU64_zeros _ (by simp [hbase]) (by omega), writeU64_zeros _ (by simp [hbase]) (by omega),
    writeU64_zeros _ (by simp [hbase]) (by omega), writeU64_zeros _ (by simp [hbase]) (by omega),
    writeU64_zeros _ (by simp [hbase]) (by omega)]
  simp only [show 60 - 2 - 2 - 8 - 8 - 8 - 8 - 8 - 8 - 8 = 0 from rfl, List.replicate_zero,
    List.append_nil, List.append_assoc, payloadBytes]

/-- **A command frame is a header and a payload.**
SRC: command_envelope_codec.cpp:118-150 -/
theorem encodeCommandFrame_eq (envelope : CommandEnvelope) :
    encodeCommandFrame envelope = frameHeaderBytes 76 ++ payloadBytes envelope := by
  have hmagic : Span.write (List.replicate commandFrameSize 0) 0 frameMagic =
      frameMagic ++ List.replicate 72 0 := rfl
  unfold encodeCommandFrame
  simp only [hmagic]
  rw [writeU16_zeros _ (show frameMagic.length = 4 from rfl) (by omega),
    writeU16_zeros _ (by simp [frameMagic]) (by omega),
    writeU32_zeros _ (by simp [frameMagic]) (by omega),
    writeU16_zeros _ (by simp [frameMagic]) (by omega),
    writeU16_zeros _ (by simp [frameMagic]) (by omega),
    encodePayload_eq _ (by simp [frameMagic, frameHeaderSize])]
  simp only [frameHeaderBytes, List.append_assoc]
  rfl

/-- Every command frame has 76 bytes. -/
theorem length_encodeCommandFrame (envelope : CommandEnvelope) :
    (encodeCommandFrame envelope).length = commandFrameSize := by
  rw [encodeCommandFrame_eq, List.length_append, length_frameHeaderBytes, length_payloadBytes]
  rfl

/-! ## Decodings -/

/-- INTERNAL: a payload of the right size has its nine fields. -/
theorem exists_payload_fields {payload : List UInt8}
    (hlen : payload.length = commandEnvelopePayloadSize) :
    ∃ schema type client session sequence target entity x y,
      payload = appendU16 schema ++ (appendU16 type ++ (appendU64 client ++
        (appendU64 session ++ (appendU64 sequence ++ (appendU64 target ++ (appendU64 entity ++
        (appendU64 x ++ appendU64 y))))))) := by
  unfold commandEnvelopePayloadSize at hlen
  obtain ⟨schema, -, e0⟩ := readU16_slot (show 0 + 2 ≤ payload.length by omega)
  obtain ⟨type, -, e2⟩ := readU16_slot (show 2 + 2 ≤ payload.length by omega)
  obtain ⟨client, -, e4⟩ := readU64_slot (show 4 + 8 ≤ payload.length by omega)
  obtain ⟨session, -, e12⟩ := readU64_slot (show 12 + 8 ≤ payload.length by omega)
  obtain ⟨sequence, -, e20⟩ := readU64_slot (show 20 + 8 ≤ payload.length by omega)
  obtain ⟨target, -, e28⟩ := readU64_slot (show 28 + 8 ≤ payload.length by omega)
  obtain ⟨entity, -, e36⟩ := readU64_slot (show 36 + 8 ≤ payload.length by omega)
  obtain ⟨x, -, e44⟩ := readU64_slot (show 44 + 8 ≤ payload.length by omega)
  obtain ⟨y, -, e52⟩ := readU64_slot (show 52 + 8 ≤ payload.length by omega)
  have hend : payload.drop (52 + 8) = [] := List.drop_eq_nil_of_le (by omega)
  rw [hend, List.append_nil] at e52
  refine ⟨schema, type, client, session, sequence, target, entity, x, y, ?_⟩
  rw [← e52, ← e44, ← e36, ← e28, ← e20, ← e12, ← e4, ← e2, ← e0, List.drop_zero]

/-- INTERNAL: what the decoder makes of the nine fields.
SRC: command_envelope_codec.cpp:152-186 -/
theorem decodeCommandEnvelope_fields {payload : List UInt8} {schema type : UInt16}
    {client session sequence target entity x y : UInt64}
    (hpayload : payload = appendU16 schema ++ (appendU16 type ++ (appendU64 client ++
      (appendU64 session ++ (appendU64 sequence ++ (appendU64 target ++ (appendU64 entity ++
      (appendU64 x ++ appendU64 y)))))))) :
    decodeCommandEnvelope payload =
      if hentity : entity = 0 then .ok (.error .invalidEntityId)
      else .ok (.ok ⟨schema, ⟨type⟩, ⟨client⟩, ⟨session⟩, sequence, target,
        ⟨⟨entity, hentity⟩, ⟨⟨x.toInt64⟩, ⟨y.toInt64⟩⟩⟩⟩) := by
  have e0 : payload.drop 0 = appendU16 schema ++ _ := hpayload
  have e2 := drop_of_append e0 (length_appendU16 _)
  have e4 := drop_of_append e2 (length_appendU16 _)
  have e12 := drop_of_append e4 (length_appendU64 _)
  have e20 := drop_of_append e12 (length_appendU64 _)
  have e28 := drop_of_append e20 (length_appendU64 _)
  have e36 := drop_of_append e28 (length_appendU64 _)
  have e44 := drop_of_append e36 (length_appendU64 _)
  have e52 := drop_of_append e44 (length_appendU64 _)
  rw [← List.append_nil (appendU64 y)] at e52
  have hlen : payload.length = commandEnvelopePayloadSize := by
    rw [hpayload]
    simp [commandEnvelopePayloadSize]
  simp only [decodeCommandEnvelope, hlen, ne_eq, not_true_eq_false, if_false, readU16_eq_ok e0,
    readU16_eq_ok e2, readU64_eq_ok e4, readU64_eq_ok e12, readU64_eq_ok e20, readU64_eq_ok e28,
    readU64_eq_ok e36, readU64_eq_ok e44, readU64_eq_ok e52, bind, Except.bind, pure,
    Except.pure, EntityId.make]
  by_cases hentity : entity = 0
  · rw [if_pos hentity, dif_pos hentity]
  · rw [if_neg hentity, dif_neg hentity, dif_neg hentity]

/-- **The payloads that are accepted**: one spelling for each envelope.
SRC: command_envelope_codec.cpp:152-186 -/
theorem decodeCommandEnvelope_iff {payload : List UInt8} {envelope : CommandEnvelope} :
    decodeCommandEnvelope payload = .ok (.ok envelope) ↔ payload = payloadBytes envelope := by
  constructor
  · intro hdecode
    by_cases hlen : payload.length = commandEnvelopePayloadSize
    · obtain ⟨schema, type, client, session, sequence, target, entity, x, y, hpayload⟩ :=
        exists_payload_fields hlen
      rw [decodeCommandEnvelope_fields hpayload] at hdecode
      by_cases hentity : entity = 0
      · rw [dif_pos hentity] at hdecode
        cases hdecode
      · rw [dif_neg hentity] at hdecode
        cases hdecode
        exact hpayload
    · rw [decodeCommandEnvelope, if_pos hlen] at hdecode
      cases hdecode
  · intro hpayload
    rw [decodeCommandEnvelope_fields hpayload, dif_neg envelope.payload.entityId.nonzero]
    rfl

/-- INTERNAL: the decoder of payloads returns, and its errors are errors. -/
theorem decodeCommandEnvelope_returns (payload : List UInt8) :
    ∃ result, decodeCommandEnvelope payload = .ok result ∧ result ≠ .error .none := by
  by_cases hlen : payload.length = commandEnvelopePayloadSize
  · obtain ⟨schema, type, client, session, sequence, target, entity, x, y, hpayload⟩ :=
      exists_payload_fields hlen
    rw [decodeCommandEnvelope_fields hpayload]
    by_cases hentity : entity = 0
    · rw [dif_pos hentity]
      exact ⟨_, rfl, by simp⟩
    · rw [dif_neg hentity]
      exact ⟨_, rfl, by simp⟩
  · rw [decodeCommandEnvelope, if_pos hlen]
    exact ⟨_, rfl, by simp⟩

/-- **The command frames that are accepted.**
SRC: command_envelope_codec.cpp:188-200 -/
theorem decodeCommandFrame_iff {bytes : List UInt8} {limits : ProtocolLimits}
    {envelope : CommandEnvelope} :
    decodeCommandFrame bytes limits = .ok (.ok envelope) ↔
      commandFrameSize ≤ limits.maximumFrameSize.toNat ∧ bytes = encodeCommandFrame envelope := by
  unfold decodeCommandFrame
  rw [except_bind_iff, encodeCommandFrame_eq]
  constructor
  · rintro ⟨result, hparse, hdecode⟩
    cases result with
    | error code => cases hdecode
    | ok view =>
      obtain ⟨size, payload, hhigh, hsize, hbytes, rfl⟩ := parseFrame_ok_iff.mp hparse
      have hpayload := decodeCommandEnvelope_iff.mp hdecode
      have hlen := congrArg List.length hpayload
      rw [length_payloadBytes] at hlen
      have hsixteen : size.toNat = 76 := by
        rw [hsize, hlen]
        rfl
      obtain rfl : size = 76 := UInt32.toNat_inj.mp hsixteen
      rw [← hpayload]
      exact ⟨UInt32.le_iff_toNat_le.mp hhigh, hbytes⟩
  · rintro ⟨hlimit, hbytes⟩
    refine ⟨.ok ⟨frameHeaderOf 76, payloadBytes envelope⟩, ?_, ?_⟩
    · refine parseFrame_ok_iff.mpr ⟨76, payloadBytes envelope, UInt32.le_iff_toNat_le.mpr hlimit,
        ?_, hbytes, rfl⟩
      rw [length_payloadBytes]
      rfl
    · exact decodeCommandEnvelope_iff.mpr rfl

/-! ## The gateway -/

/-- INTERNAL: a refused header has an error. -/
theorem headerVerdict_ne_none (limits : ProtocolLimits) (magic : List UInt8)
    (version headerSize : UInt16) (size : UInt32) (messageType flags : UInt16) :
    headerVerdict limits magic version headerSize size messageType flags ≠ .error .none := by
  unfold headerVerdict
  split_ifs <;> simp

/-- INTERNAL: with limits that admit a header the strict parser returns, and its errors are
errors. -/
theorem parseFrame_returns {limits : ProtocolLimits} (h : Admitted limits) (bytes : List UInt8) :
    ∃ result, parseFrame bytes limits = .ok result ∧ result ≠ .error .none := by
  unfold parseFrame
  by_cases hlen : frameHeaderSize ≤ bytes.length
  · obtain ⟨magic, version, headerSize, size, messageType, flags, hmagic, hbytes⟩ :=
      exists_fields hlen
    have hne := headerVerdict_ne_none limits magic version headerSize size messageType flags
    rw [decodeFrameHeader_fields h hmagic hbytes]
    cases hverdict : headerVerdict limits magic version headerSize size messageType flags with
    | error code =>
      rw [hverdict] at hne
      exact ⟨.error code, rfl, fun hcode => hne (by rw [Except.error.inj hcode])⟩
    | ok header =>
      simp only [bind, Except.bind, pure, Except.pure]
      split_ifs <;> exact ⟨_, rfl, by simp⟩
  · rw [decodeFrameHeader_short h (Nat.lt_of_not_le hlen)]
    exact ⟨_, rfl, by simp⟩

/-- INTERNAL: with limits that admit a header the decoder of command frames returns, and its
errors are errors. -/
theorem decodeCommandFrame_returns {limits : ProtocolLimits} (h : Admitted limits)
    (bytes : List UInt8) :
    ∃ result, decodeCommandFrame bytes limits = .ok result ∧ result ≠ .error .none := by
  obtain ⟨result, hparse, hne⟩ := parseFrame_returns h bytes
  unfold decodeCommandFrame
  rw [hparse]
  cases result with
  | error code => exact ⟨.error code, rfl, fun hcode => hne (by rw [Except.error.inj hcode])⟩
  | ok view => exact decodeCommandEnvelope_returns view.payload

/-- INTERNAL: the result that wraps what the pipeline returned. -/
theorem commandSubmission_eq (result : CommandSubmissionResult) :
    ProtocolSubmissionResult.commandSubmission result = .ok ⟨.none, some result, rfl⟩ := rfl

/-- INTERNAL: the result of a refused frame. -/
theorem parseRejection_eq {code : ParseErrorCode} (h : code ≠ .none) :
    ProtocolSubmissionResult.parseRejection code =
      .ok ⟨code, none, by rw [decide_eq_false h]; rfl⟩ := by
  rw [ProtocolSubmissionResult.parseRejection, if_neg h]
  exact dif_pos (by rw [decide_eq_false h]; rfl)

/-- INTERNAL: a command frame is submitted to the pipeline, and nothing else happens.
SRC: authoritative_command_gateway.cpp:81-99 -/
theorem gateway_submits {bytes : List UInt8} {envelope : CommandEnvelope} {s : GatewayExchange}
    (hdecode : decodeCommandFrame bytes s.gateway.limits = .ok (.ok envelope)) :
    AuthoritativeCommandGateway.submit bytes s =
      match AuthoritativeCommandPipeline.submit envelope s.exchange with
      | .ok result e => .ok ⟨.none, some result, rfl⟩ (s.withExchange e)
      | .error fault e => .error fault (s.withExchange e) := by
  unfold AuthoritativeCommandGateway.submit
  rw [Member.bind_ok (Member.get_apply s), hdecode, Member.bind_ok (Member.lift_ok _ _)]
  simp only [Member.bind_apply, GatewayExchange.onPipeline, Member.within]
  cases AuthoritativeCommandPipeline.submit envelope s.exchange with
  | ok result e => simp only [commandSubmission_eq, Member.lift_ok]
  | error fault e => rfl

/-- INTERNAL: anything else is refused, and nothing happens.
SRC: authoritative_command_gateway.cpp:86-92 -/
theorem gateway_refuses {bytes : List UInt8} {code : ParseErrorCode} {s : GatewayExchange}
    (hdecode : decodeCommandFrame bytes s.gateway.limits = .ok (.error code))
    (hcode : code ≠ .none) :
    AuthoritativeCommandGateway.submit bytes s =
      .ok ⟨code, none, by rw [decide_eq_false hcode]; rfl⟩ s := by
  unfold AuthoritativeCommandGateway.submit
  rw [Member.bind_ok (Member.get_apply s), hdecode, Member.bind_ok (Member.lift_ok _ _)]
  simp only [parseRejection_eq hcode, Member.lift_ok]

/-- **The wire format is canonical, and the gateway only lets it through.**  Under every
limits a command frame decodes to an envelope exactly when the limits admit its 76 bytes and
it is the envelope's encoding.  A gateway hands such a frame to its pipeline and wraps the
answer, with the fault and the objects the pipeline leaves; it refuses every other byte
string with a parse error and leaves its pipeline, the session and the world as they were.
SRC: command_envelope_codec.cpp:118-200, frame_parser.cpp:52-137,
authoritative_command_gateway.cpp:81-99 -/
theorem command_wire_format :
    (∀ (bytes : List UInt8) (limits : ProtocolLimits) (envelope : CommandEnvelope),
      decodeCommandFrame bytes limits = .ok (.ok envelope) ↔
        76 ≤ limits.maximumFrameSize.toNat ∧ bytes = encodeCommandFrame envelope) ∧
    ∀ (bytes : List UInt8) (s : GatewayExchange),
      (∀ envelope, 76 ≤ s.gateway.limits.maximumFrameSize.toNat →
        bytes = encodeCommandFrame envelope →
        AuthoritativeCommandGateway.submit bytes s =
          match AuthoritativeCommandPipeline.submit envelope s.exchange with
          | .ok result e => .ok ⟨.none, some result, rfl⟩ (s.withExchange e)
          | .error fault e => .error fault (s.withExchange e)) ∧
      ((¬ ∃ envelope, 76 ≤ s.gateway.limits.maximumFrameSize.toNat ∧
          bytes = encodeCommandFrame envelope) →
        ∃ result, AuthoritativeCommandGateway.submit bytes s = .ok result s ∧
          result.parseError ≠ .none ∧ result.commandResult = none) := by
  refine ⟨fun bytes limits envelope => decodeCommandFrame_iff, ?_⟩
  intro bytes s
  constructor
  · intro envelope hlimit hbytes
    exact gateway_submits (decodeCommandFrame_iff.mpr ⟨hlimit, hbytes⟩)
  · intro hother
    obtain ⟨result, hdecode, hne⟩ := decodeCommandFrame_returns s.gateway.admitted bytes
    cases result with
    | ok envelope => exact absurd ⟨envelope, decodeCommandFrame_iff.mp hdecode⟩ hother
    | error code =>
      have hcode : code ≠ .none := fun h => hne (by rw [h])
      exact ⟨_, gateway_refuses hdecode hcode, hcode, rfl⟩

/-- A gateway with the default limits, in front of the sample session and world. -/
def sampleGateway : GatewayExchange where
  gateway := { limits := {}, admitted := by decide }
  session := sampleSession
  world := sampleWorld

/-- A command frame with one byte behind it is refused. -/
theorem command_wire_format_trailing :
    ∃ result, AuthoritativeCommandGateway.submit (encodeCommandFrame sampleEnvelope ++ [0])
        sampleGateway = .ok result sampleGateway ∧ result.parseError ≠ .none := by
  have hother : ¬ ∃ envelope, 76 ≤ sampleGateway.gateway.limits.maximumFrameSize.toNat ∧
      encodeCommandFrame sampleEnvelope ++ [0] = encodeCommandFrame envelope := by
    rintro ⟨envelope, -, hbytes⟩
    have hlen := congrArg List.length hbytes
    rw [List.length_append, length_encodeCommandFrame, length_encodeCommandFrame] at hlen
    exact absurd hlen (by decide)
  obtain ⟨result, hsubmit, herror, -⟩ := (command_wire_format.2 _ sampleGateway).2 hother
  exact ⟨result, hsubmit, herror⟩

end Tickline.Analysis
