import Tickline.Analysis.FieldCodec
import Tickline.Library.Framing
import Tickline.Model.Frame

/-!
# The frame format

Reading a field of a span at an offset succeeds inside the span and determines the bytes
there (`readU16_slot` and its siblings), so a header that `decodeFrameHeader` accepts is
spelled `frameHeaderBytes` (`decodeFrameHeader_ok_iff`), and a frame that `parseFrame`
accepts is that header and its payload (`parseFrame_ok_iff`).

With limits that admit a header the decoder never throws, and from 16 bytes on its answer
does not depend on what follows.  That makes the format a `Framer` (`frameFramer`), whose
items are exactly the frames that `parseFrame` accepts.
-/

set_option autoImplicit false

namespace Tickline.Analysis

open Tickline.Library Tickline.Model

/-! ## Fields at an offset -/

/-- INTERNAL: an index inside a span. -/
theorem spanGet_eq {bytes : List UInt8} {index : ℕ} {byte : UInt8} {rest : List UInt8}
    (h : bytes.drop index = byte :: rest) : Span.get bytes index = .ok byte := by
  have hget : bytes[index]? = some byte := by
    rw [← List.head?_drop, h, List.head?_cons]
  simp only [Span.get, hget]

/-- INTERNAL: what follows the byte at an index. -/
theorem drop_succ_of_cons {bytes : List UInt8} {index : ℕ} {byte : UInt8} {rest : List UInt8}
    (h : bytes.drop index = byte :: rest) : bytes.drop (index + 1) = rest := by
  rw [← List.tail_drop, h, List.tail_cons]

/-- INTERNAL: what follows a field at an offset. -/
theorem drop_of_append {bytes word rest : List UInt8} {offset width : ℕ}
    (h : bytes.drop offset = word ++ rest) (hlen : word.length = width) :
    bytes.drop (offset + width) = rest := by
  rw [← List.drop_drop, h, ← hlen, List.drop_left]

/-- INTERNAL: the bytes of a field that lies inside a span. -/
theorem exists_word {bytes : List UInt8} {offset width : ℕ} (h : offset + width ≤ bytes.length) :
    ∃ word, word.length = width ∧ bytes.drop offset = word ++ bytes.drop (offset + width) := by
  refine ⟨(bytes.drop offset).take width, ?_, ?_⟩
  · rw [List.length_take, List.length_drop]
    omega
  · rw [← List.drop_drop, List.take_append_drop]

/-- A two-byte field is read where it stands. -/
theorem readU16_eq_ok {bytes rest : List UInt8} {offset : ℕ} {value : UInt16}
    (h : bytes.drop offset = appendU16 value ++ rest) :
    Span.readU16 bytes offset = .ok value := by
  obtain ⟨b0, b1, hword⟩ : ∃ b0 b1, appendU16 value = [b0, b1] := ⟨_, _, rfl⟩
  have hvalue : (b0.toUInt16 <<< 8) ||| b1.toUInt16 = value := by
    have hfold := appendU16_foldl (show [b0, b1].length = 2 from rfl)
    rw [← hword] at hfold
    have hback := appendU16_injective hfold
    rw [hword] at hback
    simpa using hback
  rw [hword] at h
  simp only [Span.readU16, spanGet_eq h, spanGet_eq (drop_succ_of_cons h), bind, Except.bind, pure,
    Except.pure, hvalue]

/-- INTERNAL: the shifts of the four-byte reader, byte by byte. -/
theorem shifts_eq_foldl (a b c d : UInt32) :
    (a <<< 24) ||| (b <<< 16) ||| (c <<< 8) ||| d =
      ((((((((0 : UInt32) <<< 8) ||| a) <<< 8) ||| b) <<< 8) ||| c) <<< 8) ||| d := by
  have h16 : ∀ x : UInt32, x <<< 8 <<< 8 = x <<< 16 :=
    fun x => (UInt32.shiftLeft_add_of_toNat_lt (by decide)).symm
  have h24 : ∀ x : UInt32, x <<< 8 <<< 16 = x <<< 24 :=
    fun x => (UInt32.shiftLeft_add_of_toNat_lt (by decide)).symm
  rw [UInt32.zero_shiftLeft, UInt32.zero_or, UInt32.shiftLeft_or, UInt32.shiftLeft_or,
    UInt32.shiftLeft_or, h16, h16, h24]

/-- A four-byte field is read where it stands. -/
theorem readU32_eq_ok {bytes rest : List UInt8} {offset : ℕ} {value : UInt32}
    (h : bytes.drop offset = appendU32 value ++ rest) :
    Span.readU32 bytes offset = .ok value := by
  obtain ⟨b0, b1, b2, b3, hword⟩ : ∃ b0 b1 b2 b3, appendU32 value = [b0, b1, b2, b3] :=
    ⟨_, _, _, _, rfl⟩
  have hvalue : (b0.toUInt32 <<< 24) ||| (b1.toUInt32 <<< 16) ||| (b2.toUInt32 <<< 8) |||
      b3.toUInt32 = value := by
    have hfold := appendU32_foldl (show [b0, b1, b2, b3].length = 4 from rfl)
    rw [← hword] at hfold
    have hback := appendU32_injective hfold
    rw [hword] at hback
    rw [shifts_eq_foldl]
    exact hback
  rw [hword] at h
  have h1 := drop_succ_of_cons h
  have h2 := drop_succ_of_cons h1
  have h3 := drop_succ_of_cons h2
  simp only [Span.readU32, spanGet_eq h, spanGet_eq h1, spanGet_eq h2, spanGet_eq h3, bind,
    Except.bind, pure, Except.pure, hvalue]

/-- INTERNAL: the loop of the eight-byte reader shifts the bytes it passes into its word. -/
theorem readU64Loop_eq {bytes : List UInt8} (word : List UInt8) :
    ∀ {rest : List UInt8} {index : ℕ} (value : UInt64), bytes.drop index = word ++ rest →
      Span.readU64Loop bytes word.length index value =
        .ok (word.foldl (fun value byte => (value <<< 8) ||| byte.toUInt64) value) := by
  induction word with
  | nil =>
    intro _ _ value _
    rfl
  | cons byte word ih =>
    intro rest index value h
    have hrest := ih ((value <<< 8) ||| byte.toUInt64) (drop_succ_of_cons h)
    simp only [Span.readU64Loop, List.length_cons, spanGet_eq h, bind, Except.bind, hrest,
      List.foldl_cons]

/-- An eight-byte field is read where it stands. -/
theorem readU64_eq_ok {bytes rest : List UInt8} {offset : ℕ} {value : UInt64}
    (h : bytes.drop offset = appendU64 value ++ rest) :
    Span.readU64 bytes offset = .ok value := by
  have hloop := readU64Loop_eq (appendU64 value) 0 h
  rw [length_appendU64] at hloop
  rw [Span.readU64, hloop]
  exact congrArg _ (appendU64_injective (appendU64_foldl (length_appendU64 value)))

/-- Inside a span a two-byte field is read, and its value spells the bytes there. -/
theorem readU16_slot {bytes : List UInt8} {offset : ℕ} (h : offset + 2 ≤ bytes.length) :
    ∃ value, Span.readU16 bytes offset = .ok value ∧
      bytes.drop offset = appendU16 value ++ bytes.drop (offset + 2) := by
  obtain ⟨word, hlen, hword⟩ := exists_word h
  rw [← appendU16_foldl hlen] at hword
  exact ⟨_, readU16_eq_ok hword, hword⟩

theorem readU32_slot {bytes : List UInt8} {offset : ℕ} (h : offset + 4 ≤ bytes.length) :
    ∃ value, Span.readU32 bytes offset = .ok value ∧
      bytes.drop offset = appendU32 value ++ bytes.drop (offset + 4) := by
  obtain ⟨word, hlen, hword⟩ := exists_word h
  rw [← appendU32_foldl hlen] at hword
  exact ⟨_, readU32_eq_ok hword, hword⟩

theorem readU64_slot {bytes : List UInt8} {offset : ℕ} (h : offset + 8 ≤ bytes.length) :
    ∃ value, Span.readU64 bytes offset = .ok value ∧
      bytes.drop offset = appendU64 value ++ bytes.drop (offset + 8) := by
  obtain ⟨word, hlen, hword⟩ := exists_word h
  rw [← appendU64_foldl hlen] at hword
  exact ⟨_, readU64_eq_ok hword, hword⟩

/-- INTERNAL: the comparison with the magic bytes, from an index on. -/
theorem hasValidMagicFrom_eq {bytes : List UInt8} (magic : List UInt8) :
    ∀ index : ℕ, index + magic.length ≤ bytes.length →
      hasValidMagicFrom bytes index magic =
        .ok (decide ((bytes.drop index).take magic.length = magic)) := by
  induction magic with
  | nil => simp [hasValidMagicFrom, pure, Except.pure]
  | cons expected magic ih =>
    intro index hlen
    obtain ⟨byte, hbyte⟩ : ∃ byte, bytes.drop index = byte :: bytes.drop (index + 1) :=
      ⟨_, List.drop_eq_getElem_cons (by rw [List.length_cons] at hlen; omega)⟩
    have hrest := ih (index + 1) (by rw [List.length_cons] at hlen; omega)
    simp only [hasValidMagicFrom, spanGet_eq hbyte, bind, Except.bind, hrest, hbyte,
      List.length_cons, List.take_succ_cons, List.cons.injEq]
    by_cases heq : byte = expected <;> simp [heq, pure, Except.pure]

/-- The magic bytes are compared with the first four of the span. -/
theorem hasValidMagic_eq {bytes : List UInt8} (h : 4 ≤ bytes.length) :
    hasValidMagic bytes = .ok (decide (bytes.take 4 = frameMagic)) := by
  have hfrom : hasValidMagicFrom bytes 0 frameMagic = _ :=
    hasValidMagicFrom_eq frameMagic 0 (by simpa [frameMagic] using h)
  rw [List.drop_zero] at hfrom
  exact hfrom

/-! ## Headers -/

/-- The header of a frame of the given size. -/
def frameHeaderOf (size : UInt32) : FrameHeader where
  version := protocolVersion
  headerSize := 16
  frameSize := size
  messageType := .commandEnvelope
  flags := 0

/-- The bytes of that header. -/
def frameHeaderBytes (size : UInt32) : List UInt8 :=
  frameMagic ++
    (appendU16 protocolVersion ++
    (appendU16 16 ++
    (appendU32 size ++
    (appendU16 MessageType.commandEnvelope.value ++
    appendU16 0))))

@[simp] theorem length_frameHeaderBytes (size : UInt32) :
    (frameHeaderBytes size).length = frameHeaderSize := by
  simp [frameHeaderBytes, frameMagic, frameHeaderSize]

/-- What the decoder says of the fields of a complete header.
SRC: frame_parser.cpp:62-108 -/
def headerVerdict (limits : ProtocolLimits) (magic : List UInt8) (version headerSize : UInt16)
    (size : UInt32) (messageType flags : UInt16) : Expected FrameHeader :=
  if magic ≠ frameMagic then .error .invalidMagic
  else if version ≠ protocolVersion then .error .unsupportedProtocolVersion
  else if headerSize.toNat ≠ frameHeaderSize then .error .invalidHeaderSize
  else if size.toNat < frameHeaderSize then .error .frameTooSmall
  else if limits.maximumFrameSize < size then .error .frameTooLarge
  else if flags ≠ 0 then .error .reservedFlagsSet
  else if messageType ≠ MessageType.commandEnvelope.value then .error .unknownMessageType
  else .ok ⟨version, headerSize, size, .commandEnvelope, flags⟩

/-- Limits that admit a frame header, as every constructor demands. -/
def Admitted (limits : ProtocolLimits) : Prop := frameHeaderSize ≤ limits.maximumFrameSize.toNat

/-- INTERNAL: limits too small for a header make the decoder throw. -/
theorem decodeFrameHeader_refused {limits : ProtocolLimits} (h : ¬ Admitted limits)
    (bytes : List UInt8) : decodeFrameHeader bytes limits = .error limitsFault := by
  simp only [decodeFrameHeader, validateLimits, if_pos (Nat.not_le.mp h), bind, Except.bind]

/-- INTERNAL: a short header is truncated. -/
theorem decodeFrameHeader_short {limits : ProtocolLimits} (h : Admitted limits)
    {bytes : List UInt8} (hlen : bytes.length < frameHeaderSize) :
    decodeFrameHeader bytes limits = .ok (.error .truncatedHeader) := by
  simp only [decodeFrameHeader, validateLimits, if_neg (Nat.not_lt.mpr h), bind, Except.bind,
    if_pos hlen, pure, Except.pure]

/-- INTERNAL: a complete header has its six fields. -/
theorem exists_fields {bytes : List UInt8} (hlen : frameHeaderSize ≤ bytes.length) :
    ∃ magic version headerSize size messageType flags, magic.length = 4 ∧
      bytes = magic ++ (appendU16 version ++ (appendU16 headerSize ++ (appendU32 size ++
        (appendU16 messageType ++ (appendU16 flags ++ bytes.drop frameHeaderSize))))) := by
  unfold frameHeaderSize at hlen ⊢
  obtain ⟨version, -, e4⟩ := readU16_slot (show 4 + 2 ≤ bytes.length by omega)
  obtain ⟨headerSize, -, e6⟩ := readU16_slot (show 6 + 2 ≤ bytes.length by omega)
  obtain ⟨size, -, e8⟩ := readU32_slot (show 8 + 4 ≤ bytes.length by omega)
  obtain ⟨messageType, -, e12⟩ := readU16_slot (show 12 + 2 ≤ bytes.length by omega)
  obtain ⟨flags, -, e14⟩ := readU16_slot (show 14 + 2 ≤ bytes.length by omega)
  refine ⟨bytes.take 4, version, headerSize, size, messageType, flags, ?_, ?_⟩
  · rw [List.length_take]
    omega
  · rw [← e14, ← e12, ← e8, ← e6, ← e4, List.take_append_drop]

/-- **What the decoder says of a complete header**: a verdict on the six fields that the
first 16 bytes spell.
SRC: frame_parser.cpp:52-109 -/
theorem decodeFrameHeader_fields {limits : ProtocolLimits} (h : Admitted limits)
    {bytes magic rest : List UInt8} {version headerSize : UInt16} {size : UInt32}
    {messageType flags : UInt16} (hmagic : magic.length = 4)
    (hbytes : bytes = magic ++ (appendU16 version ++ (appendU16 headerSize ++ (appendU32 size ++
      (appendU16 messageType ++ (appendU16 flags ++ rest)))))) :
    decodeFrameHeader bytes limits =
      .ok (headerVerdict limits magic version headerSize size messageType flags) := by
  have e0 : bytes.drop 0 = magic ++ _ := hbytes
  have e4 := drop_of_append e0 hmagic
  have e6 := drop_of_append e4 (length_appendU16 _)
  have e8 := drop_of_append e6 (length_appendU16 _)
  have e12 := drop_of_append e8 (length_appendU32 _)
  have e14 := drop_of_append e12 (length_appendU16 _)
  have hlen : ¬ bytes.length < frameHeaderSize := by
    rw [hbytes]
    simp [hmagic, frameHeaderSize]
    omega
  have htake : bytes.take 4 = magic := by rw [hbytes, ← hmagic, List.take_left]
  have hmagicValid : hasValidMagic bytes = .ok (decide (magic = frameMagic)) := by
    rw [hasValidMagic_eq (Nat.le_trans (by decide) (Nat.le_of_not_lt hlen)), htake]
  simp only [decodeFrameHeader, validateLimits, if_neg (Nat.not_lt.mpr h), if_neg hlen,
    hmagicValid, readU16_eq_ok e4, readU16_eq_ok e6, readU32_eq_ok e8, readU16_eq_ok e12,
    readU16_eq_ok e14, bind, Except.bind, pure, Except.pure, headerVerdict]
  split_ifs <;> simp_all

/-- INTERNAL: what follows a complete header does not matter. -/
theorem decodeFrameHeader_append {limits : ProtocolLimits} (h : Admitted limits)
    {bytes : List UInt8} (hlen : frameHeaderSize ≤ bytes.length) (tail : List UInt8) :
    decodeFrameHeader (bytes ++ tail) limits = decodeFrameHeader bytes limits := by
  obtain ⟨magic, version, headerSize, size, messageType, flags, hmagic, hbytes⟩ :=
    exists_fields hlen
  have hbytes' := congrArg (· ++ tail) hbytes
  simp only [List.append_assoc] at hbytes'
  rw [decodeFrameHeader_fields h hmagic hbytes, decodeFrameHeader_fields h hmagic hbytes']

/-- INTERNAL: which fields the decoder accepts. -/
theorem headerVerdict_ok_iff {limits : ProtocolLimits} {magic : List UInt8}
    {version headerSize : UInt16} {size : UInt32} {messageType flags : UInt16}
    {header : FrameHeader} :
    headerVerdict limits magic version headerSize size messageType flags = .ok header ↔
      (magic = frameMagic ∧ version = protocolVersion ∧ headerSize = 16 ∧
        messageType = MessageType.commandEnvelope.value ∧ flags = 0) ∧
      frameHeaderSize ≤ size.toNat ∧ size ≤ limits.maximumFrameSize ∧
      header = frameHeaderOf size := by
  have hsixteen : headerSize.toNat = frameHeaderSize ↔ headerSize = 16 := by
    rw [← UInt16.toNat_inj]
    rfl
  unfold headerVerdict
  split_ifs with h1 h2 h3 h4 h5 h6 h7 <;> simp only [false_iff, Except.ok.injEq]
  · exact fun h => h1 h.1.1
  · exact fun h => h2 h.1.2.1
  · exact fun h => h3 (hsixteen.mpr h.1.2.2.1)
  · exact fun h => absurd h.2.1 (Nat.not_le.mpr h4)
  · exact fun h => absurd h.2.2.1 (UInt32.not_le.mpr h5)
  · exact fun h => h6 h.1.2.2.2.2
  · exact fun h => h7 h.1.2.2.2.1
  · rw [not_not] at h1 h2 h3 h6 h7
    obtain rfl := hsixteen.mp h3
    subst h1 h2 h6 h7
    simp only [and_self, true_and, Nat.le_of_not_lt h4, UInt32.not_lt.mp h5]
    exact ⟨fun h => h.symm, fun h => h.symm⟩

/-- **The headers that are accepted**: one spelling for each size within the limits.
SRC: frame_parser.cpp:52-109 -/
theorem decodeFrameHeader_ok_iff {limits : ProtocolLimits} {bytes : List UInt8}
    {header : FrameHeader} :
    decodeFrameHeader bytes limits = .ok (.ok header) ↔
      ∃ size rest, frameHeaderSize ≤ size.toNat ∧ size ≤ limits.maximumFrameSize ∧
        bytes = frameHeaderBytes size ++ rest ∧ header = frameHeaderOf size := by
  constructor
  · intro hdecode
    by_cases h : Admitted limits
    · by_cases hlen : frameHeaderSize ≤ bytes.length
      · obtain ⟨magic, version, headerSize, size, messageType, flags, hmagic, hbytes⟩ :=
          exists_fields hlen
        rw [decodeFrameHeader_fields h hmagic hbytes] at hdecode
        obtain ⟨⟨rfl, rfl, rfl, rfl, rfl⟩, hlow, hhigh, hheader⟩ :=
          headerVerdict_ok_iff.mp (Except.ok.inj hdecode)
        refine ⟨size, bytes.drop frameHeaderSize, hlow, hhigh, ?_, hheader⟩
        simpa only [frameHeaderBytes, List.append_assoc] using hbytes
      · rw [decodeFrameHeader_short h (Nat.lt_of_not_le hlen)] at hdecode
        cases hdecode
    · rw [decodeFrameHeader_refused h] at hdecode
      cases hdecode
  · rintro ⟨size, rest, hlow, hhigh, hbytes, hheader⟩
    have h : Admitted limits := hlow.trans (UInt32.le_iff_toNat_le.mp hhigh)
    simp only [frameHeaderBytes, List.append_assoc] at hbytes
    rw [decodeFrameHeader_fields h (by decide) hbytes, headerVerdict_ok_iff.mpr]
    exact ⟨⟨rfl, rfl, rfl, rfl, rfl⟩, hlow, hhigh, hheader⟩

/-- With limits that admit a header the decoder returns. -/
theorem decodeFrameHeader_returns {limits : ProtocolLimits} (h : Admitted limits)
    (bytes : List UInt8) : ∃ result, decodeFrameHeader bytes limits = .ok result := by
  by_cases hlen : frameHeaderSize ≤ bytes.length
  · obtain ⟨magic, version, headerSize, size, messageType, flags, hmagic, hbytes⟩ :=
      exists_fields hlen
    exact ⟨_, decodeFrameHeader_fields h hmagic hbytes⟩
  · exact ⟨_, decodeFrameHeader_short h (Nat.lt_of_not_le hlen)⟩

/-! ## Frames -/

/-- **The frames that are accepted**: a header with the frame's own size, and a payload.
SRC: frame_parser.cpp:111-137 -/
theorem parseFrame_ok_iff {limits : ProtocolLimits} {bytes : List UInt8} {view : FrameView} :
    parseFrame bytes limits = .ok (.ok view) ↔
      ∃ size payload, size ≤ limits.maximumFrameSize ∧
        size.toNat = frameHeaderSize + payload.length ∧
        bytes = frameHeaderBytes size ++ payload ∧ view = ⟨frameHeaderOf size, payload⟩ := by
  unfold parseFrame
  constructor
  · intro hparse
    obtain ⟨result, hresult, hparse⟩ := except_bind_iff.mp hparse
    cases result with
    | error code =>
      cases hparse
    | ok header =>
      obtain ⟨size, payload, -, hhigh, hbytes, rfl⟩ := decodeFrameHeader_ok_iff.mp hresult
      have hlen : bytes.length = frameHeaderSize + payload.length := by
        rw [hbytes, List.length_append, length_frameHeaderBytes]
      have hdrop : bytes.drop frameHeaderSize = payload := by
        rw [hbytes, ← length_frameHeaderBytes size, List.drop_left]
      simp only [pure, Except.pure] at hparse
      by_cases hshort : bytes.length < (frameHeaderOf size).frameSize.toNat
      · rw [if_pos hshort] at hparse
        cases hparse
      by_cases hlong : (frameHeaderOf size).frameSize.toNat < bytes.length
      · rw [if_neg hshort, if_pos hlong] at hparse
        cases hparse
      rw [if_neg hshort, if_neg hlong, hdrop] at hparse
      cases hparse
      have hsize : bytes.length = size.toNat :=
        Nat.le_antisymm (Nat.le_of_not_lt hlong) (Nat.le_of_not_lt hshort)
      exact ⟨size, payload, hhigh, by omega, hbytes, rfl⟩
  · rintro ⟨size, payload, hhigh, hsize, hbytes, rfl⟩
    have hlen : bytes.length = size.toNat := by
      rw [hbytes, List.length_append, length_frameHeaderBytes, hsize]
    have hheader : decodeFrameHeader bytes limits = .ok (.ok (frameHeaderOf size)) :=
      decodeFrameHeader_ok_iff.mpr ⟨size, payload, by omega, hhigh, hbytes, rfl⟩
    have hdrop : bytes.drop frameHeaderSize = payload := by
      rw [hbytes, ← length_frameHeaderBytes size, List.drop_left]
    simp only [hheader, hdrop, frameHeaderOf, hlen, lt_irrefl, if_false, bind, Except.bind, pure,
      Except.pure]

/-- Only with limits that admit a header is anything accepted. -/
theorem admitted_of_parseFrame {limits : ProtocolLimits} {bytes : List UInt8} {view : FrameView}
    (h : parseFrame bytes limits = .ok (.ok view)) : Admitted limits := by
  obtain ⟨size, payload, hhigh, hsize, -, -⟩ := parseFrame_ok_iff.mp h
  have hle := UInt32.le_iff_toNat_le.mp hhigh
  unfold Admitted
  omega

/-- What the front of a stream is, for the decoder. -/
def frameVerdict (limits : ProtocolLimits) (bytes : List UInt8) :
    Verdict FrameView ParseErrorCode :=
  if bytes.length < frameHeaderSize then .more
  else match decodeFrameHeader bytes limits with
    | .error _ => .more
    | .ok (.error code) => .bad code
    | .ok (.ok header) =>
      if bytes.length < header.frameSize.toNat then .more
      else .item header.frameSize.toNat
        ⟨header, (bytes.take header.frameSize.toNat).drop frameHeaderSize⟩

/-- INTERNAL: when the verdict is an error. -/
theorem frameVerdict_bad_iff {limits : ProtocolLimits} {bytes : List UInt8}
    {code : ParseErrorCode} :
    frameVerdict limits bytes = .bad code ↔
      frameHeaderSize ≤ bytes.length ∧ decodeFrameHeader bytes limits = .ok (.error code) := by
  unfold frameVerdict
  split_ifs with hlen
  · simp only [false_iff, not_and]
    exact fun h => absurd hlen (Nat.not_lt.mpr h)
  · simp only [Nat.le_of_not_lt hlen, true_and]
    split
    · simp_all
    · simp_all
    · split_ifs <;> simp_all

/-- INTERNAL: when the verdict is a frame. -/
theorem frameVerdict_item_iff {limits : ProtocolLimits} {bytes : List UInt8} {n : ℕ}
    {view : FrameView} :
    frameVerdict limits bytes = .item n view ↔
      ∃ size payload rest, size ≤ limits.maximumFrameSize ∧
        size.toNat = frameHeaderSize + payload.length ∧
        bytes = frameHeaderBytes size ++ payload ++ rest ∧
        n = size.toNat ∧ view = ⟨frameHeaderOf size, payload⟩ := by
  unfold frameVerdict
  constructor
  · intro h
    split_ifs at h with hlen
    split at h
    · cases h
    · cases h
    · rename_i header hdecode
      split_ifs at h with hshort
      obtain ⟨size, rest, hlow, hhigh, hbytes, rfl⟩ := decodeFrameHeader_ok_iff.mp hdecode
      simp only [frameHeaderOf, Verdict.item.injEq] at h hshort
      obtain ⟨rfl, rfl⟩ := h
      have hrest : bytes.length = frameHeaderSize + rest.length := by
        rw [hbytes, List.length_append, length_frameHeaderBytes]
      have htake : (bytes.take size.toNat).drop frameHeaderSize =
          rest.take (size.toNat - frameHeaderSize) := by
        rw [List.drop_take, hbytes, ← length_frameHeaderBytes size, List.drop_left]
      refine ⟨size, rest.take (size.toNat - frameHeaderSize),
        rest.drop (size.toNat - frameHeaderSize), hhigh, ?_, ?_, rfl, ?_⟩
      · rw [List.length_take]
        omega
      · rw [List.append_assoc, List.take_append_drop]
        exact hbytes
      · rw [htake]
        rfl
  · rintro ⟨size, payload, rest, hhigh, hsize, hbytes, rfl, rfl⟩
    have hlen : bytes.length = size.toNat + rest.length := by
      rw [hbytes, List.length_append, List.length_append, length_frameHeaderBytes, hsize]
    have hdecode : decodeFrameHeader bytes limits = .ok (.ok (frameHeaderOf size)) :=
      decodeFrameHeader_ok_iff.mpr ⟨size, payload ++ rest, by omega, hhigh,
        by rw [hbytes, List.append_assoc], rfl⟩
    have htake : (bytes.take size.toNat).drop frameHeaderSize = payload := by
      rw [hbytes, List.take_left' (by simp [hsize]), ← length_frameHeaderBytes size,
        List.drop_left]
    rw [if_neg (by omega), hdecode]
    simp only [frameHeaderOf, htake, if_neg (show ¬ bytes.length < size.toNat by omega)]

/-- **The frame format as a framer**, for limits that admit a header. -/
def frameFramer (limits : ProtocolLimits) (h : Admitted limits) :
    Framer UInt8 FrameView ParseErrorCode where
  next := frameVerdict limits
  bad_append {s e} t hbad := by
    obtain ⟨hlen, hdecode⟩ := frameVerdict_bad_iff.mp hbad
    refine frameVerdict_bad_iff.mpr ⟨?_, ?_⟩
    · rw [List.length_append]
      omega
    · rw [decodeFrameHeader_append h hlen, hdecode]
  item_local {s n a} t hitem := by
    obtain ⟨size, payload, rest, hhigh, hsize, hbytes, rfl, rfl⟩ :=
      frameVerdict_item_iff.mp hitem
    refine frameVerdict_item_iff.mpr ⟨size, payload, t, hhigh, hsize, ?_, rfl, rfl⟩
    rw [hbytes, List.take_left' (by simp [hsize])]
  item_size {s n a} hitem := by
    obtain ⟨size, payload, rest, -, hsize, hbytes, rfl, -⟩ := frameVerdict_item_iff.mp hitem
    rw [hbytes, List.length_append, List.length_append, length_frameHeaderBytes]
    unfold frameHeaderSize at hsize ⊢
    omega

/-- A frame that the strict parser accepts is an item of the framer, and conversely. -/
theorem frameVerdict_whole_iff {limits : ProtocolLimits} {bytes : List UInt8}
    {view : FrameView} :
    frameVerdict limits bytes = .item bytes.length view ↔
      parseFrame bytes limits = .ok (.ok view) := by
  rw [frameVerdict_item_iff, parseFrame_ok_iff]
  constructor
  · rintro ⟨size, payload, rest, hhigh, hsize, hbytes, hlen, hview⟩
    have hnil : rest = [] := by
      have hlength := congrArg List.length hbytes
      rw [List.length_append, List.length_append, length_frameHeaderBytes] at hlength
      exact List.length_eq_zero_iff.mp (by omega)
    rw [hnil, List.append_nil] at hbytes
    exact ⟨size, payload, hhigh, hsize, hbytes, hview⟩
  · rintro ⟨size, payload, hhigh, hsize, hbytes, hview⟩
    refine ⟨size, payload, [], hhigh, hsize, by rw [List.append_nil, hbytes], ?_, hview⟩
    rw [hbytes, List.length_append, length_frameHeaderBytes, hsize]

end Tickline.Analysis
