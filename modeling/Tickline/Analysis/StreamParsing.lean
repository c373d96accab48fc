import Tickline.Analysis.FrameCodec
import Tickline.Model.StreamParser

/-!
# The incremental parser against the framer

Between two pushes a parser that has not failed is `reading` the unfinished frame in its
buffer: the cached header is what the decoder says of the buffer.  One push cuts the buffer
and the new bytes with `frameFramer` (`push_eq`): the rounds of its loop are
the items of the cut.

A push that meets a malformed header returns the error alone, and the frames that were
complete in the same chunk are gone.  Whole runs follow: what the caller is given is
`Framer.delivered` of the chunks (`framesOf_pushes`), while the failure and the answer of
`finish` depend on the bytes only (`final_pushes`).
-/

set_option autoImplicit false

namespace Tickline.Analysis

open Tickline.Library Tickline.Model Tickline.Model.FrameStreamParser

/-! ## States between pushes -/

/-- The header that a parser with this buffer has cached. -/
def cachedHeader (limits : ProtocolLimits) (buffer : List UInt8) : Option FrameHeader :=
  if buffer.length < frameHeaderSize then none
  else match decodeFrameHeader buffer limits with
    | .ok (.ok header) => some header
    | _ => none

/-- A parser in the middle of a frame. -/
def reading (limits : ProtocolLimits) (buffer : List UInt8) : FrameStreamParser where
  limits := limits
  buffer := buffer
  currentHeader := cachedHeader limits buffer

/-- A parser that met a malformed header at the front of these bytes. -/
def failedAt (limits : ProtocolLimits) (bytes : List UInt8) (code : ParseErrorCode) :
    FrameStreamParser where
  limits := limits
  buffer := bytes.take frameHeaderSize
  failure := some code

/-- INTERNAL: a short buffer has no header yet. -/
theorem cachedHeader_short {limits : ProtocolLimits} {buffer : List UInt8}
    (h : buffer.length < frameHeaderSize) : cachedHeader limits buffer = none := if_pos h

/-- INTERNAL: a cached header is the decoded one. -/
theorem cachedHeader_long {limits : ProtocolLimits} {buffer : List UInt8} {header : FrameHeader}
    (h : frameHeaderSize ≤ buffer.length)
    (hdecode : decodeFrameHeader buffer limits = .ok (.ok header)) :
    cachedHeader limits buffer = some header := by
  rw [cachedHeader, if_neg (Nat.not_lt.mpr h), hdecode]

/-- INTERNAL: the decoder reads 16 bytes. -/
theorem decodeFrameHeader_take {limits : ProtocolLimits} (h : Admitted limits)
    {bytes : List UInt8} (hlen : frameHeaderSize ≤ bytes.length) :
    decodeFrameHeader (bytes.take frameHeaderSize) limits = decodeFrameHeader bytes limits := by
  have hlen' : frameHeaderSize ≤ (bytes.take frameHeaderSize).length := by
    rw [List.length_take]
    omega
  have happend := decodeFrameHeader_append h hlen' (bytes.drop frameHeaderSize)
  rw [List.take_append_drop] at happend
  exact happend.symm

/-! ## One round -/

/-- INTERNAL: refilling takes the buffer to a size of the bytes that are there.
SRC: stream_parser.cpp:35-47, 66-75 -/
theorem refill_eq {parser : FrameStreamParser} {unread : List UInt8} {size : ℕ}
    (hle : parser.buffer.length ≤ size) (hsize : size < 2 ^ 64) :
    refill unread size parser = .ok ((parser.buffer ++ unread).drop size)
      { parser with buffer := (parser.buffer ++ unread).take size } := by
  have hsub : sizeSub size parser.buffer.length = size - parser.buffer.length := by
    unfold sizeSub
    omega
  have htake : unread.take (min (size - parser.buffer.length) unread.length) =
      unread.take (size - parser.buffer.length) := by
    rw [← List.take_take, List.take_length]
  have hdrop : unread.drop (min (size - parser.buffer.length) unread.length) =
      unread.drop (size - parser.buffer.length) := by
    rcases Nat.le_total (size - parser.buffer.length) unread.length with h | h
    · rw [Nat.min_eq_left h]
    · rw [Nat.min_eq_right h, List.drop_length, List.drop_eq_nil_of_le h]
  simp only [refill, Member.bind_apply, Member.get_apply, Member.set_apply, Member.pure_apply,
    hsub, htake, hdrop, List.take_append, List.drop_append, List.take_of_length_le hle,
    List.drop_eq_nil_of_le hle, List.nil_append]

/-- INTERNAL: a round that has the header completes the frame or runs out of bytes.
SRC: stream_parser.cpp:63-97 -/
theorem completeFrame_eq {parser : FrameStreamParser} {bytes unread : List UInt8}
    {frames : List OwnedFrame} {header : FrameHeader} (hbytes : parser.buffer ++ unread = bytes)
    (hle : parser.buffer.length ≤ header.frameSize.toNat) :
    completeFrame unread frames header parser =
      if bytes.length < header.frameSize.toNat then
        .ok (.stop (.ok frames)) { parser with buffer := bytes }
      else match parseFrame (bytes.take header.frameSize.toNat) parser.limits with
        | .error fault => .error fault
            { parser with buffer := bytes.take header.frameSize.toNat }
        | .ok (.error code) => .ok (.stop (.error code))
            { parser with buffer := bytes.take header.frameSize.toNat, failure := some code }
        | .ok (.ok view) => .ok (.next (bytes.drop header.frameSize.toNat)
            (frames ++ [view.owned])) { parser with buffer := [], currentHeader := none } := by
  have hsize : header.frameSize.toNat < 2 ^ 64 :=
    Nat.lt_of_lt_of_le header.frameSize.toNat_lt (by decide)
  have hlen : (bytes.take header.frameSize.toNat).length < header.frameSize.toNat ↔
      bytes.length < header.frameSize.toNat := by
    rw [List.length_take]
    omega
  unfold completeFrame
  rw [Member.bind_ok (refill_eq hle hsize), hbytes]
  simp only [Member.bind_apply, Member.get_apply, Member.ite_apply, Member.pure_apply, hlen]
  by_cases hshort : bytes.length < header.frameSize.toNat
  · simp only [if_pos hshort, List.take_of_length_le hshort.le]
  · simp only [if_neg hshort]
    cases parseFrame (bytes.take header.frameSize.toNat) parser.limits with
    | error fault => rfl
    | ok result => cases result <;> rfl

/-- INTERNAL: the verdict on bytes with an accepted header. -/
theorem frameVerdict_of_header {limits : ProtocolLimits} {bytes : List UInt8}
    {header : FrameHeader} (hlen : frameHeaderSize ≤ bytes.length)
    (hdecode : decodeFrameHeader bytes limits = .ok (.ok header)) :
    frameVerdict limits bytes =
      if bytes.length < header.frameSize.toNat then .more
      else .item header.frameSize.toNat
        ⟨header, (bytes.take header.frameSize.toNat).drop frameHeaderSize⟩ := by
  rw [frameVerdict, if_neg (Nat.not_lt.mpr hlen), hdecode]

/-- INTERNAL: an unfinished frame with a complete header has an accepted one. -/
theorem header_of_more {limits : ProtocolLimits} (h : Admitted limits) {bytes : List UInt8}
    (hmore : frameVerdict limits bytes = .more) (hlen : frameHeaderSize ≤ bytes.length) :
    ∃ header, decodeFrameHeader bytes limits = .ok (.ok header) ∧
      bytes.length < header.frameSize.toNat := by
  obtain ⟨result, hresult⟩ := decodeFrameHeader_returns h bytes
  cases result with
  | error code =>
    rw [frameVerdict_bad_iff.mpr ⟨hlen, hresult⟩] at hmore
    cases hmore
  | ok header =>
    rw [frameVerdict_of_header hlen hresult] at hmore
    refine ⟨header, hresult, ?_⟩
    by_contra hlong
    rw [if_neg hlong] at hmore
    cases hmore

/-- INTERNAL: the second half of a round, as a verdict on all bytes at hand. -/
theorem completeFrame_verdict {limits : ProtocolLimits} (h : Admitted limits)
    {bytes buffer unread : List UInt8} {header : FrameHeader}
    (hbytes : buffer ++ unread = bytes) (hlen : frameHeaderSize ≤ bytes.length)
    (hdecode : decodeFrameHeader bytes limits = .ok (.ok header))
    (hle : buffer.length ≤ header.frameSize.toNat) (frames : List OwnedFrame) :
    completeFrame unread frames header { limits, buffer, currentHeader := some header } =
      match frameVerdict limits bytes with
      | .more => .ok (.stop (.ok frames)) (reading limits bytes)
      | .bad code => .ok (.stop (.error code)) (failedAt limits bytes code)
      | .item n view => .ok (.next (bytes.drop n) (frames ++ [view.owned])) (reading limits []) := by
  rw [completeFrame_eq hbytes hle, frameVerdict_of_header hlen hdecode]
  by_cases hshort : bytes.length < header.frameSize.toNat
  · rw [if_pos hshort, if_pos hshort, reading, cachedHeader_long hlen hdecode]
  · rw [if_neg hshort, if_neg hshort]
    have hverdict := frameVerdict_of_header hlen hdecode
    rw [if_neg hshort] at hverdict
    have htake := (frameFramer limits h).item_local [] hverdict
    rw [List.append_nil] at htake
    have hsize : (bytes.take header.frameSize.toNat).length = header.frameSize.toNat := by
      rw [List.length_take]
      omega
    have hparse := frameVerdict_whole_iff.mp (htake.trans (by rw [hsize]))
    simp only [hparse, reading, cachedHeader_short (show [].length < frameHeaderSize by decide)]

/-- INTERNAL: what a round does to a parser in the middle of a frame.  Its three outcomes
are the three verdicts on the buffer and the unread bytes.
SRC: stream_parser.cpp:34-97 -/
theorem pushRound_eq {limits : ProtocolLimits} (h : Admitted limits)
    {buffer unread : List UInt8} (hbuffer : frameVerdict limits buffer = .more)
    (frames : List OwnedFrame) :
    pushRound unread frames (reading limits buffer) =
      match frameVerdict limits (buffer ++ unread) with
      | .more => .ok (.stop (.ok frames)) (reading limits (buffer ++ unread))
      | .bad code => .ok (.stop (.error code)) (failedAt limits (buffer ++ unread) code)
      | .item n view => .ok (.next ((buffer ++ unread).drop n) (frames ++ [view.owned]))
          (reading limits []) := by
  unfold pushRound
  rw [Member.bind_ok (Member.get_apply _)]
  by_cases hlong : frameHeaderSize ≤ buffer.length
  · -- the header is cached: only the second half of the round runs
    obtain ⟨header, hdecode, hle⟩ := header_of_more h hbuffer hlong
    have hcached := cachedHeader_long hlong hdecode
    have hdecode' : decodeFrameHeader (buffer ++ unread) limits = .ok (.ok header) := by
      rw [decodeFrameHeader_append h hlong, hdecode]
    have hlen : frameHeaderSize ≤ (buffer ++ unread).length := by
      rw [List.length_append]
      omega
    simp only [reading, hcached]
    exact completeFrame_verdict h rfl hlen hdecode' hle.le frames
  · have hshort := Nat.lt_of_not_le hlong
    simp only [reading, cachedHeader_short hshort]
    rw [Member.bind_ok (refill_eq hshort.le (by decide)), Member.bind_ok (Member.get_apply _)]
    by_cases hlen : frameHeaderSize ≤ (buffer ++ unread).length
    · have htake : ((buffer ++ unread).take frameHeaderSize).length = frameHeaderSize := by
        rw [List.length_take]
        omega
      simp only [Member.ite_apply, htake, lt_irrefl, if_false, decodeFrameHeader_take h hlen]
      obtain ⟨result, hresult⟩ := decodeFrameHeader_returns h (buffer ++ unread)
      cases result with
      | error code =>
        rw [hresult, frameVerdict_bad_iff.mpr ⟨hlen, hresult⟩]
        rfl
      | ok header =>
        obtain ⟨size, rest, hlow, -, -, rfl⟩ := decodeFrameHeader_ok_iff.mp hresult
        rw [hresult, Member.bind_ok (Member.lift_ok _ _)]
        simp only
        rw [Member.bind_ok (Member.set_apply _ _)]
        exact completeFrame_verdict h (List.take_append_drop _ _) hlen hresult
          (htake.le.trans hlow) frames
    · have htake : (buffer ++ unread).take frameHeaderSize = buffer ++ unread :=
        List.take_of_length_le (Nat.le_of_not_le hlen)
      have hverdict : frameVerdict limits (buffer ++ unread) = .more :=
        if_pos (Nat.lt_of_not_le hlen)
      rw [hverdict, htake, cachedHeader_short (Nat.lt_of_not_le hlen), Member.ite_apply,
        if_pos (Nat.lt_of_not_le hlen)]
      rfl

/-! ## One push -/

/-- **The loop of a push cuts the buffer and the new bytes.**  Each round is one verdict; a
round that yields a frame leaves an empty buffer and fewer unread bytes.
SRC: stream_parser.cpp:33-100 -/
theorem pushLoop_eq {limits : ProtocolLimits} (h : Admitted limits) (rounds : ℕ) :
    ∀ (buffer unread : List UInt8) (frames : List OwnedFrame), unread.length < rounds →
      frameVerdict limits buffer = .more →
      pushLoop rounds unread frames (reading limits buffer) =
        match ((frameFramer limits h).split (buffer ++ unread)).failure with
        | none => .ok (.ok (frames ++
              ((frameFramer limits h).split (buffer ++ unread)).items.map FrameView.owned))
            (reading limits ((frameFramer limits h).split (buffer ++ unread)).rest)
        | some code => .ok (.error code)
            (failedAt limits ((frameFramer limits h).split (buffer ++ unread)).rest code) := by
  induction rounds with
  | zero =>
    intro buffer unread frames hrounds
    exact absurd hrounds (Nat.not_lt_zero _)
  | succ rounds ih =>
    intro buffer unread frames hrounds hbuffer
    unfold pushLoop
    rw [Member.bind_ok (Member.get_apply _), Member.ite_apply]
    by_cases hgo : unread ≠ [] ∨ (reading limits buffer).currentHeader.isSome = true
    · rw [if_pos hgo, Member.bind_apply, pushRound_eq h hbuffer]
      cases hverdict : frameVerdict limits (buffer ++ unread) with
      | more =>
        rw [Framer.split_more (F := frameFramer limits h) hverdict]
        simp only [Member.pure_apply, List.map_nil, List.append_nil]
      | bad code =>
        rw [Framer.split_bad (F := frameFramer limits h) hverdict]
        rfl
      | item n view =>
        have hexceeds := Framer.item_exceeds (F := frameFramer limits h) hbuffer hverdict
        have hsize := (frameFramer limits h).item_size hverdict
        rw [List.length_append] at hsize
        rw [Framer.split_item (F := frameFramer limits h) hverdict]
        have hnext := ih [] ((buffer ++ unread).drop n) (frames ++ [view.owned])
          (by rw [List.length_drop, List.length_append]; omega) (if_pos (by decide))
        rw [List.nil_append] at hnext
        simp only [hnext, List.map_cons, List.append_assoc, List.singleton_append]
    · obtain ⟨hunread, -⟩ := not_or.mp hgo
      rw [if_neg hgo, not_not.mp hunread, List.append_nil,
        Framer.split_more (F := frameFramer limits h) hbuffer]
      simp only [Member.pure_apply, List.map_nil, List.append_nil]

/-- **A push onto an unfinished frame.**
SRC: stream_parser.cpp:23-101 -/
theorem push_eq {limits : ProtocolLimits} (h : Admitted limits) {buffer : List UInt8}
    (hbuffer : frameVerdict limits buffer = .more) (bytes : List UInt8) :
    push bytes (reading limits buffer) =
      match ((frameFramer limits h).split (buffer ++ bytes)).failure with
      | none => .ok (.ok (((frameFramer limits h).split (buffer ++ bytes)).items.map
            FrameView.owned))
          (reading limits ((frameFramer limits h).split (buffer ++ bytes)).rest)
      | some code => .ok (.error code)
          (failedAt limits ((frameFramer limits h).split (buffer ++ bytes)).rest code) := by
  have hloop := pushLoop_eq h (bytes.length + 2) buffer bytes [] (by omega) hbuffer
  unfold push
  rw [Member.bind_ok (Member.get_apply _)]
  exact hloop

/-- A push onto a parser that has failed returns the error and changes nothing.
SRC: stream_parser.cpp:26-28 -/
theorem push_failed {parser : FrameStreamParser} {code : ParseErrorCode}
    (h : parser.failure = some code) (bytes : List UInt8) :
    push bytes parser = .ok (.error code) parser := by
  unfold push
  rw [Member.bind_ok (Member.get_apply _), h]
  rfl

/-- What `finish` answers for the bytes of an unfinished frame. -/
def finishVerdict (rest : List UInt8) : StreamFinishResult :=
  if rest = [] then .ok ()
  else if rest.length < frameHeaderSize then .error .truncatedHeader
  else .error .truncatedFrame

/-! ## Runs -/

/-- A constructed parser is reading an empty buffer, and its limits admit a header. -/
theorem make_eq_reading {limits : ProtocolLimits} {start : FrameStreamParser}
    (h : FrameStreamParser.make limits = .ok start) :
    Admitted limits ∧ start = reading limits [] := by
  unfold FrameStreamParser.make at h
  split_ifs at h with hlimits
  cases h
  exact ⟨Nat.le_of_not_lt hlimits, rfl⟩

theorem framesOf_cons (entry : Call × Reply) (trace : List (Call × Reply)) :
    framesOf (entry :: trace) = entry.2.frames ++ framesOf trace := rfl

/-- INTERNAL: a failed parser stays as it is and returns no frame. -/
theorem pushes_failed (parser : FrameStreamParser) {code : ParseErrorCode}
    (h : parser.failure = some code) (chunks : List (List UInt8)) :
    machine.final parser (chunks.map Call.push) = parser ∧
      framesOf (machine.trace parser (chunks.map Call.push)) = [] := by
  induction chunks with
  | nil => exact ⟨rfl, rfl⟩
  | cons chunk chunks ih =>
    have hperform : machine.perform (.push chunk) parser = (.pushed (.error code), parser) := by
      simp only [machine, FrameStreamParser.call, push_failed h]
    simp only [List.map_cons, Machine.final_cons, Machine.trace_cons, Machine.next,
      Machine.answer, hperform, framesOf, List.flatMap_cons, Reply.frames, List.nil_append]
    exact ih

/-- INTERNAL: a push onto an unfinished frame, as a call. -/
theorem perform_push {limits : ProtocolLimits} (h : Admitted limits) {buffer : List UInt8}
    (hbuffer : frameVerdict limits buffer = .more) (bytes : List UInt8) :
    machine.perform (.push bytes) (reading limits buffer) =
      match ((frameFramer limits h).split (buffer ++ bytes)).failure with
      | none => (.pushed (.ok (((frameFramer limits h).split (buffer ++ bytes)).items.map
            FrameView.owned)),
          reading limits ((frameFramer limits h).split (buffer ++ bytes)).rest)
      | some code => (.pushed (.error code),
          failedAt limits ((frameFramer limits h).split (buffer ++ bytes)).rest code) := by
  simp only [machine, FrameStreamParser.call, push_eq h hbuffer]
  cases ((frameFramer limits h).split (buffer ++ bytes)).failure <;> rfl

/-- What a run of pushes leaves: the state depends on all bytes together only.
SRC: stream_parser.cpp:23-101 -/
theorem final_pushes {limits : ProtocolLimits} (h : Admitted limits) {buffer : List UInt8}
    (hbuffer : frameVerdict limits buffer = .more) (chunks : List (List UInt8)) :
    machine.final (reading limits buffer) (chunks.map Call.push) =
      match ((frameFramer limits h).split (buffer ++ chunks.flatten)).failure with
      | none => reading limits ((frameFramer limits h).split (buffer ++ chunks.flatten)).rest
      | some code => failedAt limits
          ((frameFramer limits h).split (buffer ++ chunks.flatten)).rest code := by
  induction chunks generalizing buffer with
  | nil =>
    rw [List.flatten_nil, List.append_nil, Framer.split_more (F := frameFramer limits h) hbuffer]
    rfl
  | cons chunk chunks ih =>
    rw [List.map_cons, Machine.final_cons, List.flatten_cons, ← List.append_assoc, Machine.next,
      perform_push h hbuffer]
    cases hchunk : ((frameFramer limits h).split (buffer ++ chunk)).failure with
    | none =>
      rw [Framer.split_append_clean _ hchunk]
      exact ih (Framer.next_rest hchunk)
    | some code =>
      have hlen : frameHeaderSize ≤
          ((frameFramer limits h).split (buffer ++ chunk)).rest.length :=
        (frameVerdict_bad_iff.mp (Framer.next_rest_bad hchunk)).1
      have hfailed := (pushes_failed (failedAt limits
        ((frameFramer limits h).split (buffer ++ chunk)).rest code) rfl chunks).1
      rw [Framer.split_append_failed _ hchunk]
      simp only [hfailed]
      simp only [failedAt, List.take_append_of_le_length hlen]

/-- **What a run of pushes returns**: the frames that the library reader of chunks is given.
SRC: stream_parser.cpp:23-101 -/
theorem framesOf_pushes {limits : ProtocolLimits} (h : Admitted limits) {buffer : List UInt8}
    (hbuffer : frameVerdict limits buffer = .more) (chunks : List (List UInt8)) :
    framesOf (machine.trace (reading limits buffer) (chunks.map Call.push)) =
      ((frameFramer limits h).delivered buffer chunks).map FrameView.owned := by
  induction chunks generalizing buffer with
  | nil => rfl
  | cons chunk chunks ih =>
    unfold Framer.delivered
    rw [List.map_cons, Machine.trace_cons, framesOf_cons, Machine.next, Machine.answer,
      perform_push h hbuffer]
    cases hchunk : ((frameFramer limits h).split (buffer ++ chunk)).failure with
    | none =>
      rw [List.map_append]
      exact congrArg _ (ih (Framer.next_rest hchunk))
    | some code => exact (pushes_failed _ rfl chunks).2

/-- The answer of `finish` to a parser in the middle of a frame.
SRC: stream_parser.cpp:103-118 -/
theorem answer_finish_reading (limits : ProtocolLimits) (rest : List UInt8) :
    machine.answer .finish (reading limits rest) = .finished (finishVerdict rest) := by
  cases rest with
  | nil => rfl
  | cons byte rest =>
    simp only [machine, Machine.answer, FrameStreamParser.call, finish, Member.bind_apply,
      Member.get_apply, reading, finishVerdict, List.isEmpty_cons, Member.ite_apply,
      finishWithError, Member.set_apply, Member.pure_apply]
    split_ifs <;> simp_all

/-- The states of a parser: it is in the middle of a frame, or it has failed. -/
def StreamSound (limits : ProtocolLimits) (parser : FrameStreamParser) : Prop :=
  parser.limits = limits ∧
    (parser.failure.isSome = true ∨
      ∃ buffer, frameVerdict limits buffer = .more ∧ parser = reading limits buffer)

/-- INTERNAL: an empty buffer is the front of a frame. -/
theorem frameVerdict_nil (limits : ProtocolLimits) : frameVerdict limits [] = .more :=
  if_pos (by decide)

/-- INTERNAL: every call returns, and keeps the states of a parser. -/
theorem StreamSound.perform {limits : ProtocolLimits} (h : Admitted limits)
    {parser : FrameStreamParser} (hparser : StreamSound limits parser) (call : Call) :
    (∀ fault, machine.answer call parser ≠ .threw fault) ∧
      StreamSound limits (machine.next call parser) := by
  obtain ⟨hlimits, hstate⟩ := hparser
  cases call with
  | push bytes =>
    rcases hstate with hfailed | ⟨buffer, hbuffer, rfl⟩
    · obtain ⟨code, hcode⟩ := Option.isSome_iff_exists.mp hfailed
      have hperform : machine.perform (.push bytes) parser = (.pushed (.error code), parser) := by
        simp only [machine, FrameStreamParser.call, push_failed hcode]
      rw [Machine.answer, Machine.next, hperform]
      exact ⟨by simp, hlimits, Or.inl hfailed⟩
    · rw [Machine.answer, Machine.next, perform_push h hbuffer]
      cases hsplit : ((frameFramer limits h).split (buffer ++ bytes)).failure with
      | none => exact ⟨by simp, rfl, Or.inr ⟨_, Framer.next_rest hsplit, rfl⟩⟩
      | some code => exact ⟨by simp, rfl, Or.inl rfl⟩
  | finish =>
    rcases hstate with hfailed | ⟨buffer, hbuffer, rfl⟩
    · obtain ⟨code, hcode⟩ := Option.isSome_iff_exists.mp hfailed
      have hperform : machine.perform .finish parser = (.finished (.error code), parser) := by
        simp only [machine, FrameStreamParser.call, finish, Member.bind_apply, Member.get_apply,
          hcode, Member.pure_apply]
      rw [Machine.answer, Machine.next, hperform]
      exact ⟨by simp, hlimits, Or.inl hfailed⟩
    · rw [answer_finish_reading]
      refine ⟨by simp, ?_⟩
      cases buffer with
      | nil => exact ⟨rfl, Or.inr ⟨[], frameVerdict_nil limits, rfl⟩⟩
      | cons byte rest =>
        simp only [machine, Machine.next, FrameStreamParser.call, finish, Member.bind_apply,
          Member.get_apply, reading, List.isEmpty_cons, Member.ite_apply, finishWithError,
          Member.set_apply, Member.pure_apply]
        split_ifs <;> simp_all [StreamSound]
  | reset =>
    refine ⟨by simp [machine, Machine.answer, FrameStreamParser.call, reset, Member.bind_apply],
      hlimits, Or.inr ⟨[], frameVerdict_nil limits, ?_⟩⟩
    subst hlimits
    rfl

/-- **No call of a stream parser throws**, in any run of pushes, finishes and resets.
SRC: stream_parser.cpp:12-125 -/
theorem stream_calls_return {limits : ProtocolLimits} {start : FrameStreamParser}
    (hmake : FrameStreamParser.make limits = .ok start) (calls : List Call) :
    ∀ entry ∈ machine.trace start calls, ∀ fault, entry.2 ≠ .threw fault := by
  obtain ⟨h, rfl⟩ := make_eq_reading hmake
  exact Machine.trace_invariant (I := StreamSound limits)
    (P := fun _ reply => ∀ fault, reply ≠ .threw fault)
    (fun call _ hparser => (hparser.perform h call).2)
    (fun call _ hparser => (hparser.perform h call).1)
    ⟨rfl, Or.inr ⟨[], frameVerdict_nil limits, rfl⟩⟩ calls

end Tickline.Analysis
