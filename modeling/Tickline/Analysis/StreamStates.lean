import Tickline.Analysis.StreamParsing

/-!
# The states of a stream parser

What holds of a parser after every call, and at the head of every round of the loop of `push`.

* `BetweenCalls`: a parser that has not failed holds less than a header, or a header and less
  than its frame.
* `RoundExact`: in every round the two sizes still required are the exact differences, the
  complete frame parses, and a round that goes on has consumed bytes and emitted a frame.
* `stream_states`: both hold in every run of pushes, finishes and resets; a failure is kept
  until the reset, which leaves a fresh parser.
-/

set_option autoImplicit false

namespace Tickline.Analysis

open Tickline.Library Tickline.Model Tickline.Model.FrameStreamParser

/-! ## Rounds -/

/-- The rounds that a push makes: the bytes still unread, the frames so far and the parser.
SRC: stream_parser.cpp:33-98 -/
inductive RoundOf (parser : FrameStreamParser) (bytes : List UInt8) :
    List UInt8 → List OwnedFrame → FrameStreamParser → Prop
  | first (h : parser.failure = none) : RoundOf parser bytes bytes [] parser
  | next {unread unread' : List UInt8} {frames frames' : List OwnedFrame}
      {now now' : FrameStreamParser} (h : RoundOf parser bytes unread frames now)
      (hgo : unread ≠ [] ∨ now.currentHeader.isSome = true)
      (hround : pushRound unread frames now = .ok (.next unread' frames') now') :
      RoundOf parser bytes unread' frames' now'

/-- The point of a round at which the header is known and the rest of the frame is required.
SRC: stream_parser.cpp:35-66 -/
inductive FrameRefill (unread : List UInt8) (now : FrameStreamParser) (header : FrameHeader) :
    List UInt8 → FrameStreamParser → Prop
  | cached (h : now.currentHeader = some header) : FrameRefill unread now header unread now
  | decoded {rest : List UInt8} {filled : FrameStreamParser} (h : now.currentHeader = none)
      (hfill : refill unread frameHeaderSize now = .ok rest filled)
      (hlen : ¬ filled.buffer.length < frameHeaderSize)
      (hdecode : decodeFrameHeader filled.buffer filled.limits = .ok (.ok header)) :
      FrameRefill unread now header rest { filled with currentHeader := some header }

/-- A difference of sizes that does not wrap. -/
def ExactDifference (a b : ℕ) : Prop := b ≤ a ∧ sizeSub a b = a - b

/-- What holds in a round.
SRC: stream_parser.cpp:34-97 -/
structure RoundExact (unread : List UInt8) (frames : List OwnedFrame)
    (now : FrameStreamParser) : Prop where
  headerRequired : now.currentHeader = none → ExactDifference frameHeaderSize now.buffer.length
  frameRequired : ∀ header rest there, FrameRefill unread now header rest there →
    ExactDifference header.frameSize.toNat there.buffer.length
  parses : ∀ header rest there rest' filled, FrameRefill unread now header rest there →
    refill rest header.frameSize.toNat there = .ok rest' filled →
    ¬ filled.buffer.length < header.frameSize.toNat →
    ∃ view, parseFrame filled.buffer filled.limits = .ok (.ok view)
  progress : ∀ unread' frames' now',
    pushRound unread frames now = .ok (.next unread' frames') now' →
    unread'.length < unread.length ∧ ∃ frame, frames' = frames ++ [frame]

/-- A parser between two calls, when it has not failed. -/
def BetweenCalls (parser : FrameStreamParser) : Prop :=
  (parser.currentHeader = none ∧ parser.buffer.length < frameHeaderSize) ∨
    ∃ header, parser.currentHeader = some header ∧
      decodeFrameHeader (parser.buffer.take frameHeaderSize) parser.limits =
        .ok (.ok header) ∧
      frameHeaderSize ≤ parser.buffer.length ∧ parser.buffer.length < header.frameSize.toNat

section Reading

variable {limits : ProtocolLimits} {buffer : List UInt8}

/-- An accepted header declares a size between the header's and the limit.
SRC: frame_parser.cpp:81-91 -/
theorem frameSize_bounds {bytes : List UInt8} {header : FrameHeader}
    (hdecode : decodeFrameHeader bytes limits = .ok (.ok header)) :
    frameHeaderSize ≤ header.frameSize.toNat ∧
      header.frameSize.toNat ≤ limits.maximumFrameSize.toNat := by
  obtain ⟨size, rest, hlow, hhigh, -, rfl⟩ := decodeFrameHeader_ok_iff.mp hdecode
  exact ⟨hlow, hhigh⟩

/-- A parser in the middle of a frame. -/
theorem reading_between (h : Admitted limits) (hmore : frameVerdict limits buffer = .more) :
    BetweenCalls (reading limits buffer) := by
  by_cases hlong : frameHeaderSize ≤ buffer.length
  · obtain ⟨header, hdecode, hle⟩ := header_of_more h hmore hlong
    refine Or.inr ⟨header, cachedHeader_long hlong hdecode, ?_, hlong, hle⟩
    exact (decodeFrameHeader_take h hlong).trans hdecode
  · have hshort := Nat.lt_of_not_le hlong
    exact Or.inl ⟨cachedHeader_short hshort, hshort⟩

/-- Its buffer is within the limit. -/
theorem BetweenCalls.bounded {parser : FrameStreamParser} (h : BetweenCalls parser)
    (hadmitted : Admitted parser.limits) :
    parser.buffer.length ≤ parser.limits.maximumFrameSize.toNat := by
  rcases h with ⟨-, hshort⟩ | ⟨header, -, hdecode, -, hle⟩
  · exact hshort.le.trans hadmitted
  · exact hle.le.trans (frameSize_bounds hdecode).2

/-- A round reads the size of its frame from the buffer and the unread bytes together. -/
theorem FrameRefill.spec (h : Admitted limits) (hmore : frameVerdict limits buffer = .more)
    {unread rest : List UInt8} {header : FrameHeader} {there : FrameStreamParser}
    (hrefill : FrameRefill unread (reading limits buffer) header rest there) :
    there.limits = limits ∧ there.buffer ++ rest = buffer ++ unread ∧
      frameHeaderSize ≤ (buffer ++ unread).length ∧
      decodeFrameHeader (buffer ++ unread) limits = .ok (.ok header) ∧
      there.buffer.length ≤ header.frameSize.toNat := by
  cases hrefill with
  | cached hcached =>
    rcases reading_between h hmore with ⟨hnone, -⟩ | ⟨header', hsome, hdecode, hlong, hle⟩
    · rw [hnone] at hcached
      cases hcached
    · obtain rfl : header' = header := Option.some.inj (hsome.symm.trans hcached)
      have hdecode' : decodeFrameHeader buffer limits = .ok (.ok header') :=
        (decodeFrameHeader_take h hlong).symm.trans hdecode
      refine ⟨rfl, rfl, ?_, ?_, hle.le⟩
      · rw [List.length_append]
        exact Nat.le_add_right_of_le hlong
      · exact (decodeFrameHeader_append h hlong unread).trans hdecode'
  | decoded hnone hfill hlen hdecode =>
    rcases reading_between h hmore with ⟨-, hshort⟩ | ⟨header', hsome, -⟩
    · rw [refill_eq hshort.le (by decide)] at hfill
      cases hfill
      have hlong : frameHeaderSize ≤ (buffer ++ unread).length := by
        have htake := Nat.le_of_not_lt hlen
        simp only [reading, List.length_take] at htake
        omega
      have hdecode' := (decodeFrameHeader_take h hlong).symm.trans hdecode
      refine ⟨rfl, List.take_append_drop _ _, hlong, hdecode', ?_⟩
      exact (List.length_take_le _ _).trans (frameSize_bounds hdecode').1
    · rw [hsome] at hnone
      cases hnone

/-- A complete frame with an accepted header parses.
SRC: frame_parser.cpp:112-137 -/
theorem parseFrame_complete (h : Admitted limits) {bytes : List UInt8} {header : FrameHeader}
    (hlen : frameHeaderSize ≤ bytes.length)
    (hdecode : decodeFrameHeader bytes limits = .ok (.ok header))
    (hcomplete : header.frameSize.toNat ≤ bytes.length) :
    ∃ view, parseFrame (bytes.take header.frameSize.toNat) limits = .ok (.ok view) := by
  have hverdict := frameVerdict_of_header hlen hdecode
  rw [if_neg (Nat.not_lt.mpr hcomplete)] at hverdict
  have htake := (frameFramer limits h).item_local [] hverdict
  rw [List.append_nil] at htake
  have hsize : (bytes.take header.frameSize.toNat).length = header.frameSize.toNat :=
    List.length_take_of_le hcomplete
  exact ⟨_, frameVerdict_whole_iff.mp (htake.trans (by rw [hsize]))⟩

/-- A difference of sizes in range is exact. -/
theorem exactDifference {a b : ℕ} (h : b ≤ a) (ha : a < 2 ^ 64) : ExactDifference a b := by
  refine ⟨h, ?_⟩
  unfold sizeSub
  omega

/-- A round that goes on has emitted a frame and starts the next one.
SRC: stream_parser.cpp:84-97 -/
theorem pushRound_next (h : Admitted limits) (hmore : frameVerdict limits buffer = .more)
    {unread unread' : List UInt8} {frames frames' : List OwnedFrame} {now' : FrameStreamParser}
    (hround : pushRound unread frames (reading limits buffer) =
      .ok (.next unread' frames') now') :
    now' = reading limits [] ∧ unread'.length < unread.length ∧
      ∃ frame, frames' = frames ++ [frame] := by
  rw [pushRound_eq h hmore] at hround
  cases hverdict : frameVerdict limits (buffer ++ unread) with
  | more => simp [hverdict] at hround
  | bad code => simp [hverdict] at hround
  | item n view =>
    have hexceeds := Framer.item_exceeds (F := frameFramer limits h) hmore hverdict
    have hbound := (frameFramer limits h).item_size hverdict
    simp only [hverdict] at hround
    cases hround
    rw [List.length_append] at hbound
    refine ⟨rfl, ?_, view.owned, rfl⟩
    rw [List.length_drop, List.length_append]
    omega

/-- **A round from the middle of a frame.**
SRC: stream_parser.cpp:34-97 -/
theorem roundExact (h : Admitted limits) (hmore : frameVerdict limits buffer = .more)
    (unread : List UInt8) (frames : List OwnedFrame) :
    RoundExact unread frames (reading limits buffer) := by
  have hsize : ∀ header : FrameHeader, header.frameSize.toNat < 2 ^ 64 := fun header =>
    Nat.lt_of_lt_of_le header.frameSize.toNat_lt (by decide)
  refine ⟨?_, ?_, ?_, ?_⟩
  · intro hnone
    rcases reading_between h hmore with ⟨-, hshort⟩ | ⟨header, hsome, -⟩
    · exact exactDifference hshort.le (by decide)
    · rw [hsome] at hnone
      cases hnone
  · intro header rest there hrefill
    exact exactDifference (hrefill.spec h hmore).2.2.2.2 (hsize header)
  · intro header rest there rest' filled hrefill hfill hfull
    obtain ⟨hlimits, hbytes, hlen, hdecode, hle⟩ := hrefill.spec h hmore
    rw [refill_eq hle (hsize header), hbytes] at hfill
    cases hfill
    simp only [List.length_take, Nat.not_lt] at hfull
    rw [hlimits]
    exact parseFrame_complete h hlen hdecode (hfull.trans (Nat.min_le_right _ _))
  · intro unread' frames' now' hround
    exact (pushRound_next h hmore hround).2

/-- Every round of a push starts in the middle of a frame. -/
theorem RoundOf.reading (h : Admitted limits) {parser now : FrameStreamParser}
    {bytes unread : List UInt8} {frames : List OwnedFrame}
    (hparser : StreamSound limits parser) (hround : RoundOf parser bytes unread frames now) :
    ∃ buffer, frameVerdict limits buffer = .more ∧ now = Analysis.reading limits buffer := by
  induction hround with
  | first hunfailed =>
    rcases hparser.2 with hfailed | hreading
    · rw [hunfailed] at hfailed
      cases hfailed
    · exact hreading
  | next hbefore hgo hnext ih =>
    obtain ⟨buffer, hmore, rfl⟩ := ih
    exact ⟨[], frameVerdict_nil limits, (pushRound_next h hmore hnext).1⟩

end Reading

/-! ## Runs -/

/-- What every state of a parser has: its limits, a bounded buffer, and the middle of a frame
unless it failed. -/
structure ParserState (limits : ProtocolLimits) (parser : FrameStreamParser) : Prop where
  sound : StreamSound limits parser
  bounded : parser.buffer.length ≤ limits.maximumFrameSize.toNat

/-- A parser that has not failed is between two calls. -/
theorem ParserState.between {limits : ProtocolLimits} (h : Admitted limits)
    {parser : FrameStreamParser} (hstate : ParserState limits parser)
    (hunfailed : parser.failure = none) : BetweenCalls parser := by
  rcases hstate.sound.2 with hfailed | ⟨buffer, hmore, rfl⟩
  · rw [hunfailed] at hfailed
    cases hfailed
  · exact reading_between h hmore

/-- The error that a call answered with. -/
def errorOf : Reply → Option ParseErrorCode
  | .pushed (.error code) | .finished (.error code) => some code
  | _ => none

/-- `finish` in the middle of a frame: the verdict, which an error leaves behind.
SRC: stream_parser.cpp:103-118 -/
theorem perform_finish (limits : ProtocolLimits) (rest : List UInt8) :
    machine.perform .finish (reading limits rest) =
      (.finished (finishVerdict rest),
        { reading limits rest with failure := errorOf (.finished (finishVerdict rest)) }) := by
  cases rest with
  | nil => rfl
  | cons byte rest =>
    simp only [machine, FrameStreamParser.call, finish, Member.bind_apply, Member.get_apply,
      reading, finishVerdict, List.isEmpty_cons, Member.ite_apply, finishWithError,
      Member.set_apply, Member.pure_apply, List.length_cons]
    by_cases hshort : rest.length + 1 < frameHeaderSize
    · simp [hshort, errorOf]
    · simp [hshort, errorOf]

/-- A failed parser answers its error to every call but `reset`, and stays as it is.
SRC: stream_parser.cpp:26-28, 103-107 -/
theorem perform_failed {parser : FrameStreamParser} {code : ParseErrorCode}
    (hfailed : parser.failure = some code) {call : Call} (hcall : call ≠ .reset) :
    machine.next call parser = parser ∧ errorOf (machine.answer call parser) = some code := by
  cases call with
  | push bytes =>
    simp only [machine, Machine.next, Machine.answer, FrameStreamParser.call,
      push_failed hfailed, errorOf, and_self]
  | finish =>
    simp only [machine, Machine.next, Machine.answer, FrameStreamParser.call, finish,
      Member.bind_apply, Member.get_apply, hfailed, Member.pure_apply, errorOf, and_self]
  | reset => exact absurd rfl hcall

/-- The error of a call is the failure of the parser after it. -/
theorem failure_next {limits : ProtocolLimits} (h : Admitted limits)
    {parser : FrameStreamParser} (hparser : StreamSound limits parser) {call : Call}
    (hcall : call ≠ .reset) :
    (machine.next call parser).failure = errorOf (machine.answer call parser) := by
  rcases hparser.2 with hfailed | ⟨buffer, hmore, rfl⟩
  · obtain ⟨code, hcode⟩ := Option.isSome_iff_exists.mp hfailed
    obtain ⟨hnext, hanswer⟩ := perform_failed hcode hcall
    rw [hnext, hanswer, hcode]
  · cases call with
    | push bytes =>
      rw [Machine.next, Machine.answer, perform_push h hmore]
      cases ((frameFramer limits h).split (buffer ++ bytes)).failure with
      | none => rfl
      | some code => rfl
    | finish => rw [Machine.next, Machine.answer, perform_finish]
    | reset => exact absurd rfl hcall

/-- A reset parser is the constructed one.
SRC: stream_parser.cpp:120-125 -/
theorem next_reset {limits : ProtocolLimits} {parser : FrameStreamParser}
    (hlimits : parser.limits = limits) : machine.next .reset parser = reading limits [] := by
  subst hlimits
  rfl

/-- Every call keeps the states of a parser. -/
theorem ParserState.next {limits : ProtocolLimits} (h : Admitted limits)
    {parser : FrameStreamParser} (hstate : ParserState limits parser) (call : Call) :
    ParserState limits (machine.next call parser) := by
  refine ⟨(hstate.sound.perform h call).2, ?_⟩
  by_cases hcall : call = .reset
  · rw [hcall, next_reset hstate.sound.1]
    exact Nat.zero_le _
  rcases hstate.sound.2 with hfailed | ⟨buffer, hmore, rfl⟩
  · obtain ⟨code, hcode⟩ := Option.isSome_iff_exists.mp hfailed
    rw [(perform_failed hcode hcall).1]
    exact hstate.bounded
  · cases call with
    | push bytes =>
      rw [Machine.next, perform_push h hmore]
      cases hsplit : ((frameFramer limits h).split (buffer ++ bytes)).failure with
      | none => exact (reading_between h (Framer.next_rest hsplit)).bounded h
      | some code => exact (List.length_take_le _ _).trans h
    | finish =>
      rw [Machine.next, perform_finish]
      exact hstate.bounded
    | reset => exact absurd rfl hcall

/-- A failure is kept over calls without a reset. -/
theorem run_failed {parser : FrameStreamParser} {code : ParseErrorCode}
    (hfailed : parser.failure = some code) {calls : List Call} (hcalls : .reset ∉ calls) :
    machine.final parser calls = parser ∧
      ∀ entry ∈ machine.trace parser calls, errorOf entry.2 = some code := by
  induction calls with
  | nil => exact ⟨rfl, by simp⟩
  | cons call calls ih =>
    obtain ⟨hcall, hrest⟩ := not_or.mp (fun hmem => hcalls (List.mem_cons.mpr hmem))
    obtain ⟨hnext, hanswer⟩ := perform_failed hfailed (Ne.symm hcall)
    rw [Machine.final_cons, Machine.trace_cons, hnext]
    exact ⟨(ih hrest).1, List.forall_mem_cons.mpr ⟨hanswer, (ih hrest).2⟩⟩

/-- **The states of a stream parser**, after any run of pushes, finishes and resets.  Every push
returns, and its rounds are exact.
SRC: stream_parser.cpp:12-160 -/
theorem stream_states {limits : ProtocolLimits} {start : FrameStreamParser}
    (hmake : FrameStreamParser.make limits = .ok start) (calls : List Call)
    {parser : FrameStreamParser} (hparser : machine.final start calls = parser) :
    parser.buffer.length ≤ limits.maximumFrameSize.toNat ∧
      (parser.failure = none → BetweenCalls parser) ∧
      (∀ bytes unread frames now, RoundOf parser bytes unread frames now →
        RoundExact unread frames now) ∧
      (∀ bytes, ∃ result parser', push bytes parser = .ok result parser') ∧
      (∀ call, call ≠ .reset →
        (machine.next call parser).failure = errorOf (machine.answer call parser)) ∧
      (∀ code, parser.failure = some code → ∀ later, .reset ∉ later →
        machine.final parser later = parser ∧
          ∀ entry ∈ machine.trace parser later, errorOf entry.2 = some code) ∧
      machine.next .reset parser = start := by
  obtain ⟨h, rfl⟩ := make_eq_reading hmake
  have hstate : ParserState limits parser := by
    rw [← hparser]
    exact Machine.final_invariant (I := ParserState limits) (fun call _ hstate => hstate.next h call)
      ⟨⟨rfl, Or.inr ⟨[], frameVerdict_nil limits, rfl⟩⟩, Nat.zero_le _⟩ calls
  refine ⟨hstate.bounded, hstate.between h, ?_, ?_, fun call => failure_next h hstate.sound,
    fun code hfailed later => run_failed hfailed, next_reset hstate.sound.1⟩
  · intro bytes unread frames now hround
    obtain ⟨buffer, hmore, rfl⟩ := hround.reading h hstate.sound
    exact roundExact h hmore unread frames
  · intro bytes
    have hreturns := (hstate.sound.perform h (.push bytes)).1
    cases hpush : push bytes parser with
    | ok result parser' => exact ⟨result, parser', rfl⟩
    | error fault parser' =>
      exact absurd (by simp only [machine, Machine.answer, FrameStreamParser.call, hpush])
        (hreturns fault)

/-- A parser that was pushed a malformed header. -/
theorem stream_states_sample :
    machine.next .reset (machine.final (reading { maximumFrameSize := 16 } [])
        [.push (List.replicate 16 0), .finish]) =
      reading { maximumFrameSize := 16 } [] := by
  have hmake : FrameStreamParser.make { maximumFrameSize := 16 } =
      .ok (reading { maximumFrameSize := 16 } []) := rfl
  exact (stream_states hmake [.push (List.replicate 16 0), .finish] rfl).2.2.2.2.2.2

end Tickline.Analysis
