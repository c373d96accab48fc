import Tickline.Analysis.StreamParsing

/-!
# Transport chunks

How the cutting of a byte sequence into pushes shows in what a caller of the incremental
parser sees.

* For a sequence of frames that the strict parser accepts, with an unfinished one behind
  them, it does not show (`stream_agrees_with_strict`).
* With a malformed header in the sequence the failure and the answer of `finish` still do
  not depend on the cutting, but the frames do: those complete in the chunk that completes
  the header are dropped.  `chunking_invisible_iff` says which cuttings drop none, and
  `chunking_visible` is a sequence of two headers where one cutting does.
-/

set_option autoImplicit false

namespace Tickline.Analysis

open Tickline.Library Tickline.Model Tickline.Model.FrameStreamParser

/-- The strict parser's reading of a list of frames. -/
def ParsedAs (limits : ProtocolLimits) (frames : List (List UInt8)) (views : List FrameView) :
    Prop :=
  List.Forall₂ (fun frame view => parseFrame frame limits = .ok (.ok view)) frames views

/-- A complete header that the decoder refuses. -/
def Malformed (limits : ProtocolLimits) (header : List UInt8) : Prop :=
  header.length = frameHeaderSize ∧
    ∃ code, decodeFrameHeader header limits = .ok (.error code)

/-- The bytes are accepted frames, then a malformed header, then anything. -/
structure MalformedAfter (limits : ProtocolLimits) (bytes : List UInt8)
    (frames : List (List UInt8)) (views : List FrameView) : Prop where
  parsed : ParsedAs limits frames views
  malformed : ∃ header tail, Malformed limits header ∧ bytes = frames.flatten ++ header ++ tail

/-! ## Cutting a stream of frames -/

/-- INTERNAL: accepted frames are items of the framer. -/
theorem ParsedAs.items {limits : ProtocolLimits} (h : Admitted limits)
    {frames : List (List UInt8)} {views : List FrameView} (hparsed : ParsedAs limits frames views) :
    List.Forall₂ (fun frame view => (frameFramer limits h).next frame = .item frame.length view)
      frames views :=
  hparsed.imp fun _ _ hparse => frameVerdict_whole_iff.mpr hparse

/-- INTERNAL: the cut of a sequence with a malformed header. -/
theorem MalformedAfter.split {limits : ProtocolLimits} (h : Admitted limits) {bytes : List UInt8}
    {frames : List (List UInt8)} {views : List FrameView}
    (hafter : MalformedAfter limits bytes frames views) :
    ∃ code, ((frameFramer limits h).split bytes).failure = some code ∧
      ((frameFramer limits h).split bytes).items = views ∧
      bytes = frames.flatten ++ ((frameFramer limits h).split bytes).rest := by
  obtain ⟨hparsed, header, tail, ⟨hlen, code, hcode⟩, rfl⟩ := hafter
  have hbad : (frameFramer limits h).next (header ++ tail) = .bad code := by
    apply (frameFramer limits h).bad_append
    exact frameVerdict_bad_iff.mpr ⟨hlen.ge, hcode⟩
  refine ⟨code, ?_⟩
  rw [List.append_assoc, Framer.split_items (hparsed.items h), Framer.split_bad hbad]
  simp

/-- INTERNAL: a cut that fails comes from a malformed header. -/
theorem malformedAfter_of_split {limits : ProtocolLimits} (h : Admitted limits)
    {bytes : List UInt8} {code : ParseErrorCode}
    (hfailure : ((frameFramer limits h).split bytes).failure = some code) :
    ∃ frames, MalformedAfter limits bytes frames ((frameFramer limits h).split bytes).items := by
  obtain ⟨frames, hframes, hbytes⟩ := (frameFramer limits h).exists_parts bytes
  have hbad := frameVerdict_bad_iff.mp (Framer.next_rest_bad hfailure)
  refine ⟨frames, ?_, ((frameFramer limits h).split bytes).rest.take frameHeaderSize,
    ((frameFramer limits h).split bytes).rest.drop frameHeaderSize, ⟨?_, code, ?_⟩, ?_⟩
  · exact hframes.imp fun _ _ hitem => frameVerdict_whole_iff.mp hitem
  · rw [List.length_take]
    omega
  · rw [decodeFrameHeader_take h hbad.1, hbad.2]
  · rw [List.append_assoc, List.take_append_drop]
    exact hbytes

/-- INTERNAL: a prefix of a malformed sequence has yielded all its frames and not met the
header exactly when it ends inside the header. -/
theorem prefix_complete_iff {limits : ProtocolLimits} (h : Admitted limits)
    {front back : List UInt8} {frames : List (List UInt8)} {views : List FrameView}
    (hafter : MalformedAfter limits (front ++ back) frames views) :
    (((frameFramer limits h).split front).failure = none ∧
        ((frameFramer limits h).split front).items = views) ↔
      frames.flatten.length ≤ front.length ∧
        front.length < frames.flatten.length + frameHeaderSize := by
  obtain ⟨code, hfailure, hviews, hbytes⟩ := hafter.split h
  have hbad := frameVerdict_bad_iff.mp (Framer.next_rest_bad hfailure)
  have hlength := congrArg List.length hbytes
  rw [List.length_append, List.length_append] at hlength
  constructor
  · rintro ⟨hclean, hitems⟩
    have hrest := Framer.rest_of_prefix hclean (hitems.trans hviews.symm)
    have hshort : ((frameFramer limits h).split front).rest.length < frameHeaderSize := by
      by_contra hlong
      have hlong' := Nat.le_of_not_lt hlong
      obtain ⟨header, hheader, -⟩ := header_of_more h (Framer.next_rest hclean) hlong'
      rw [hrest, decodeFrameHeader_append h hlong', hheader] at hbad
      cases hbad.2
    rw [hrest, List.length_append] at hlength
    omega
  · rintro ⟨hlow, hhigh⟩
    have hfront : front = frames.flatten ++
        ((frameFramer limits h).split (front ++ back)).rest.take
          (front.length - frames.flatten.length) := by
      have htake := congrArg (List.take front.length) hbytes
      rw [List.take_left, List.take_append, List.take_of_length_le hlow] at htake
      exact htake
    have hshort : (((frameFramer limits h).split (front ++ back)).rest.take
        (front.length - frames.flatten.length)).length < frameHeaderSize := by
      rw [List.length_take]
      omega
    rw [hfront, Framer.split_items (hafter.parsed.items h),
      Framer.split_more (F := frameFramer limits h) (if_pos hshort)]
    simp

/-! ## The condition on a cutting -/

/-- The cutting loses no frame: behind the frames that precede a malformed header, if there
are any, some chunk ends before the header is complete. -/
def KeepsFrames (limits : ProtocolLimits) (chunks : List (List UInt8)) : Prop :=
  ∀ frames views, MalformedAfter limits chunks.flatten frames views →
    frames = [] ∨ ∃ k, frames.flatten.length ≤ (chunks.take k).flatten.length ∧
      (chunks.take k).flatten.length < frames.flatten.length + frameHeaderSize

/-- INTERNAL: the condition in the words of the framer. -/
theorem delivered_eq_iff_keepsFrames {limits : ProtocolLimits} (h : Admitted limits)
    {chunks : List (List UInt8)} {frames : List (List UInt8)} {views : List FrameView}
    (hafter : MalformedAfter limits chunks.flatten frames views) :
    (frameFramer limits h).delivered [] chunks = views ↔
      frames = [] ∨ ∃ k, frames.flatten.length ≤ (chunks.take k).flatten.length ∧
        (chunks.take k).flatten.length < frames.flatten.length + frameHeaderSize := by
  obtain ⟨code, hfailure, hviews, -⟩ := hafter.split h
  have hfailure' : ((frameFramer limits h).split ([] ++ chunks.flatten)).failure = some code := by
    rw [List.nil_append]
    exact hfailure
  have hiff := Framer.delivered_eq_iff (frameVerdict_nil limits) hfailure'
  simp only [List.nil_append, hviews] at hiff
  rw [hiff]
  have hnil : views = [] ↔ frames = [] := by
    have hlen := hafter.parsed.length_eq
    rw [← List.length_eq_zero_iff, ← List.length_eq_zero_iff, hlen]
  rw [hnil]
  apply or_congr_right
  apply exists_congr
  intro k
  have hsplit : chunks.flatten = (chunks.take k).flatten ++ (chunks.drop k).flatten := by
    rw [← List.flatten_append, List.take_append_drop]
  rw [hsplit] at hafter
  exact prefix_complete_iff h hafter

/-! ## The cutting of malformed streams -/

/-- The two cuttings of one byte sequence cannot be told apart by the caller: the same frames
in all, among them every frame before a malformed header, the same failure and the same
answer of `finish`. -/
structure ChunkingInvisible (limits : ProtocolLimits) (start : FrameStreamParser)
    (chunks chunks' : List (List UInt8)) : Prop where
  frames : framesOf (machine.trace start (chunks.map Call.push)) =
    framesOf (machine.trace start (chunks'.map Call.push))
  failure : (machine.final start (chunks.map Call.push)).failure =
    (machine.final start (chunks'.map Call.push)).failure
  failed : (machine.final start (chunks.map Call.push)).failed =
    (machine.final start (chunks'.map Call.push)).failed
  finish : machine.answer .finish (machine.final start (chunks.map Call.push)) =
    machine.answer .finish (machine.final start (chunks'.map Call.push))
  delivered : ∀ frames views, MalformedAfter limits chunks.flatten frames views →
    framesOf (machine.trace start (chunks.map Call.push)) = views.map FrameView.owned ∧
    framesOf (machine.trace start (chunks'.map Call.push)) = views.map FrameView.owned

/-- INTERNAL: copying a frame out of the buffer loses nothing. -/
theorem owned_injective : Function.Injective FrameView.owned := by
  rintro ⟨header, payload⟩ ⟨header', payload'⟩ h
  simpa [FrameView.owned] using h

/-- **When the cutting into chunks does not show**: exactly when neither cutting completes a
malformed header in the chunk that completes the frame before it.
SRC: stream_parser.cpp:23-118, 148-153 -/
theorem chunking_invisible_iff {limits : ProtocolLimits} {start : FrameStreamParser}
    (hmake : FrameStreamParser.make limits = .ok start) {chunks chunks' : List (List UInt8)}
    (hsame : chunks.flatten = chunks'.flatten) :
    ChunkingInvisible limits start chunks chunks' ↔
      KeepsFrames limits chunks ∧ KeepsFrames limits chunks' := by
  obtain ⟨h, rfl⟩ := make_eq_reading hmake
  have hnil := frameVerdict_nil limits
  have hframes := framesOf_pushes h hnil chunks
  have hframes' := framesOf_pushes h hnil chunks'
  constructor
  · intro hinvisible
    constructor
    · intro frames views hafter
      have hall := (hinvisible.delivered frames views hafter).1
      rw [hframes] at hall
      exact (delivered_eq_iff_keepsFrames h hafter).mp
        (List.map_injective_iff.mpr owned_injective hall)
    · intro frames views hafter
      have hall := (hinvisible.delivered frames views (hsame ▸ hafter)).2
      rw [hframes'] at hall
      exact (delivered_eq_iff_keepsFrames h hafter).mp
        (List.map_injective_iff.mpr owned_injective hall)
  · rintro ⟨hkeeps, hkeeps'⟩
    have hfinal : machine.final (reading limits []) (chunks.map Call.push) =
        machine.final (reading limits []) (chunks'.map Call.push) := by
      rw [final_pushes h hnil, final_pushes h hnil, hsame]
    have hdelivered : ∀ frames views, MalformedAfter limits chunks.flatten frames views →
        framesOf (machine.trace (reading limits []) (chunks.map Call.push)) =
          views.map FrameView.owned ∧
        framesOf (machine.trace (reading limits []) (chunks'.map Call.push)) =
          views.map FrameView.owned := by
      intro frames views hafter
      have hafter' : MalformedAfter limits chunks'.flatten frames views := hsame ▸ hafter
      rw [hframes, hframes',
        (delivered_eq_iff_keepsFrames h hafter).mpr (hkeeps frames views hafter),
        (delivered_eq_iff_keepsFrames h hafter').mpr (hkeeps' frames views hafter')]
      exact ⟨rfl, rfl⟩
    refine ⟨?_, by rw [hfinal], by rw [hfinal], by rw [hfinal], hdelivered⟩
    cases hfailure : ((frameFramer limits h).split chunks.flatten).failure with
    | some code =>
      obtain ⟨frames, hafter⟩ := malformedAfter_of_split h hfailure
      obtain ⟨hall, hall'⟩ := hdelivered frames _ hafter
      rw [hall, hall']
    | none =>
      have hfailure' : ((frameFramer limits h).split chunks'.flatten).failure = none :=
        hsame ▸ hfailure
      rw [hframes, hframes', Framer.delivered_clean hnil hfailure,
        Framer.delivered_clean hnil hfailure', List.nil_append, List.nil_append, hsame]

/-- A frame without payload, pushed whole and pushed byte by byte. -/
theorem chunking_invisible_iff_bytewise :
    ChunkingInvisible {} { limits := {} } [frameHeaderBytes 16]
        ((frameHeaderBytes 16).map fun byte => [byte]) ↔
      KeepsFrames {} [frameHeaderBytes 16] ∧
        KeepsFrames {} ((frameHeaderBytes 16).map fun byte => [byte]) :=
  chunking_invisible_iff (show FrameStreamParser.make {} = .ok { limits := {} } from rfl)
    (by decide)

/-- A frame without payload and a header of zeros: pushed in one chunk, the frame is lost;
pushed header by header, it is delivered. -/
theorem chunking_visible :
    FrameStreamParser.make {} = .ok { limits := {} } ∧
      [frameHeaderBytes 16 ++ List.replicate 16 0].flatten =
        [frameHeaderBytes 16, List.replicate 16 0].flatten ∧
      ¬ ChunkingInvisible {} { limits := {} } [frameHeaderBytes 16 ++ List.replicate 16 0]
        [frameHeaderBytes 16, List.replicate 16 0] := by
  refine ⟨rfl, rfl, ?_⟩
  intro hinvisible
  have hframes := hinvisible.frames
  revert hframes
  decide +kernel

/-! ## The cutting of well-formed streams -/

/-- INTERNAL: pushes that meet no error all return frames. -/
theorem pushes_ok {limits : ProtocolLimits} (h : Admitted limits) {buffer : List UInt8}
    (hbuffer : frameVerdict limits buffer = .more) {chunks : List (List UInt8)}
    (hclean : ((frameFramer limits h).split (buffer ++ chunks.flatten)).failure = none) :
    ∀ entry ∈ machine.trace (reading limits buffer) (chunks.map Call.push),
      ∃ frames, entry.2 = .pushed (.ok frames) := by
  induction chunks generalizing buffer with
  | nil => simp
  | cons chunk chunks ih =>
    rw [List.flatten_cons, ← List.append_assoc] at hclean
    rw [List.map_cons, Machine.trace_cons, Machine.next, Machine.answer, perform_push h hbuffer]
    cases hchunk : ((frameFramer limits h).split (buffer ++ chunk)).failure with
    | some code =>
      rw [Framer.split_append_failed _ hchunk] at hclean
      cases hclean
    | none =>
      rw [Framer.split_append_clean _ hchunk] at hclean
      intro entry hentry
      rcases List.mem_cons.mp hentry with rfl | hentry
      · exact ⟨_, rfl⟩
      · exact ih (Framer.next_rest hchunk) hclean entry hentry

/-- INTERNAL: a proper prefix of an accepted frame is the front of a frame. -/
theorem frameVerdict_proper_prefix {limits : ProtocolLimits} {part whole : List UInt8}
    {view : FrameView} (hwhole : parseFrame whole limits = .ok (.ok view)) (hfront : part <+: whole)
    (hproper : part ≠ whole) : frameVerdict limits part = .more := by
  have h := admitted_of_parseFrame hwhole
  have hitem := frameVerdict_whole_iff.mpr hwhole
  obtain ⟨tail, rfl⟩ := hfront
  cases hpart : frameVerdict limits part with
  | more => rfl
  | bad code =>
    have hbad := (frameFramer limits h).bad_append tail hpart
    rw [show (frameFramer limits h).next (part ++ tail) = _ from hitem] at hbad
    cases hbad
  | item n view' =>
    have happend := Framer.item_append (F := frameFramer limits h) tail hpart
    rw [show (frameFramer limits h).next (part ++ tail) = _ from hitem] at happend
    have hn : n = (part ++ tail).length := by
      injection happend with hn
      exact hn.symm
    have hle := ((frameFramer limits h).item_size hpart).2
    rw [hn, List.length_append] at hle
    have htail : tail = [] := List.length_eq_zero_iff.mp (by omega)
    rw [htail, List.append_nil] at hproper
    exact absurd rfl hproper

/-- **The incremental parser agrees with the strict one.**  Frames that `parseFrame` accepts
and an unfinished one behind them, cut into any chunks: every push succeeds, the frames come
back in order with the header and payload that `parseFrame` gives, the unfinished frame
stays buffered, and `finish` says what kind of unfinished frame it is.
SRC: stream_parser.cpp:23-118, frame_parser.cpp:52-137 -/
theorem stream_agrees_with_strict {limits : ProtocolLimits} {frames : List (List UInt8)}
    {views : List FrameView} (hframes : ParsedAs limits frames views) {whole part : List UInt8}
    {view : FrameView} (hwhole : parseFrame whole limits = .ok (.ok view))
    (hfront : part <+: whole) (hproper : part ≠ whole) {chunks : List (List UInt8)}
    (hchunks : chunks.flatten = frames.flatten ++ part) :
    ∃ start, FrameStreamParser.make limits = .ok start ∧
      (∀ entry ∈ machine.trace start (chunks.map Call.push),
        ∃ returned, entry.2 = .pushed (.ok returned)) ∧
      framesOf (machine.trace start (chunks.map Call.push)) = views.map FrameView.owned ∧
      (machine.final start (chunks.map Call.push)).bufferedSize = part.length ∧
      machine.answer .finish (machine.final start (chunks.map Call.push)) =
        .finished (if part = [] then .ok ()
          else if part.length < frameHeaderSize then .error .truncatedHeader
          else .error .truncatedFrame) := by
  have h := admitted_of_parseFrame hwhole
  have hmore := frameVerdict_proper_prefix hwhole hfront hproper
  have hsplit : (frameFramer limits h).split chunks.flatten = ⟨views, part, none⟩ := by
    rw [hchunks, Framer.split_items (hframes.items h),
      Framer.split_more (F := frameFramer limits h) hmore, List.append_nil]
  have hnil := frameVerdict_nil limits
  have hclean : ((frameFramer limits h).split ([] ++ chunks.flatten)).failure = none := by
    rw [List.nil_append, hsplit]
  have hfinal : machine.final (reading limits []) (chunks.map Call.push) = reading limits part := by
    rw [final_pushes h hnil, List.nil_append, hsplit]
  refine ⟨reading limits [], if_neg (Nat.not_lt.mpr h), pushes_ok h hnil hclean, ?_, ?_, ?_⟩
  · rw [framesOf_pushes h hnil, Framer.delivered_clean hnil hclean, List.nil_append, hsplit]
  · rw [hfinal]
    rfl
  · rw [hfinal, answer_finish_reading]
    rfl

/-- Two frames without payload and three bytes of a third, in chunks of unequal sizes. -/
theorem stream_agrees_with_strict_two :
    framesOf (machine.trace { limits := {} } ([frameHeaderBytes 16 ++ [0x54], [0x49, 0x43],
      (frameHeaderBytes 16).drop 3 ++ [0x54, 0x49], [], [0x43]].map Call.push)) =
      [⟨frameHeaderOf 16, []⟩, ⟨frameHeaderOf 16, []⟩] := by
  have hparse : parseFrame (frameHeaderBytes 16) {} = .ok (.ok ⟨frameHeaderOf 16, []⟩) :=
    parseFrame_ok_iff.mpr ⟨16, [], by decide, rfl, (List.append_nil _).symm, rfl⟩
  obtain ⟨start, hmake, -, hreturned, -⟩ := @stream_agrees_with_strict {}
    [frameHeaderBytes 16, frameHeaderBytes 16] _ (.cons hparse (.cons hparse .nil)) _
    [0x54, 0x49, 0x43] _ hparse ⟨(frameHeaderBytes 16).drop 3, rfl⟩ (by decide)
    [frameHeaderBytes 16 ++ [0x54], [0x49, 0x43], (frameHeaderBytes 16).drop 3 ++ [0x54, 0x49], [],
      [0x43]] (by decide)
  cases hmake
  exact hreturned

end Tickline.Analysis
