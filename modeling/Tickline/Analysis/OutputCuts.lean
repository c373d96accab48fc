import Tickline.Analysis.StageLogs

/-!
# How output is cut

The reads of a stream may end anywhere, and the console shows each of them by itself.  Read byte by
byte, output is shown as its bytes are alone (`cell`).  So output whose log does not depend on the
reads shows as much as its bytes alone (`cells_of_independent`), and then no escape sequence, no
line break and no character of it may be longer than one byte (`Seamless`).

Conversely the whole of such output is shown as its bytes alone are, and so is every part of it
(`sanitize_seamless`).  So the log does not depend on the reads of exactly this output
(`log_independent_iff`).
-/

set_option autoImplicit false

namespace Tickline.Analysis

open Tickline.Library Tickline.Model
open Tickline.Model.Console
open Tickline.Model.Stage (Event Stream)

/-! ## Bytes alone -/

/-- A byte that is kept, shown by itself. -/
def lone (b : UInt8) : List UInt8 := if b < 0x80 then [b] else Unicode.encode [Unicode.replacement]

/-- What a byte is shown as that is read alone. -/
def cell (b : UInt8) : List UInt8 := (shownBytes b).flatMap lone

/-- No two bytes beyond ASCII in a row. -/
def Spaced (bytes : List UInt8) : Prop :=
  ∀ a b, 0x80 ≤ a → 0x80 ≤ b → ¬ [a, b] <:+: bytes

/-- Output of which no escape sequence, line break or character is longer than a byte. -/
structure Seamless (data : List UInt8) : Prop where
  escapes : ∀ b, shownBytes b ≠ [] → ¬ [0x1b, b] <:+: data
  lineBreaks : ¬ [0x0d, 0x0a] <:+: data
  characters : Spaced (data.filter (shownBytes · ≠ []))

theorem Seamless.part {part data : List UInt8} (h : Seamless data) (hpart : part <:+: data) :
    Seamless part where
  escapes b hb hpair := h.escapes b hb (hpair.trans hpart)
  lineBreaks hpair := h.lineBreaks (hpair.trans hpart)
  characters a b ha hb hpair := h.characters a b ha hb (hpair.trans (hpart.filter _))

theorem Spaced.tail {b : UInt8} {bytes : List UInt8} (h : Spaced (b :: bytes)) : Spaced bytes :=
  fun _ _ hfirst hsecond hpair =>
    h _ _ hfirst hsecond (hpair.trans (List.suffix_cons b bytes).isInfix)

theorem spaced_cons {b : UInt8} {bytes : List UInt8} (h : Spaced bytes)
    (hb : 0x80 ≤ b → ∀ next ∈ bytes.head?, next < 0x80) : Spaced (b :: bytes) := by
  intro first second hfirst hsecond hpair
  rcases List.infix_cons_iff.mp hpair with ⟨more, hmore⟩ | hpair
  · obtain ⟨rfl, rfl⟩ := List.cons.inj hmore
    exact absurd (hb hfirst second rfl) (UInt8.not_lt.mpr hsecond)
  · exact h first second hfirst hsecond hpair

/-- Bytes beyond ASCII that follow each other are no characters when they are spaced. -/
theorem runes_lone {b : UInt8} (hb : 0x80 ≤ b) : Unicode.runes [b] = [none] := by
  have hfirst : Unicode.first? [b] = none := by
    cases hfirst : Unicode.first? [b] with
    | none => rfl
    | some c =>
      obtain ⟨rest, hrest⟩ := Unicode.eq_of_first? hfirst
      rcases Unicode.utf8EncodeChar_cases c with
        ⟨hsmall, hbytes⟩ | ⟨-, first, more, hbytes, -, hmore, -⟩
      · rw [hbytes] at hrest
        have heq := (List.cons.inj hrest).1
        rw [heq, UInt8.le_iff_toNat_le, UInt8.toNat_ofNat_of_lt' (by rw [UInt8.size]; omega)] at hb
        exact absurd hb (Nat.not_le.mpr hsmall)
      · rw [hbytes] at hrest
        have hnil := (List.cons.inj hrest).2
        simp [hmore] at hnil
  rw [Unicode.runes_invalid hfirst]
  rfl

theorem runes_ascii {b : UInt8} (hb : b < 0x80) (bytes : List UInt8) :
    Unicode.runes (b :: bytes) = some (Char.ofNat b.toNat) :: Unicode.runes bytes := by
  have hbytes := Unicode.utf8EncodeChar_ascii hb
  have hrunes := Unicode.runes_utf8EncodeChar (Char.ofNat b.toNat) bytes
  rwa [hbytes] at hrunes

/-- **Spaced bytes are shown one by one.** -/
theorem encode_spaced {bytes : List UInt8} (h : Spaced bytes) :
    Unicode.encode (joinInvalid false (Unicode.runes bytes)) = bytes.flatMap lone := by
  induction bytes with
  | nil => rfl
  | cons b bytes ih =>
    have hih := ih h.tail
    by_cases hb : b < 0x80
    · rw [runes_ascii hb, joinInvalid, Unicode.encode_cons, Unicode.utf8EncodeChar_ascii hb, hih,
        List.flatMap_cons, lone, if_pos hb]
    · have hhigh := UInt8.not_lt.mp hb
      have hrunes : Unicode.runes (b :: bytes) = none :: Unicode.runes bytes ∧
          joinInvalid true (Unicode.runes bytes) = joinInvalid false (Unicode.runes bytes) := by
        cases bytes with
        | nil => exact ⟨runes_lone hhigh, rfl⟩
        | cons next bytes =>
          have hnext : next < 0x80 := by
            refine UInt8.not_le.mp fun hle => ?_
            exact h b next hhigh hle ⟨[], bytes, rfl⟩
          have hstart : ¬ Unicode.IsContinuation next := fun hcontinues =>
            absurd hcontinues.1 (UInt8.not_le.mpr hnext)
          have happend := Unicode.runes_append [b] hstart bytes
          rw [runes_lone hhigh] at happend
          exact ⟨happend, by rw [runes_ascii hnext]; rfl⟩
      rw [hrunes.1, joinInvalid, hrunes.2, Unicode.encode_cons, hih, List.flatMap_cons, lone,
        if_neg hb]
      simp

/-- The longest that bytes may be shown as. -/
def weight (bytes : List UInt8) : ℕ := (bytes.flatMap lone).length

theorem length_lone (b : UInt8) : (lone b).length = if b < 0x80 then 1 else 3 := by
  unfold lone
  split_ifs
  · rfl
  · decide

theorem weight_cons (b : UInt8) (bytes : List UInt8) :
    weight (b :: bytes) = (if b < 0x80 then 1 else 3) + weight bytes := by
  rw [weight, List.flatMap_cons, List.length_append, length_lone]
  rfl

theorem weight_append (bytes more : List UInt8) :
    weight (bytes ++ more) = weight bytes + weight more := by
  rw [weight, List.flatMap_append, List.length_append]
  rfl

theorem weight_high {bytes : List UInt8} (h : ∀ b ∈ bytes, 0x80 ≤ b) :
    weight bytes = 3 * bytes.length := by
  induction bytes with
  | nil => rfl
  | cons b bytes ih =>
    rw [List.forall_mem_cons] at h
    rw [weight_cons, if_neg (UInt8.not_lt.mpr h.1), ih h.2, List.length_cons]
    omega

/-- **Bytes are shown as most where they are spaced**, and as less where they are not. -/
theorem length_joined_le (joined : Bool) (bytes : List UInt8) :
    (Unicode.encode (joinInvalid joined (Unicode.runes bytes))).length ≤ weight bytes ∧
      ((Unicode.encode (joinInvalid joined (Unicode.runes bytes))).length = weight bytes →
        Spaced bytes ∧ (joined = true → ∀ b ∈ bytes.head?, b < 0x80)) := by
  induction bytes using Unicode.runesInduction generalizing joined with
  | nil => exact ⟨Nat.le_refl _, fun _ => ⟨fun _ _ _ _ h => by simp at h, fun _ => by simp⟩⟩
  | char c rest ih =>
    obtain ⟨hle, heq⟩ := ih false
    rw [Unicode.runes_utf8EncodeChar, joinInvalid, Unicode.encode_cons, List.length_append,
      weight_append]
    rcases Unicode.utf8EncodeChar_cases c with
      ⟨hsmall, hbytes⟩ | ⟨-, first, more, hbytes, hfirst, hmore, hcontinue⟩
    · have hlow : UInt8.ofNat c.toNat < 0x80 := by
        rw [UInt8.lt_iff_toNat_lt, UInt8.toNat_ofNat_of_lt' (by rw [UInt8.size]; omega)]
        exact hsmall
      rw [hbytes, weight_cons, if_pos hlow]
      have hnil : weight [] = 0 := rfl
      rw [List.length_singleton, hnil]
      refine ⟨by omega, fun hsame => ⟨?_, fun _ b hb => ?_⟩⟩
      · exact spaced_cons (heq (by omega)).1 fun hhigh => absurd hlow (UInt8.not_lt.mpr hhigh)
      · obtain rfl := Option.some.inj hb
        exact hlow
    · -- The bytes of a longer character would be shown as three each.
      have hhigh : ∀ b ∈ String.utf8EncodeChar c, 0x80 ≤ b := by
        rw [hbytes, List.forall_mem_cons]
        exact ⟨UInt8.le_trans (by decide) hfirst, fun b hb => (hcontinue b hb).1⟩
      have hpos := List.length_pos_iff.mpr hmore
      rw [weight_high hhigh, hbytes, List.length_cons]
      exact ⟨by omega, fun hsame => by omega⟩
  | invalid b bytes hfirst ih =>
    have hhigh : 0x80 ≤ b := by
      refine UInt8.not_lt.mp fun hlow => ?_
      have hread := Unicode.first?_utf8EncodeChar (Char.ofNat b.toNat) bytes
      rw [Unicode.utf8EncodeChar_ascii hlow, List.singleton_append, hfirst] at hread
      cases hread
    obtain ⟨hle, heq⟩ := ih true
    rw [Unicode.runes_invalid hfirst, weight_cons, if_neg (UInt8.not_lt.mpr hhigh)]
    cases joined with
    | true =>
      rw [joinInvalid]
      exact ⟨by omega, fun hsame => by omega⟩
    | false =>
      have hthree : (String.utf8EncodeChar Unicode.replacement).length = 3 := by decide
      rw [joinInvalid, Unicode.encode_cons, List.length_append, hthree]
      refine ⟨by omega, fun hsame => ?_⟩
      obtain ⟨hspaced, hhead⟩ := heq (by omega)
      exact ⟨spaced_cons hspaced fun _ => hhead rfl, fun h => by cases h⟩

/-! ## Seamless output -/

/-- A byte that shows nothing ends the escape sequence in front of it. -/
theorem consume_dropped {b : UInt8} (h : shownBytes b = []) (data : List UInt8) :
    consumeEscapeSequence (b :: data) = data := by
  have hb : b ∉ [GoString.byte '[', GoString.byte ']', GoString.byte 'P', GoString.byte '^',
      GoString.byte '_'] := by
    intro hmem
    simp only [List.mem_cons, List.not_mem_nil, or_false] at hmem
    rcases hmem with rfl | rfl | rfl | rfl | rfl <;> exact absurd h (by decide)
  exact consume_sequence (.single hb) data

theorem kept_seamless {data : List UInt8}
    (hescapes : ∀ b, shownBytes b ≠ [] → ¬ [0x1b, b] <:+: data)
    (hlineBreaks : ¬ [0x0d, 0x0a] <:+: data) : kept data = data.flatMap shownBytes := by
  induction data using keptInduction with
  | nil => rfl
  | escape data ih =>
    rw [kept_escape, List.flatMap_cons]
    cases data with
    | nil => rfl
    | cons b data =>
      have hb : shownBytes b = [] := by
        by_contra hshown
        exact hescapes b hshown ⟨[], data, rfl⟩
      have hsuffix : data <:+: 0x1b :: b :: data := ⟨[0x1b, b], [], by simp⟩
      rw [consume_dropped hb] at ih ⊢
      rw [ih (fun b hshown h => hescapes b hshown (h.trans hsuffix)) fun h =>
        hlineBreaks (h.trans hsuffix), List.flatMap_cons, hb]
      rfl
  | byte b data hb ih =>
    have hstay : behind b data = data := by
      refine if_neg ?_
      rintro ⟨rfl, hhead⟩
      cases data with
      | nil => cases hhead
      | cons next data =>
        obtain rfl := Option.some.inj hhead
        exact hlineBreaks ⟨[], data, rfl⟩
    have hsuffix : data <:+: b :: data := (List.suffix_cons b data).isInfix
    rw [hstay] at ih
    rw [kept_byte hb, hstay, ih (fun b hshown h => hescapes b hshown (h.trans hsuffix)) fun h =>
      hlineBreaks (h.trans hsuffix), List.flatMap_cons]

theorem flatMap_shownBytes (data : List UInt8) :
    (data.filter (shownBytes · ≠ [])).flatMap shownBytes = data.flatMap shownBytes := by
  induction data with
  | nil => rfl
  | cons b data ih =>
    by_cases hb : shownBytes b = []
    · rw [List.filter_cons_of_neg (by simpa using hb), ih, List.flatMap_cons, hb, List.nil_append]
    · rw [List.filter_cons_of_pos (by simpa using hb), List.flatMap_cons, ih, List.flatMap_cons]

/-- A byte beyond ASCII that is shown is the byte itself. -/
theorem shownBytes_high {b : UInt8} (hb : 0x80 ≤ b) : shownBytes b = [b] := by
  have hkept := kept_high hb []
  have hne : b ≠ 0x1b := by
    rintro rfl
    exact absurd hb (by decide)
  have hstay : behind b [] = [] := if_neg (by simp)
  rwa [kept_byte hne, hstay, kept_nil, List.append_nil] at hkept

theorem shownBytes_low {b x : UInt8} (hb : b < 0x80) (hx : x ∈ shownBytes b) : x < 0x80 := by
  refine UInt8.not_le.mp fun hhigh => ?_
  obtain ⟨shown, more, hshown⟩ := List.append_of_mem hx
  rw [(eq_of_shownBytes hhigh hshown).1] at hb
  exact absurd hhigh (UInt8.not_le.mpr hb)

theorem spaced_low_append {front bytes : List UInt8} (hfront : ∀ b ∈ front, b < 0x80)
    (h : Spaced bytes) : Spaced (front ++ bytes) := by
  induction front with
  | nil => exact h
  | cons b front ih =>
    rw [List.forall_mem_cons] at hfront
    exact spaced_cons (ih hfront.2) fun hhigh => absurd hfront.1 (UInt8.not_lt.mpr hhigh)

/-- Bytes beyond ASCII stand next to each other where nothing between them is shown. -/
theorem spaced_shown (data : List UInt8) :
    Spaced (data.flatMap shownBytes) ↔ Spaced (data.filter (shownBytes · ≠ [])) := by
  rw [← flatMap_shownBytes]
  have hshown : ∀ b ∈ data.filter (shownBytes · ≠ []), shownBytes b ≠ [] := by simp
  generalize data.filter (shownBytes · ≠ []) = bytes at hshown
  constructor
  · rintro h a b ha hb ⟨front, back, rfl⟩
    refine h a b ha hb ⟨front.flatMap shownBytes, back.flatMap shownBytes, ?_⟩
    simp [shownBytes_high ha, shownBytes_high hb]
  · intro h
    induction bytes with
    | nil => exact h
    | cons b bytes ih =>
      rw [List.forall_mem_cons] at hshown
      have hih := ih hshown.2 h.tail
      rw [List.flatMap_cons]
      by_cases hb : b < 0x80
      · exact spaced_low_append (fun x hx => shownBytes_low hb hx) hih
      · have hhigh := UInt8.not_lt.mp hb
        rw [shownBytes_high hhigh, List.singleton_append]
        refine spaced_cons hih fun _ next hnext => ?_
        cases bytes with
        | nil => cases hnext
        | cons other bytes =>
          have hother : other < 0x80 :=
            UInt8.not_le.mp fun hle => h b other hhigh hle ⟨[], bytes, rfl⟩
          rw [List.flatMap_cons, List.head?_append_of_ne_nil _
            (hshown.2 other List.mem_cons_self)] at hnext
          exact shownBytes_low hother (List.mem_of_mem_head? hnext)

/-- **Seamless output is shown as its bytes are alone.** -/
theorem sanitize_seamless {data : List UInt8} (h : Seamless data) :
    sanitizeTerminalOutput data = data.flatMap cell := by
  rw [sanitize_eq, shownText, kept_seamless h.escapes h.lineBreaks,
    encode_spaced ((spaced_shown data).mpr h.characters), List.flatMap_assoc]
  rfl

/-- A byte that is read alone. -/
theorem sanitize_singleton (b : UInt8) : sanitizeTerminalOutput [b] = cell b := by
  have hseamless : Seamless [b] := by
    refine ⟨fun _ _ h => ?_, fun h => ?_, fun _ _ _ _ h => ?_⟩
    · exact absurd h.length_le (by simp)
    · exact absurd h.length_le (by simp)
    · have hle := h.length_le.trans (List.length_filter_le _ _)
      simp at hle
  rw [sanitize_seamless hseamless]
  exact List.flatMap_singleton _ _

/-! ## Reads -/

/-- How the reads of a stream may cut what is written to it. -/
structure Cut (data : List UInt8) (chunks : List (List UInt8)) : Prop where
  whole : chunks.flatten = data
  read : ∀ chunk ∈ chunks, chunk ≠ [] ∧ chunk.length ≤ Stage.captureBuffer

/-- Bytes that are read alone. -/
def alone (data : List UInt8) : List (List UInt8) := data.map ([·])

theorem flatten_alone (data : List UInt8) : (alone data).flatten = data := by
  induction data with
  | nil => rfl
  | cons b data ih =>
    rw [alone, List.map_cons, List.flatten_cons]
    exact congrArg (b :: ·) ih

theorem read_alone (data : List UInt8) :
    ∀ chunk ∈ alone data, chunk ≠ [] ∧ chunk.length ≤ Stage.captureBuffer := by
  intro chunk hchunk
  obtain ⟨b, -, rfl⟩ := List.mem_map.mp hchunk
  exact ⟨List.cons_ne_nil _ _, show 1 ≤ Stage.captureBuffer by decide⟩

theorem shown_alone (data : List UInt8) :
    (alone data).flatMap sanitizeTerminalOutput = data.flatMap cell := by
  rw [alone, List.flatMap_map]
  exact List.flatMap_congr fun b _ => sanitize_singleton b

section Independent

variable {data : List UInt8}
  (h : ∀ chunks, Cut data chunks →
    chunks.flatMap sanitizeTerminalOutput = sanitizeTerminalOutput data)

include h

/-- Output that is shown alike however it is read is shown as its bytes are alone. -/
theorem cells_of_independent : data.flatMap cell = sanitizeTerminalOutput data := by
  rw [← shown_alone]
  exact h _ ⟨flatten_alone data, read_alone data⟩

/-- Two bytes that follow each other may be read together. -/
theorem pair_of_independent {a b : UInt8} (hpair : [a, b] <:+: data) :
    sanitizeTerminalOutput [a, b] = cell a ++ cell b := by
  obtain ⟨front, back, rfl⟩ := hpair
  have hcut : Cut (front ++ [a, b] ++ back) (alone front ++ [[a, b]] ++ alone back) := by
    refine ⟨by simp [flatten_alone], fun chunk hchunk => ?_⟩
    rw [List.mem_append, List.mem_append, List.mem_singleton] at hchunk
    rcases hchunk with (hchunk | rfl) | hchunk
    · exact read_alone front chunk hchunk
    · exact ⟨List.cons_ne_nil _ _, show 2 ≤ Stage.captureBuffer by decide⟩
    · exact read_alone back chunk hchunk
  have hsame := (h _ hcut).trans (cells_of_independent h).symm
  simp only [List.flatMap_append, shown_alone, List.flatMap_cons, List.flatMap_nil,
    List.append_nil, List.append_assoc] at hsame
  have hmiddle := List.append_cancel_left hsame
  rw [← List.append_assoc] at hmiddle
  exact List.append_cancel_right hmiddle

theorem seamless_of_independent : Seamless data := by
  have hescapes : ∀ b, shownBytes b ≠ [] → ¬ [0x1b, b] <:+: data := by
    intro b hb hpair
    have hconsume : consumeEscapeSequence [b] = [] := by
      rw [consumeEscapeSequence]
      split_ifs <;> rfl
    have hnothing : sanitizeTerminalOutput [0x1b, b] = [] := by
      rw [sanitize_eq, shownText, kept_escape, hconsume]
      rfl
    have hpair := pair_of_independent h hpair
    rw [hnothing] at hpair
    have hcell := (List.append_eq_nil_iff.mp hpair.symm).2
    obtain ⟨x, shown, hshown⟩ := List.exists_cons_of_ne_nil hb
    have hlone := length_lone x
    rw [cell, hshown, List.flatMap_cons, List.append_eq_nil_iff] at hcell
    rw [hcell.1, List.length_nil] at hlone
    split_ifs at hlone
  have hlineBreaks : ¬ [0x0d, 0x0a] <:+: data := by
    intro hpair
    exact absurd (pair_of_independent h hpair) (by decide)
  refine ⟨hescapes, hlineBreaks, (spaced_shown data).mp ?_⟩
  have hcells := cells_of_independent h
  rw [sanitize_eq, shownText, kept_seamless hescapes hlineBreaks] at hcells
  refine ((length_joined_le false _).2 ?_).1
  rw [← hcells, weight, List.flatMap_assoc]
  rfl

end Independent

theorem independent_of_seamless {data : List UInt8} (h : Seamless data) {chunks : List (List UInt8)}
    (hcut : Cut data chunks) :
    chunks.flatMap sanitizeTerminalOutput = sanitizeTerminalOutput data := by
  have hchunks : chunks.flatMap sanitizeTerminalOutput = chunks.flatMap fun chunk =>
      chunk.flatMap cell := by
    refine List.flatMap_congr fun chunk hchunk => sanitize_seamless (h.part ?_)
    rw [← hcut.whole]
    exact List.infix_of_mem_flatten hchunk
  rw [hchunks, sanitize_seamless h, ← hcut.whole, List.flatten_eq_flatMap, List.flatMap_assoc]
  rfl

/-! ## Logs -/

/-- A model that has a stage and has shown nothing of its output. -/
structure Awaits (model : ConsoleModel) (stageID : GoString) : Prop where
  known : (model.stageIndex stageID).isSome
  log : model.logs stageID = []
  whole : model.logTruncated stageID = false

theorem awaits_newModel {plan : List Stage.Task} {current : Stage.Task} (hcurrent : current ∈ plan)
    (hdistinct : (plan.map (·.id)).Nodup) (runID : GoString) :
    Awaits (newModel plan runID) current.id where
  known := stageIndex_isSome hcurrent hdistinct runID
  log := rfl
  whole := rfl

/-- The log of a stage behind the events of the reads of one of its streams. -/
def logAfter (model : ConsoleModel) (current : Stage.Task) (stream : Stream)
    (chunks : List (List UInt8)) : GoString :=
  ((chunks.map fun data => Stage.stageOutput current { stream, data }).foldl
    ConsoleModel.applyRunnerEvent model).logs current.id

/-- A log says whether the reads were shown as a short output. -/
theorem logAfter_eq_iff {model : ConsoleModel} {current : Stage.Task}
    (h : Awaits model current.id) (stream : Stream) {shown : List UInt8}
    (hshort : shown.length < maxStageLogBytes) (chunks : List (List UInt8)) :
    logAfter model current stream chunks = shown ↔
      chunks.flatMap sanitizeTerminalOutput = shown := by
  have hbefore : StageLog [] (model.logs current.id) (model.logTruncated current.id) := by
    rw [h.log, h.whole]
    exact stageLog_nil
  have hlog := hbefore.foldl (chunks.map fun data => Stage.stageOutput current { stream, data })
  have hshown : (chunks.map fun data => Stage.stageOutput current { stream, data }).flatMap
      (shownOutput model current.id) = chunks.flatMap sanitizeTerminalOutput := by
    rw [List.flatMap_map]
    exact List.flatMap_congr fun data _ => if_pos ⟨rfl, rfl, h.known⟩
  rw [hshown, List.nil_append] at hlog
  cases htruncated : ((chunks.map fun data => Stage.stageOutput current { stream, data }).foldl
      ConsoleModel.applyRunnerEvent model).logTruncated current.id with
  | false => rw [logAfter, (hlog.whole htruncated).1]
  | true =>
    obtain ⟨hlong, hmore⟩ := hlog.long htruncated
    refine iff_of_false (fun heq => ?_) fun heq => ?_
    · rw [logAfter] at heq
      rw [heq] at hlong
      exact absurd hlong (Nat.not_le.mpr hshort)
    · rw [heq] at hmore
      exact absurd hmore (Nat.not_lt.mpr hshort.le)

/-- **Where a log does not depend on the reads**: for every output of a stage on one stream that is
shown in less than the bound of a log, all ways to read it give the log that shows the whole of it,
exactly where the output has no escape byte in front of a byte that is shown, no carriage return in
front of a newline, and no two bytes beyond ASCII with nothing between them that is shown.
SRC: runner.go:455-503, tui/model.go:259-281, sanitize.go:8-127 -/
theorem log_independent_iff {model : ConsoleModel} {current : Stage.Task}
    (h : Awaits model current.id) (stream : Stream) {data : List UInt8}
    (hshort : (sanitizeTerminalOutput data).length < maxStageLogBytes) :
    (∀ first second, Cut data first → Cut data second →
      logAfter model current stream first = logAfter model current stream second ∧
        logAfter model current stream first = sanitizeTerminalOutput data) ↔ Seamless data := by
  constructor
  · intro hsame
    refine seamless_of_independent fun chunks hcut => ?_
    exact (logAfter_eq_iff h stream hshort chunks).mp (hsame chunks chunks hcut hcut).2
  · intro hseamless first second hfirst hsecond
    have hlog : ∀ chunks, Cut data chunks →
        logAfter model current stream chunks = sanitizeTerminalOutput data := fun chunks hcut =>
      (logAfter_eq_iff h stream hshort chunks).mpr (independent_of_seamless hseamless hcut)
    exact ⟨(hlog first hfirst).trans (hlog second hsecond).symm, hlog first hfirst⟩

/-- A line that is read in parts. -/
theorem log_independent_line :
    (∀ first second, Cut (GoString.ascii "ok\n") first → Cut (GoString.ascii "ok\n") second →
      logAfter (newModel [docsStage] []) docsStage .stdout first =
          logAfter (newModel [docsStage] []) docsStage .stdout second ∧
        logAfter (newModel [docsStage] []) docsStage .stdout first =
          sanitizeTerminalOutput (GoString.ascii "ok\n")) ↔ Seamless (GoString.ascii "ok\n") :=
  log_independent_iff (awaits_newModel List.mem_cons_self (by decide) []) .stdout (by decide)

/-- A colour that is read behind its escape byte is shown. -/
theorem log_coloured :
    ∃ first second, Cut ([0x1b] ++ GoString.ascii "[31mfailed") first ∧
      Cut ([0x1b] ++ GoString.ascii "[31mfailed") second ∧
      logAfter (newModel [docsStage] []) docsStage .stdout first = .ascii "failed" ∧
      logAfter (newModel [docsStage] []) docsStage .stdout second = .ascii "[31mfailed" := by
  have hawaits : Awaits (newModel [docsStage] []) docsStage.id :=
    awaits_newModel List.mem_cons_self (by decide) []
  refine ⟨[[0x1b] ++ GoString.ascii "[31mfailed"], [[0x1b], GoString.ascii "[31mfailed"],
    ⟨rfl, by decide⟩, ⟨rfl, by decide⟩, ?_, ?_⟩
  · exact (logAfter_eq_iff hawaits .stdout (by decide) _).mpr (by decide)
  · exact (logAfter_eq_iff hawaits .stdout (by decide) _).mpr (by decide)

end Tickline.Analysis
