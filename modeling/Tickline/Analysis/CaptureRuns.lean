import Tickline.Analysis.StageRuns
import Tickline.Library.Transitions
import Tickline.Model.CaptureLoops

/-!
# Runs of the capture loops

What an action of a run does is said once (`CaptureStep`).  The bytes of a stream that the observer
was given are those in the buffer of its loop, but for a chunk that the loop still holds
(`Captured`), and every action keeps that (`Captured.next`).  So nothing is lost: behind every run,
the bytes of every result are those that the observer was given (`captured_run`).
-/

set_option autoImplicit false

namespace Tickline.Analysis

open Tickline.Library Tickline.Model
open Tickline.Model.Stage (Action CaptureLoop Event LoopPhase NumberedEvent ReadErr RunLoops
  RunningStage StageOutcome StageResult Stream)

/-! ## One action -/

/-- What the actions of a run do. -/
inductive CaptureStep (state : RunLoops) : Action → RunLoops → Prop
  | start {current : Stage.Task} {remaining : List Stage.Task} (hrunning : state.running = none)
      (hremaining : state.remaining = current :: remaining) :
      CaptureStep state .start
        (({ state with remaining, running := some { current } } : RunLoops).emit
          { kind := .stageStarted, stageID := current.id })
  | startFails {current : Stage.Task} {remaining : List Stage.Task} {outcome : StageOutcome}
      (hrunning : state.running = none) (hremaining : state.remaining = current :: remaining)
      (hran : ∀ process, outcome ≠ .ran process) :
      CaptureStep state (.startFails outcome)
        (({ state with
          remaining
          events := state.events ++ (Stage.runStage current outcome).2.map Event.unnumbered } :
            RunLoops).append (Stage.runStage current outcome).1)
  | cancelBefore {current : Stage.Task} {remaining : List Stage.Task} {cause : GoString}
      (hrunning : state.running = none) (hremaining : state.remaining = current :: remaining) :
      CaptureStep state (.cancelBefore cause)
        ((({ state with remaining } : RunLoops).emit {
          kind := .stageFinished
          stageID := current.id
          status := some .cancelled
          exitCode := 130 }).append (Stage.cancelledResult current cause))
  | readNothing {stage : RunningStage} {stream : Stream} {err : Option ReadErr}
      (hrunning : state.running = some stage) (hphase : (stage.loop stream).phase = .reading) :
      CaptureStep state (.read stream [] err)
        { state with running := some (stage.endRound stream (stage.loop stream).target err) }
  | readChunk {stage : RunningStage} {stream : Stream} {chunk : List UInt8} {err : Option ReadErr}
      (hrunning : state.running = some stage) (hphase : (stage.loop stream).phase = .reading)
      (hchunk : chunk ≠ []) (hlength : chunk.length ≤ Stage.captureBuffer) :
      CaptureStep state (.read stream chunk err)
        { state with running := some (stage.withLoop stream
          { target := (stage.loop stream).target ++ chunk, phase := .captured chunk err }) }
  | number {stage : RunningStage} {stream : Stream} {chunk : List UInt8} {err : Option ReadErr}
      (hrunning : state.running = some stage)
      (hphase : (stage.loop stream).phase = .captured chunk err) :
      CaptureStep state (.number stream)
        { state with
          sequence := state.sequence + 1
          running := some (stage.withLoop stream
            { stage.loop stream with phase := .numbered chunk (state.sequence + 1) err }) }
  | deliver {stage : RunningStage} {stream : Stream} {chunk : List UInt8} {sequence : UInt64}
      {err : Option ReadErr} (hrunning : state.running = some stage)
      (hphase : (stage.loop stream).phase = .numbered chunk sequence err) :
      CaptureStep state (.deliver stream)
        { state.emit { toEvent := Stage.stageOutput stage.current { stream, data := chunk }, sequence }
          with running := some (stage.endRound stream (stage.loop stream).target err) }
  | requestCancellation {stage : RunningStage} (hrunning : state.running = some stage)
      (hrequested : stage.cancellationRequested = false) :
      CaptureStep state .requestCancellation
        { state.emit { kind := .cancellationRequested, stageID := stage.current.id }
          with running := some { stage with cancellationRequested := true } }
  | settle {stage : RunningStage} {settlement : Stage.Settlement}
      (hrunning : state.running = some stage)
      (hfinished : ∀ stream, (stage.loop stream).phase = .finished) :
      CaptureStep state (.settle settlement)
        ((state.emit (Stage.stageFinished (stage.settled settlement)).unnumbered).append
          (stage.settled settlement))
  | finish {duration : ℤ} (hrunning : state.running = none) (hremaining : state.remaining = [])
      (hfinished : state.finished = false) :
      CaptureStep state (.finish duration)
        (({ state with finished := true } : RunLoops).emit
          { kind := .runFinished, status := some state.status, duration })

theorem captureStep {state next : RunLoops} {action : Action} (h : state.step action = some next) :
    CaptureStep state action next := by
  cases action with
  | start =>
    cases hrunning : state.running <;> cases hremaining : state.remaining <;>
      simp only [RunLoops.step, hrunning, hremaining, reduceCtorEq] at h
    exact Option.some.inj h ▸ .start hrunning hremaining
  | startFails outcome =>
    cases hrunning : state.running <;> cases hremaining : state.remaining <;> cases outcome <;>
      simp only [RunLoops.step, hrunning, hremaining, reduceCtorEq] at h
    all_goals exact Option.some.inj h ▸ .startFails hrunning hremaining (by simp)
  | cancelBefore cause =>
    cases hrunning : state.running <;> cases hremaining : state.remaining <;>
      simp only [RunLoops.step, hrunning, hremaining, reduceCtorEq] at h
    exact Option.some.inj h ▸ .cancelBefore hrunning hremaining
  | read stream chunk err =>
    cases hrunning : state.running with
    | none => simp only [RunLoops.step, hrunning, reduceCtorEq] at h
    | some stage =>
      simp only [RunLoops.step, hrunning] at h
      split_ifs at h with hready hchunk
      · rw [not_or, not_not, Nat.not_lt] at hready
        subst hchunk
        exact Option.some.inj h ▸ .readNothing hrunning hready.1
      · rw [not_or, not_not, Nat.not_lt] at hready
        exact Option.some.inj h ▸ .readChunk hrunning hready.1 hchunk hready.2
  | number stream =>
    cases hrunning : state.running with
    | none => simp only [RunLoops.step, hrunning, reduceCtorEq] at h
    | some stage =>
      cases hphase : (stage.loop stream).phase <;>
        simp only [RunLoops.step, hrunning, hphase, reduceCtorEq] at h
      exact Option.some.inj h ▸ .number hrunning hphase
  | deliver stream =>
    cases hrunning : state.running with
    | none => simp only [RunLoops.step, hrunning, reduceCtorEq] at h
    | some stage =>
      cases hphase : (stage.loop stream).phase <;>
        simp only [RunLoops.step, hrunning, hphase, reduceCtorEq] at h
      exact Option.some.inj h ▸ .deliver hrunning hphase
  | requestCancellation =>
    cases hrunning : state.running with
    | none => simp only [RunLoops.step, hrunning, reduceCtorEq] at h
    | some stage =>
      simp only [RunLoops.step, hrunning] at h
      split_ifs at h with hrequested
      exact Option.some.inj h ▸ .requestCancellation hrunning (Bool.eq_false_iff.mpr hrequested)
  | settle settlement =>
    cases hrunning : state.running with
    | none => simp only [RunLoops.step, hrunning, reduceCtorEq] at h
    | some stage =>
      simp only [RunLoops.step, hrunning] at h
      split_ifs at h with hfinished
      refine Option.some.inj h ▸ .settle hrunning fun stream => ?_
      cases stream with
      | stdout => exact hfinished.1
      | stderr => exact hfinished.2
  | finish duration =>
    cases hrunning : state.running <;> cases hremaining : state.remaining <;>
      simp only [RunLoops.step, hrunning, hremaining, reduceCtorEq] at h
    split_ifs at h with hfinished
    have hstep : CaptureStep state (.finish duration) _ := .finish hrunning hremaining
      (Bool.eq_false_iff.mpr hfinished)
    rw [← Option.some.inj h]
    simpa only [hrunning, hremaining] using hstep

/-! ## The loops of a stage -/

/-- A chunk that a loop holds: it is in the buffer, and the observer was not given it. -/
def pendingChunk (loop : CaptureLoop) : List UInt8 :=
  match loop.phase with
  | .captured chunk _ => chunk
  | .numbered chunk _ _ => chunk
  | _ => []

@[simp] theorem withLoop_current (stage : RunningStage) (stream : Stream) (loop : CaptureLoop) :
    (stage.withLoop stream loop).current = stage.current := by
  cases stream <;> rfl

@[simp] theorem loop_withLoop_self (stage : RunningStage) (stream : Stream) (loop : CaptureLoop) :
    (stage.withLoop stream loop).loop stream = loop := by
  cases stream <;> rfl

theorem loop_withLoop_of_ne (stage : RunningStage) {stream other : Stream} (h : other ≠ stream)
    (loop : CaptureLoop) : (stage.withLoop stream loop).loop other = stage.loop other := by
  cases stream <;> cases other
  · exact absurd rfl h
  · rfl
  · rfl
  · exact absurd rfl h

/-- The loop that ends a round keeps its buffer and holds nothing. -/
theorem endRound_eq (stage : RunningStage) (stream : Stream) (target : List UInt8)
    (err : Option ReadErr) : (stage.endRound stream target err).current = stage.current ∧
      (∃ phase, (phase = .reading ∨ phase = .finished) ∧
        (stage.endRound stream target err).loop stream = { target, phase }) ∧
      ∀ other, other ≠ stream →
        (stage.endRound stream target err).loop other = stage.loop other := by
  cases err with
  | none =>
    refine ⟨withLoop_current _ _ _, ⟨.reading, Or.inl rfl, loop_withLoop_self _ _ _⟩, ?_⟩
    exact fun other hother => loop_withLoop_of_ne stage hother _
  | some err =>
    cases err with
    | eof =>
      refine ⟨withLoop_current _ _ _, ⟨.finished, Or.inr rfl, loop_withLoop_self _ _ _⟩, ?_⟩
      exact fun other hother => loop_withLoop_of_ne stage hother _
    | other cause =>
      refine ⟨withLoop_current _ _ _, ⟨.finished, Or.inr rfl, ?_⟩, fun other hother => ?_⟩
      · cases stream <;> rfl
      · have hsame := loop_withLoop_of_ne stage hother { target, phase := .finished }
        cases other <;> exact hsame

/-- INTERNAL: what every loop has passed on and still holds, where one of them is another. -/
theorem captured_withLoop {stage : RunningStage} {stream : Stream} {loop : CaptureLoop}
    {bytes : Stream → List UInt8} (hothers : ∀ other, other ≠ stream →
      bytes other ++ pendingChunk (stage.loop other) = (stage.loop other).target)
    (hown : bytes stream ++ pendingChunk loop = loop.target) (other : Stream) :
    bytes other ++ pendingChunk ((stage.withLoop stream loop).loop other) =
      ((stage.withLoop stream loop).loop other).target := by
  by_cases hother : other = stream
  · subst hother
    rw [loop_withLoop_self]
    exact hown
  · rw [loop_withLoop_of_ne stage hother]
    exact hothers other hother

/-- INTERNAL: the same behind a round. -/
theorem captured_endRound {stage : RunningStage} {stream : Stream} {err : Option ReadErr}
    {bytes : Stream → List UInt8} (hothers : ∀ other, other ≠ stream →
      bytes other ++ pendingChunk (stage.loop other) = (stage.loop other).target)
    (hown : bytes stream = (stage.loop stream).target) (other : Stream) :
    bytes other ++
        pendingChunk ((stage.endRound stream (stage.loop stream).target err).loop other) =
      ((stage.endRound stream (stage.loop stream).target err).loop other).target := by
  obtain ⟨-, ⟨phase, hnothing, hloop⟩, hkept⟩ :=
    endRound_eq stage stream (stage.loop stream).target err
  by_cases hother : other = stream
  · subst hother
    rw [hloop, hown]
    rcases hnothing with rfl | rfl <;> exact List.append_nil _
  · rw [hkept other hother]
    exact hothers other hother

/-! ## What the observer was given -/

/-- The bytes of a stream of a stage that are in events. -/
def bytesOf (events : List NumberedEvent) (stageID : GoString) (stream : Stream) : List UInt8 :=
  (events.filter fun event =>
    event.kind = .stageOutput ∧ event.stageID = stageID ∧ event.stream = some stream).flatMap (·.data)

/-- The bytes of a stream that a result returns. -/
def returnedBytes (result : StageResult) : Stream → List UInt8
  | .stdout => result.stdout
  | .stderr => result.stderr

theorem bytesOf_append (events more : List NumberedEvent) (stageID : GoString) (stream : Stream) :
    bytesOf (events ++ more) stageID stream =
      bytesOf events stageID stream ++ bytesOf more stageID stream := by
  rw [bytesOf, List.filter_append, List.flatMap_append]
  rfl

theorem bytesOf_silent {events : List NumberedEvent}
    (h : ∀ event ∈ events, event.kind ≠ .stageOutput) (stageID : GoString) (stream : Stream) :
    bytesOf events stageID stream = [] := by
  have hnone : events.filter (fun event => event.kind = .stageOutput ∧ event.stageID = stageID ∧
      event.stream = some stream) = [] := by
    rw [List.filter_eq_nil_iff]
    intro event hevent
    simp [h event hevent]
  rw [bytesOf, hnone]
  rfl

theorem bytesOf_append_silent (events : List NumberedEvent) {more : List NumberedEvent}
    (h : ∀ event ∈ more, event.kind ≠ .stageOutput) (stageID : GoString) (stream : Stream) :
    bytesOf (events ++ more) stageID stream = bytesOf events stageID stream := by
  rw [bytesOf_append, bytesOf_silent h, List.append_nil]

/-- An event without output adds no bytes. -/
theorem bytesOf_concat_silent (events : List NumberedEvent) {event : NumberedEvent}
    (h : event.kind ≠ .stageOutput) (stageID : GoString) (stream : Stream) :
    bytesOf (events ++ [event]) stageID stream = bytesOf events stageID stream :=
  bytesOf_append_silent events (by simpa using h) stageID stream

theorem bytesOf_concat (events : List NumberedEvent) (event : NumberedEvent) (stageID : GoString)
    (stream : Stream) : bytesOf (events ++ [event]) stageID stream =
      bytesOf events stageID stream ++
        if event.kind = .stageOutput ∧ event.stageID = stageID ∧ event.stream = some stream then
          event.data
        else [] := by
  rw [bytesOf_append]
  congr 1
  unfold bytesOf
  split_ifs with hsame
  · simp [hsame]
  · simp only [List.filter_cons, hsame, decide_false, Bool.false_eq_true, if_false,
      List.filter_nil, List.flatMap_nil]

/-- Output adds its bytes to its stream. -/
theorem bytesOf_concat_output (events : List NumberedEvent) (current : Stage.Task) (stream : Stream)
    (chunk : List UInt8) (sequence : UInt64) (stageID : GoString) (other : Stream) :
    bytesOf (events ++
        [{ toEvent := Stage.stageOutput current { stream, data := chunk }, sequence }]) stageID other =
      bytesOf events stageID other ++ if current.id = stageID ∧ stream = other then chunk else [] := by
  rw [bytesOf_concat]
  simp [Stage.stageOutput]

/-- A run has lost nothing: the observer was given the bytes of every result, and of the stage that
runs those in its buffers, but for the chunks that its loops hold. -/
structure Captured (plan : List Stage.Task) (state : RunLoops) : Prop where
  identifiers : state.results.map (·.id) ++ (state.running.map (·.current.id)).toList ++
    state.remaining.map (·.id) = plan.map (·.id)
  settled : ∀ result ∈ state.results, ∀ stream,
    bytesOf state.events result.id stream = returnedBytes result stream
  running : ∀ stage, state.running = some stage → ∀ stream,
    bytesOf state.events stage.current.id stream ++ pendingChunk (stage.loop stream) =
      (stage.loop stream).target
  waiting : ∀ current ∈ state.remaining, ∀ stream, bytesOf state.events current.id stream = []

theorem captured_start (plan : List Stage.Task) : Captured plan (Stage.startLoops plan) where
  identifiers := rfl
  settled _ hresult := by cases hresult
  running _ hstage := by cases hstage
  waiting _ _ _ := rfl

/-- INTERNAL: a result that is added, with the stages that are passed over behind it. -/
theorem captured_append {plan : List Stage.Task} {state : RunLoops} {result : StageResult}
    (hidentifiers : state.results.map (·.id) ++ [result.id] ++ state.remaining.map (·.id) =
      plan.map (·.id))
    (hsettled : ∀ settled ∈ state.results, ∀ stream,
      bytesOf state.events settled.id stream = returnedBytes settled stream)
    (hresult : ∀ stream, bytesOf state.events result.id stream = returnedBytes result stream)
    (hwaiting : ∀ current ∈ state.remaining, ∀ stream,
      bytesOf state.events current.id stream = []) : Captured plan (state.append result) := by
  have hboth : ∀ settled ∈ state.results ++ [result], ∀ stream,
      bytesOf state.events settled.id stream = returnedBytes settled stream := by
    rw [List.forall_mem_append, List.forall_mem_singleton]
    exact ⟨hsettled, hresult⟩
  unfold RunLoops.append
  dsimp only
  split_ifs with hpassed
  · have hsilent : ∀ event ∈ state.remaining.map fun current : Stage.Task =>
        ({ kind := .stageSkipped, stageID := current.id, status := some .skipped } : NumberedEvent),
        event.kind ≠ .stageOutput := by
      intro event hevent
      obtain ⟨current, -, rfl⟩ := List.mem_map.mp hevent
      exact fun h => by cases h
    refine ⟨?_, fun settled hmem stream => ?_, fun stage hstage => (by cases hstage),
      fun current hcurrent => (by cases hcurrent)⟩
    · rw [← hidentifiers]
      simp [Stage.skippedResult]
    · rw [bytesOf_append_silent _ hsilent]
      rcases List.mem_append.mp hmem with hmem | hmem
      · exact hboth settled hmem stream
      · obtain ⟨current, hcurrent, rfl⟩ := List.mem_map.mp hmem
        exact (hwaiting current hcurrent stream).trans (by cases stream <;> rfl)
  · refine ⟨?_, hboth, fun stage hstage => (by cases hstage), hwaiting⟩
    rw [← hidentifiers]
    simp

/-- INTERNAL: a stage that was not started has no output. -/
theorem runStage_unstarted (current : Stage.Task) {outcome : StageOutcome}
    (h : ∀ process, outcome ≠ .ran process) : (Stage.runStage current outcome).1.id = current.id ∧
      (∀ stream, returnedBytes (Stage.runStage current outcome).1 stream = []) ∧
      ∀ event ∈ (Stage.runStage current outcome).2.map Event.unnumbered,
        event.kind ≠ .stageOutput := by
  cases outcome with
  | ran process => exact absurd rfl (h process)
  | _ => exact ⟨rfl, fun stream => by cases stream <;> rfl, by
      simp [Stage.runStage, Stage.stageOutcome, Stage.stageFinished, Event.unnumbered]⟩

/-- INTERNAL: the result of a stage whose loops have returned. -/
theorem settled_eq (stage : RunningStage) (settlement : Stage.Settlement) :
    (stage.settled settlement).id = stage.current.id ∧
      ∀ stream, returnedBytes (stage.settled settlement) stream = (stage.loop stream).target := by
  refine ⟨?_, fun stream => by cases stream <;> rfl⟩
  have hinitial : StageOf (Stage.initialResult stage.current) stage.current := ⟨rfl, rfl, rfl⟩
  exact (classify_stageOf hinitial _).1.1

/-- INTERNAL: an action of the stage that runs, without output. -/
theorem Captured.of_running {plan : List Stage.Task} {state next : RunLoops}
    {stage stage' : RunningStage} (h : Captured plan state) (hrunning : state.running = some stage)
    (hnext : next.running = some stage') (hcurrent : stage'.current = stage.current)
    (hsame : ∀ stageID stream,
      bytesOf next.events stageID stream = bytesOf state.events stageID stream)
    (hresults : next.results = state.results) (hremaining : next.remaining = state.remaining)
    (hloop : ∀ stream, bytesOf state.events stage.current.id stream ++
      pendingChunk (stage'.loop stream) = (stage'.loop stream).target) : Captured plan next := by
  refine ⟨?_, fun result hresult stream => ?_, fun other hother stream => ?_,
    fun current hcurrent stream => ?_⟩
  · rw [hresults, hnext, hremaining, ← h.identifiers, hrunning, Option.map_some, Option.map_some,
      hcurrent]
  · rw [hresults] at hresult
    rw [hsame]
    exact h.settled result hresult stream
  · rw [hnext] at hother
    obtain rfl := Option.some.inj hother
    rw [hsame, hcurrent]
    exact hloop stream
  · rw [hremaining] at hcurrent
    rw [hsame]
    exact h.waiting current hcurrent stream

/-- **No action loses output.** -/
theorem Captured.next {plan : List Stage.Task} (hdistinct : (plan.map (·.id)).Nodup)
    {state next : RunLoops} {action : Action} (h : Captured plan state)
    (hstep : state.step action = some next) : Captured plan next := by
  cases captureStep hstep with
  | @start current remaining hrunning hremaining =>
    have hidentifiers := h.identifiers
    have hwaiting := h.waiting
    rw [hrunning, hremaining] at hidentifiers
    rw [hremaining, List.forall_mem_cons] at hwaiting
    have hsame : ∀ stageID stream, bytesOf (state.events ++
        [{ kind := .stageStarted, stageID := current.id }]) stageID stream =
          bytesOf state.events stageID stream :=
      bytesOf_concat_silent state.events (fun h => by cases h)
    refine ⟨?_, fun result hresult stream => ?_, fun stage hstage stream => ?_,
      fun other hother stream => ?_⟩
    · rw [← hidentifiers]
      simp [RunLoops.emit]
    · exact (hsame _ _).trans (h.settled result hresult stream)
    · obtain rfl := Option.some.inj hstage
      refine (congrArg (· ++ _) ((hsame _ _).trans (hwaiting.1 stream))).trans ?_
      cases stream <;> rfl
    · exact (hsame _ _).trans (hwaiting.2 other hother stream)
  | @startFails current remaining outcome hrunning hremaining hran =>
    obtain ⟨hid, hnothing, hsilent⟩ := runStage_unstarted current hran
    have hidentifiers := h.identifiers
    have hwaiting := h.waiting
    rw [hrunning, hremaining] at hidentifiers
    rw [hremaining, List.forall_mem_cons] at hwaiting
    have hsame := bytesOf_append_silent state.events hsilent
    apply captured_append
    · rw [hid, ← hidentifiers]
      simp
    · exact fun result hresult stream => (hsame _ _).trans (h.settled result hresult stream)
    · intro stream
      rw [hnothing, hid]
      exact (hsame _ _).trans (hwaiting.1 stream)
    · exact fun other hother stream => (hsame _ _).trans (hwaiting.2 other hother stream)
  | @cancelBefore current remaining cause hrunning hremaining =>
    have hidentifiers := h.identifiers
    have hwaiting := h.waiting
    rw [hrunning, hremaining] at hidentifiers
    rw [hremaining, List.forall_mem_cons] at hwaiting
    have hsame : ∀ stageID stream, bytesOf (state.events ++ [{
        kind := .stageFinished
        stageID := current.id
        status := some .cancelled
        exitCode := 130 }]) stageID stream = bytesOf state.events stageID stream :=
      bytesOf_concat_silent state.events (fun h => by cases h)
    apply captured_append
    · rw [← hidentifiers]
      simp [RunLoops.emit, Stage.cancelledResult]
    · exact fun result hresult stream => (hsame _ _).trans (h.settled result hresult stream)
    · intro stream
      refine ((hsame _ _).trans (hwaiting.1 stream)).trans ?_
      cases stream <;> rfl
    · exact fun other hother stream => (hsame _ _).trans (hwaiting.2 other hother stream)
  | @readNothing stage stream err hrunning hphase =>
    have hbefore := h.running stage hrunning
    have hcurrent := (endRound_eq stage stream (stage.loop stream).target err).1
    refine h.of_running hrunning rfl hcurrent (fun _ _ => rfl) rfl rfl ?_
    apply captured_endRound fun other _ => hbefore other
    have hown := hbefore stream
    rwa [pendingChunk, hphase, List.append_nil] at hown
  | @readChunk stage stream chunk err hrunning hphase hchunk hlength =>
    have hbefore := h.running stage hrunning
    refine h.of_running hrunning rfl (withLoop_current _ _ _) (fun _ _ => rfl) rfl rfl ?_
    apply captured_withLoop fun other _ => hbefore other
    have hown := hbefore stream
    rw [pendingChunk, hphase, List.append_nil] at hown
    exact congrArg (· ++ chunk) hown
  | @number stage stream chunk err hrunning hphase =>
    have hbefore := h.running stage hrunning
    refine h.of_running hrunning rfl (withLoop_current _ _ _) (fun _ _ => rfl) rfl rfl ?_
    apply captured_withLoop fun other _ => hbefore other
    have hown := hbefore stream
    rw [pendingChunk, hphase] at hown
    exact hown
  | @deliver stage stream chunk sequence err hrunning hphase =>
    have hcurrent := (endRound_eq stage stream (stage.loop stream).target err).1
    have hidentifiers := h.identifiers
    rw [hrunning] at hidentifiers
    rw [← hidentifiers, List.append_assoc, List.nodup_append] at hdistinct
    obtain ⟨-, hrest, hsettled⟩ := hdistinct
    have hadds := bytesOf_concat_output state.events stage.current stream chunk sequence
    -- The output belongs to the stage that runs, and the stages of a plan are different ones.
    have hsame : ∀ stageID, stage.current.id ≠ stageID → ∀ other, bytesOf (state.events ++
        [{ toEvent := Stage.stageOutput stage.current { stream, data := chunk }, sequence }])
          stageID other = bytesOf state.events stageID other := by
      intro stageID hne other
      rw [hadds, if_neg fun hboth => hne hboth.1, List.append_nil]
    refine ⟨?_, fun result hresult other => ?_, fun stage' hstage => ?_,
      fun current hwaits other => ?_⟩
    · rw [← hidentifiers]
      simp [RunLoops.emit, hcurrent]
    · have hne : stage.current.id ≠ result.id := fun heq =>
        hsettled _ (List.mem_map_of_mem hresult) _ (List.mem_append_left _ (by simp)) heq.symm
      exact (hsame _ hne _).trans (h.settled result hresult other)
    · obtain rfl := Option.some.inj hstage
      have hbefore := h.running stage hrunning
      rw [hcurrent]
      apply captured_endRound
      · intro other hother
        refine Eq.trans ?_ (hbefore other)
        exact congrArg (· ++ _) ((hadds _ other).trans (by
          rw [if_neg fun hboth => hother hboth.2.symm, List.append_nil]))
      · have hown := hbefore stream
        rw [pendingChunk, hphase] at hown
        exact ((hadds _ stream).trans (by rw [if_pos ⟨rfl, rfl⟩])).trans hown
    · have hne : stage.current.id ≠ current.id := fun heq => by
        rw [List.nodup_append] at hrest
        exact hrest.2.2 _ (by simp) _ (List.mem_map_of_mem hwaits) heq
      exact (hsame _ hne _).trans (h.waiting current hwaits other)
  | @requestCancellation stage hrunning hrequested =>
    refine h.of_running hrunning rfl rfl (bytesOf_concat_silent state.events (fun h => by cases h))
      rfl rfl fun stream => ?_
    exact (by cases stream <;> exact h.running stage hrunning _)
  | @settle stage settlement hrunning hfinished =>
    obtain ⟨hid, hreturned⟩ := settled_eq stage settlement
    have hidentifiers := h.identifiers
    rw [hrunning] at hidentifiers
    have hsame : ∀ stageID stream, bytesOf (state.events ++
        [(Stage.stageFinished (stage.settled settlement)).unnumbered]) stageID stream =
          bytesOf state.events stageID stream :=
      bytesOf_concat_silent state.events (fun h => by cases h)
    apply captured_append
    · rw [hid, ← hidentifiers]
      simp [RunLoops.emit]
    · exact fun result hresult stream => (hsame _ _).trans (h.settled result hresult stream)
    · intro stream
      have hbefore := h.running stage hrunning stream
      rw [pendingChunk, hfinished stream, List.append_nil] at hbefore
      rw [hreturned, hid]
      exact (hsame _ _).trans hbefore
    · exact fun other hother stream => (hsame _ _).trans (h.waiting other hother stream)
  | @finish duration hrunning hremaining hfinished =>
    have hidentifiers := h.identifiers
    rw [hrunning, hremaining] at hidentifiers
    have hsame : ∀ stageID stream, bytesOf (state.events ++
        [{ kind := .runFinished, status := some state.status, duration }]) stageID stream =
          bytesOf state.events stageID stream :=
      bytesOf_concat_silent state.events (fun h => by cases h)
    refine ⟨?_, fun result hresult stream => ?_, fun stage hstage => ?_, fun other hother => ?_⟩
    · rw [← hidentifiers]
      simp [RunLoops.emit, hrunning, hremaining]
    · exact (hsame _ _).trans (h.settled result hresult stream)
    · exact absurd (hrunning.symm.trans hstage) (by simp)
    · exact absurd (hremaining ▸ hother) (by simp)

/-- **No run loses output.** -/
theorem captured_run {plan : List Stage.Task} (hdistinct : (plan.map (·.id)).Nodup)
    {actions : List Action} {state : RunLoops}
    (h : Transitions.run RunLoops.step (Stage.startLoops plan) actions = some state) :
    Captured plan state :=
  Transitions.run_invariant (captured_start plan)
    (fun _ _ _ hstate hnext => hstate.next hdistinct hnext) h

end Tickline.Analysis
