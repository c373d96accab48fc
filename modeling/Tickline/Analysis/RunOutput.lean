import Tickline.Analysis.CaptureRuns
import Tickline.Analysis.StageRuns
import Tickline.Model.Prelude

/-!
# The output in the events of a run

A stage's result returns, stream by stream, the bytes of its output events (`runStage_output`), and
no other stage's events are output of it.  So for a plan of distinct stages the events of a whole
run hold the output of every result (`run_output`), those of stages that were not started included,
which have none.
-/

set_option autoImplicit false

namespace Tickline.Analysis

open Tickline.Library Tickline.Model
open Tickline.Model.Stage (Event NumberedEvent OutputChunk RunEnvironment RunResult RunState
  StageOutcome StageProcess StageResult Status Stream runStage runStages)

/-! ## One stage -/

/-- Events without their numbers. -/
def numbered (events : List Event) : List NumberedEvent := events.map Event.unnumbered

theorem numbered_append (events more : List Event) :
    numbered (events ++ more) = numbered events ++ numbered more := List.map_append

theorem numbered_silent {events : List Event} (h : ∀ event ∈ events, event.kind ≠ .stageOutput)
    (stageID : GoString) (stream : Stream) : bytesOf (numbered events) stageID stream = [] := by
  refine bytesOf_silent (fun event hevent => ?_) stageID stream
  obtain ⟨plain, hplain, rfl⟩ := List.mem_map.mp hevent
  exact h plain hplain

/-- The output of other stages is no output of a stage. -/
theorem numbered_other {events : List Event} {stageID : GoString}
    (h : ∀ event ∈ events, event.kind = .stageOutput → event.stageID ≠ stageID) (stream : Stream) :
    bytesOf (numbered events) stageID stream = [] := by
  have hnone : (numbered events).filter (fun event => event.kind = .stageOutput ∧
      event.stageID = stageID ∧ event.stream = some stream) = [] := by
    rw [List.filter_eq_nil_iff]
    intro event hevent hall
    obtain ⟨plain, hplain, rfl⟩ := List.mem_map.mp hevent
    obtain ⟨hkind, hid, -⟩ := of_decide_eq_true hall
    exact h plain hplain hkind hid
  rw [bytesOf, hnone]
  rfl

/-- The bytes of a stream in chunks. -/
theorem bytesOf_chunks (current : Stage.Task) (chunks : List OutputChunk) (stream : Stream) :
    bytesOf (numbered (chunks.map (Stage.stageOutput current))) current.id stream =
      (chunks.filter (·.stream = stream)).flatMap (·.data) := by
  rw [bytesOf, numbered, List.map_map, List.filter_map, List.flatMap_map]
  congr 2
  funext chunk
  simp [Stage.stageOutput, Event.unnumbered]

/-- INTERNAL: classifying a process returns what its readers have gathered. -/
theorem returnedBytes_classify (result : StageResult) (process : StageProcess) (stream : Stream) :
    returnedBytes (Stage.classify result process) stream = process.captured stream := by
  unfold Stage.classify
  cases stream
  all_goals
    split
    · split <;> rfl
    · split
      · rfl
      · split <;> rfl

/-- The events of a cancelled process behind its output. -/
def requested (current : Stage.Task) (process : StageProcess) : List Event :=
  if process.cancelled.isSome then
    { kind := .cancellationRequested, stageID := current.id } ::
      process.drained.map (Stage.stageOutput current)
  else []

theorem bytesOf_requested (current : Stage.Task) (process : StageProcess) (stream : Stream) :
    bytesOf (numbered (requested current process)) current.id stream =
      ((if process.cancelled.isSome then process.drained else []).filter
        (·.stream = stream)).flatMap (·.data) := by
  unfold requested
  split_ifs with hcancelled
  · rw [← List.singleton_append, numbered_append, bytesOf_append, bytesOf_chunks,
      numbered_silent (by simp), List.nil_append]
  · rfl

/-- **The result of a stage returns the output of its events**, all of which is its own. -/
theorem runStage_output (current : Stage.Task) (outcome : StageOutcome) :
    (∀ stream, bytesOf (numbered (runStage current outcome).2) current.id stream =
      returnedBytes (runStage current outcome).1 stream) ∧
    ∀ event ∈ (runStage current outcome).2, event.kind = .stageOutput →
      event.stageID = current.id := by
  constructor
  · intro stream
    cases outcome with
    | ran process =>
      have hevents : (runStage current (.ran process)).2 =
          [{ kind := .stageStarted, stageID := current.id }] ++
            process.output.map (Stage.stageOutput current) ++ requested current process ++
              [Stage.stageFinished (Stage.classify (Stage.initialResult current) process)] := by
        simp [runStage, Stage.stageOutcome, requested]
      have hresult : (runStage current (.ran process)).1 =
          Stage.classify (Stage.initialResult current) process := rfl
      rw [hevents, hresult, returnedBytes_classify, numbered_append, numbered_append,
        numbered_append, bytesOf_append, bytesOf_append, bytesOf_append, bytesOf_chunks,
        bytesOf_requested, numbered_silent (by simp), numbered_silent (by simp [Stage.stageFinished]),
        List.nil_append, List.append_nil, StageProcess.captured, StageProcess.chunks,
        List.filter_append, List.flatMap_append]
    | _ =>
      rw [numbered_silent (by simp [runStage, Stage.stageOutcome, Stage.stageFinished])]
      cases stream <;> rfl
  · obtain ⟨stage, between, hrun, -, -, hbetween⟩ := runStage_eq current outcome
    rw [hrun]
    intro event hevent hkind
    rcases List.mem_cons.mp hevent with rfl | hevent
    · cases hkind
    · rcases List.mem_append.mp hevent with hevent | hlast
      · exact (hbetween event hevent).stage
      · obtain rfl := List.mem_singleton.mp hlast
        cases hkind

/-! ## A run -/

/-- Every result so far returns the output of its events, and the stages that remain have none. -/
structure Heard (state : RunState) (remaining : List Stage.Task) : Prop where
  results : ∀ result ∈ state.result.stages, ∀ stream,
    bytesOf (numbered state.events) result.id stream = returnedBytes result stream
  silent : ∀ current ∈ remaining, ∀ stream,
    bytesOf (numbered state.events) current.id stream = []
  distinct : (state.result.stages.map (·.id) ++ remaining.map (·.id)).Nodup

namespace Heard

variable {state : RunState} {current : Stage.Task} {remaining : List Stage.Task}

/-- INTERNAL: a result with the events that go with it. -/
theorem append (h : Heard state (current :: remaining)) {stage : StageResult} {events : List Event}
    (hid : stage.id = current.id)
    (hown : ∀ event ∈ events, event.kind = .stageOutput → event.stageID = current.id)
    (hbytes : ∀ stream, bytesOf (numbered events) current.id stream = returnedBytes stage stream) :
    Heard (state.append stage events) remaining := by
  have hnodup : ((state.result.stages.map (·.id) ++ [current.id]) ++
      remaining.map (·.id)).Nodup := by
    simpa using h.distinct
  obtain ⟨hfront, -, happart⟩ := List.nodup_append.mp hnodup
  have hother : ∀ id, id ≠ current.id → ∀ stream,
      bytesOf (numbered (state.append stage events).events) id stream =
        bytesOf (numbered state.events) id stream := by
    intro id hne stream
    show bytesOf (numbered (state.events ++ events)) id stream = _
    rw [numbered_append, bytesOf_append, numbered_other (fun event hevent hkind heq =>
      hne (heq.symm.trans (hown event hevent hkind))), List.append_nil]
  refine ⟨fun result hresult stream => ?_, fun later hlater stream => ?_, ?_⟩
  · rcases List.mem_append.mp hresult with hold | hlast
    · have hne : result.id ≠ current.id := by
        intro heq
        exact (List.nodup_append.mp hfront).2.2 _ (List.mem_map_of_mem hold) _
          (List.mem_singleton.mpr rfl) heq
      rw [hother _ hne]
      exact h.results result hold stream
    · obtain rfl := List.mem_singleton.mp hlast
      show bytesOf (numbered (state.events ++ events)) result.id stream = _
      rw [hid, numbered_append, bytesOf_append, h.silent current List.mem_cons_self,
        List.nil_append]
      exact hbytes stream
  · have hne : later.id ≠ current.id := fun heq =>
      happart _ (List.mem_append_right _ (List.mem_singleton.mpr rfl)) _
        (List.mem_map_of_mem hlater) heq.symm
    rw [hother _ hne]
    exact h.silent later (List.mem_cons_of_mem _ hlater) stream
  · show ((state.result.stages ++ [stage]).map (·.id) ++ _).Nodup
    rw [List.map_append, List.map_singleton, hid]
    exact hnodup

/-- INTERNAL: the stages that are passed over have no output. -/
theorem stop (h : Heard state remaining) (status : Status) :
    ∀ result ∈ (state.stop status remaining).result.stages, ∀ stream,
      bytesOf (numbered (state.stop status remaining).events) result.id stream =
        returnedBytes result stream := by
  intro result hresult stream
  have hsame : bytesOf (numbered (state.stop status remaining).events) result.id stream =
      bytesOf (numbered state.events) result.id stream := by
    have hpassed : bytesOf (numbered (remaining.map skippedEvent)) result.id stream = [] :=
      numbered_silent (by simp [skippedEvent]) _ _
    show bytesOf (numbered (state.events ++ remaining.map skippedEvent)) _ _ = _
    rw [numbered_append, bytesOf_append, hpassed, List.append_nil]
  rw [hsame]
  rcases List.mem_append.mp hresult with hold | hskipped
  · exact h.results result hold stream
  · obtain ⟨current, hcurrent, rfl⟩ := List.mem_map.mp hskipped
    refine (h.silent current hcurrent stream).trans ?_
    cases stream <;> rfl

end Heard

/-- **The loop of the runner hears all output.** -/
theorem runStages_output (environment : RunEnvironment) (index : ℕ) {plan : List Stage.Task}
    {state : RunState} (h : Heard state plan) :
    ∀ result ∈ (runStages environment index plan state).result.stages, ∀ stream,
      bytesOf (numbered (runStages environment index plan state).events) result.id stream =
        returnedBytes result stream := by
  induction plan generalizing index state with
  | nil => exact h.results
  | cons current remaining ih =>
    cases hcause : environment.contextErr index with
    | some cause =>
      have happended : Heard (state.append (Stage.cancelledResult current cause)
          [cancelledEvent current]) remaining := by
        refine h.append rfl (by simp [cancelledEvent]) fun stream => ?_
        rw [numbered_silent (by simp [cancelledEvent])]
        cases stream <;> rfl
      simp only [runStages, hcause]
      exact happended.stop .cancelled
    | none =>
      obtain ⟨hbytes, hown⟩ := runStage_output current (environment.outcome index current)
      obtain ⟨stage, between, hrun, hstage, -, -⟩ :=
        runStage_eq current (environment.outcome index current)
      simp only [runStages, hcause]
      rw [hrun] at hbytes hown ⊢
      have happended := h.append hstage.1 hown hbytes
      split_ifs
      · exact happended.stop stage.status
      · exact ih (index + 1) happended

/-- INTERNAL: a run that has a result has a directory to run in. -/
theorem not_rootRefused_of_run {environment : RunEnvironment} {repositoryRoot : GoString}
    {plan : List Stage.Task} {output : RunResult × List Event}
    (h : Stage.run environment repositoryRoot plan = .ok output) :
    ¬ RootRefused environment repositoryRoot := by
  intro hrefused
  unfold Stage.run at h
  cases habs : environment.files.abs repositoryRoot with
  | error fault => simp [habs, Except.mapError, bind, Except.bind] at h
  | ok root =>
    cases hstat : environment.files.stat root with
    | error fault => simp [habs, hstat, Except.mapError, bind, Except.bind] at h
    | ok info =>
      simp [habs, hstat, hrefused root info habs hstat, Except.mapError, bind, Except.bind,
        throw, throwThe, MonadExceptOf.throw] at h

/-- INTERNAL: the results of a run are those of its plan. -/
theorem run_ids {environment : RunEnvironment} {repositoryRoot : GoString} {plan : List Stage.Task}
    {result : RunResult} {events : List Event}
    (h : Stage.run environment repositoryRoot plan = .ok (result, events)) :
    result.stages.map (·.id) = plan.map (·.id) := by
  have hplan : plan ≠ [] := by
    have hchecks := h
    simp only [Stage.run, Checks.bind_ok_iff, except_guard_iff] at hchecks
    obtain ⟨root, -, info, -, -, hplan, -⟩ := hchecks
    exact hplan
  obtain ⟨stages, own, status, hloop, hrun⟩ := run_eq (not_rootRefused_of_run h) hplan
  obtain ⟨rfl, -⟩ := Prod.mk.inj (Except.ok.inj (h.symm.trans hrun))
  have hids : List.Forall₂ Eq (stages.map (·.id)) (plan.map (·.id)) := by
    rw [List.forall₂_map_left_iff, List.forall₂_map_right_iff]
    exact hloop.inPlanOrder.imp fun _ _ hstage => hstage.1
  exact List.forall₂_eq_eq_eq ▸ hids

/-- **The events of a run hold the output of every result.** -/
theorem run_output {environment : RunEnvironment} {repositoryRoot : GoString}
    {plan : List Stage.Task} (hdistinct : (plan.map (·.id)).Nodup) {result : RunResult}
    {events : List Event} (h : Stage.run environment repositoryRoot plan = .ok (result, events)) :
    ∀ stage ∈ result.stages, ∀ stream,
      bytesOf (numbered events) stage.id stream = returnedBytes stage stream := by
  let start : RunState :=
    { result := { status := .passed, stages := [] }, events := [{ kind := .runStarted }] }
  have hheard : Heard start plan := by
    refine ⟨by simp [start], fun current _ stream => ?_, by simpa [start] using hdistinct⟩
    exact numbered_silent (by simp [start]) _ _
  simp only [Stage.run, Checks.bind_ok_iff, except_guard_iff] at h
  obtain ⟨root, -, info, -, -, -, h⟩ := h
  obtain ⟨rfl, rfl⟩ := Prod.mk.inj (Except.ok.inj h)
  intro stage hstage stream
  have hlast : ∀ last : Event, last.kind = .runFinished →
      bytesOf (numbered [last]) stage.id stream = [] := fun last hlast =>
    numbered_silent (by simp [hlast]) _ _
  rw [numbered_append, bytesOf_append, hlast _ rfl, List.append_nil]
  exact runStages_output environment 0 hheard stage hstage stream

/-! ## Streams -/

/-- Output is that of a stream. -/
def Streamed (events : List Event) : Prop :=
  ∀ event ∈ events, event.kind = .stageOutput → event.stream.isSome = true

theorem Streamed.append {events more : List Event} (h : Streamed events) (h' : Streamed more) :
    Streamed (events ++ more) := by
  intro event hevent
  rcases List.mem_append.mp hevent with hevent | hevent
  · exact h event hevent
  · exact h' event hevent

theorem streamed_silent {events : List Event} (h : ∀ event ∈ events, event.kind ≠ .stageOutput) :
    Streamed events := fun event hevent hkind => absurd hkind (h event hevent)

theorem streamed_chunks (current : Stage.Task) (chunks : List OutputChunk) :
    Streamed (chunks.map (Stage.stageOutput current)) := by
  intro event hevent _
  obtain ⟨chunk, -, rfl⟩ := List.mem_map.mp hevent
  rfl

theorem runStage_streamed (current : Stage.Task) (outcome : StageOutcome) :
    Streamed (runStage current outcome).2 := by
  cases outcome with
  | ran process =>
    have hevents : (runStage current (.ran process)).2 =
        [{ kind := .stageStarted, stageID := current.id }] ++
          process.output.map (Stage.stageOutput current) ++ requested current process ++
            [Stage.stageFinished (Stage.classify (Stage.initialResult current) process)] := by
      simp [runStage, Stage.stageOutcome, requested]
    have hrequested : Streamed (requested current process) := by
      unfold requested
      split_ifs
      · rw [← List.singleton_append]
        exact (streamed_silent (by simp)).append (streamed_chunks current process.drained)
      · exact streamed_silent (by simp)
    rw [hevents]
    exact (((streamed_silent (by simp)).append (streamed_chunks current process.output)).append
      hrequested).append (streamed_silent (by simp [Stage.stageFinished]))
  | _ => exact streamed_silent (by simp [runStage, Stage.stageOutcome, Stage.stageFinished])

theorem runStages_streamed (environment : RunEnvironment) (index : ℕ) {plan : List Stage.Task}
    {state : RunState} (h : Streamed state.events) :
    Streamed (runStages environment index plan state).events := by
  have hskipped : ∀ remaining : List Stage.Task, Streamed (remaining.map skippedEvent) :=
    fun remaining => streamed_silent (by simp [skippedEvent])
  induction plan generalizing index state with
  | nil => exact h
  | cons current remaining ih =>
    cases hcause : environment.contextErr index with
    | some cause =>
      simp only [runStages, hcause]
      exact (h.append (streamed_silent (by simp))).append (hskipped remaining)
    | none =>
      have hstage := h.append (runStage_streamed current (environment.outcome index current))
      simp only [runStages, hcause]
      split_ifs
      · exact hstage.append (hskipped remaining)
      · exact ih (index + 1) hstage

/-- **The output of a run** is that of streams. -/
theorem run_streamed {environment : RunEnvironment} {repositoryRoot : GoString}
    {plan : List Stage.Task} {result : RunResult} {events : List Event}
    (h : Stage.run environment repositoryRoot plan = .ok (result, events)) : Streamed events := by
  simp only [Stage.run, Checks.bind_ok_iff, except_guard_iff] at h
  obtain ⟨root, -, info, -, -, -, h⟩ := h
  obtain ⟨-, rfl⟩ := Prod.mk.inj (Except.ok.inj h)
  exact (runStages_streamed environment 0 (streamed_silent (by simp))).append
    (streamed_silent (by simp))

end Tickline.Analysis
