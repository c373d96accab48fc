import Tickline.Analysis.TaskPlan
import Tickline.Model.StageRunner

/-!
# Runs of a plan

The loop of the runner is a chain of stages that pass, which ends at the end of the plan, at a
stage that does not pass or before a stage that is not started (`StageLoop`).  The results of
such a chain are one for every stage of the plan, and a stage starts behind the results of all
stages before it (`StageLoop.starts`).  As a plan has every stage behind what it requires
(`Planned.requires_before`), no stage runs before its dependencies pass.
-/

set_option autoImplicit false

namespace Tickline.Analysis

open Tickline.Library Tickline.Library.Checks Tickline.Model
open Tickline.Model.Stage (Manifest Selection tasksByID RunEnvironment RunResult StageResult Event
  Status runStage runStages)

/-! ## One stage -/

/-- What a result repeats of its stage. -/
def StageOf (result : StageResult) (current : Stage.Task) : Prop :=
  result.id = current.id ∧ result.label = current.label ∧ result.scriptPath = current.scriptPath

/-- INTERNAL: classifying a process changes neither the stage nor makes it skipped. -/
theorem classify_stageOf {result : StageResult} {current : Stage.Task}
    (h : StageOf result current) (process : Stage.StageProcess) :
    StageOf (Stage.classify result process) current ∧
      (Stage.classify result process).status ≠ .skipped := by
  unfold Stage.classify
  split
  · split <;> exact ⟨h, by simp⟩
  · split
    · exact ⟨h, by simp⟩
    · split <;> exact ⟨h, by simp⟩

/-- An event of a stage while it runs: output of its process, or a request to cancel it. -/
structure WhileRunning (current : Stage.Task) (event : Event) : Prop where
  stage : event.stageID = current.id
  kind : event.kind = .stageOutput ∨ event.kind = .cancellationRequested

/-- INTERNAL: output belongs to the stage that runs. -/
theorem whileRunning_output {current : Stage.Task} {chunks : List Stage.OutputChunk} :
    ∀ event ∈ chunks.map (Stage.stageOutput current), WhileRunning current event := by
  intro event hevent
  obtain ⟨chunk, -, rfl⟩ := List.mem_map.mp hevent
  exact ⟨rfl, .inl rfl⟩

/-- **A stage that is started** emits its start first and its end last, and between them what
belongs to it while it runs. -/
theorem runStage_eq (current : Stage.Task) (outcome : Stage.StageOutcome) :
    ∃ stage between, runStage current outcome =
        (stage, { kind := .stageStarted, stageID := current.id } ::
          (between ++ [Stage.stageFinished stage])) ∧
      StageOf stage current ∧ stage.status ≠ .skipped ∧
      ∀ event ∈ between, WhileRunning current event := by
  have hinitial : StageOf (Stage.initialResult current) current := ⟨rfl, rfl, rfl⟩
  unfold runStage Stage.stageOutcome
  cases outcome with
  | stdoutPipe cause => exact ⟨_, [], rfl, hinitial, by simp [Stage.initialResult], by simp⟩
  | stderrPipe cause => exact ⟨_, [], rfl, hinitial, by simp [Stage.initialResult], by simp⟩
  | notStarted cause => exact ⟨_, [], rfl, hinitial, by simp [Stage.initialResult], by simp⟩
  | ran process =>
    obtain ⟨hstage, hstatus⟩ := classify_stageOf hinitial process
    refine ⟨_, _, rfl, hstage, hstatus, fun event hevent => ?_⟩
    rcases List.mem_append.mp hevent with hevent | hevent
    · exact whileRunning_output event hevent
    · split at hevent
      · rcases List.mem_cons.mp hevent with rfl | hevent
        · exact ⟨rfl, .inr rfl⟩
        · exact whileRunning_output event hevent
      · simp at hevent

/-! ## The loop -/

/-- The event of a stage that is passed over. -/
def skippedEvent (current : Stage.Task) : Event where
  kind := .stageSkipped
  stageID := current.id
  status := some .skipped

/-- The event of a stage before which the context was cancelled. -/
def cancelledEvent (current : Stage.Task) : Event where
  kind := .stageFinished
  stageID := current.id
  status := some .cancelled
  exitCode := 130

/-- **The loop**, from an index and the remaining stages on: the results, the events and the
status it adds. -/
inductive StageLoop (environment : RunEnvironment) :
    ℕ → List Stage.Task → List StageResult → List Event → Status → Prop
  | done (index : ℕ) : StageLoop environment index [] [] [] .passed
  | cancelled {index : ℕ} {current : Stage.Task} {remaining : List Stage.Task} {cause : GoString}
      (hcause : environment.contextErr index = some cause) :
      StageLoop environment index (current :: remaining)
        (Stage.cancelledResult current cause :: remaining.map Stage.skippedResult)
        (cancelledEvent current :: remaining.map skippedEvent) .cancelled
  | stopped {index : ℕ} {current : Stage.Task} {remaining : List Stage.Task} {stage : StageResult}
      {between : List Event} (hstage : StageOf stage current) (hskipped : stage.status ≠ .skipped)
      (hbetween : ∀ event ∈ between, WhileRunning current event)
      (hstatus : stage.status ≠ .passed) :
      StageLoop environment index (current :: remaining)
        (stage :: remaining.map Stage.skippedResult)
        ({ kind := .stageStarted, stageID := current.id } ::
          (between ++ [Stage.stageFinished stage] ++ remaining.map skippedEvent)) stage.status
  | passed {index : ℕ} {current : Stage.Task} {remaining : List Stage.Task} {stage : StageResult}
      {between events : List Event} {stages : List StageResult} {status : Status}
      (hstage : StageOf stage current)
      (hbetween : ∀ event ∈ between, WhileRunning current event)
      (hstatus : stage.status = .passed)
      (hrest : StageLoop environment (index + 1) remaining stages events status) :
      StageLoop environment index (current :: remaining) (stage :: stages)
        ({ kind := .stageStarted, stageID := current.id } ::
          (between ++ [Stage.stageFinished stage] ++ events)) status

/-- The loop of the runner is such a chain. -/
theorem runStages_loop (environment : RunEnvironment) (index : ℕ) (remaining : List Stage.Task)
    {state : Stage.RunState} (hstatus : state.result.status = .passed) :
    ∃ stages events status, StageLoop environment index remaining stages events status ∧
      runStages environment index remaining state =
        { result := { state.result with status, stages := state.result.stages ++ stages }
          events := state.events ++ events } := by
  induction remaining generalizing index state with
  | nil =>
    refine ⟨[], [], .passed, .done index, ?_⟩
    rw [List.append_nil, List.append_nil, ← hstatus]
    rfl
  | cons current remaining ih =>
    cases hcause : environment.contextErr index with
    | some cause =>
      refine ⟨_, _, _, .cancelled hcause, ?_⟩
      simp [runStages, hcause, Stage.RunState.append, Stage.RunState.stop, Stage.appendSkipped,
        cancelledEvent, skippedEvent]
    | none =>
      obtain ⟨stage, between, hrun, hstage, hskipped, hbetween⟩ :=
        runStage_eq current (environment.outcome index current)
      by_cases hpassed : stage.status = .passed
      · obtain ⟨stages, events, status, hloop, heq⟩ := @ih (index + 1) (state.append stage
          ({ kind := .stageStarted, stageID := current.id } ::
            (between ++ [Stage.stageFinished stage]))) hstatus
        refine ⟨_, _, _, .passed hstage hbetween hpassed hloop, ?_⟩
        simp only [runStages, hcause, hrun, hpassed, ne_eq, not_true, if_false, heq]
        simp [Stage.RunState.append]
      · refine ⟨_, _, _, .stopped hstage hskipped hbetween hpassed, ?_⟩
        simp [runStages, hcause, hrun, hpassed, Stage.RunState.append, Stage.RunState.stop,
          Stage.appendSkipped, skippedEvent]

/-! ## What the loop adds -/

/-- One result for every stage, in order. -/
def InPlanOrder (stages : List StageResult) (plan : List Stage.Task) : Prop :=
  List.Forall₂ StageOf stages plan

/-- A front of stages that passed, at most one that did not, and stages that were skipped. -/
def StopsOnce (stages : List StageResult) : Prop :=
  ∃ passed stopped skipped, stages = passed ++ stopped ++ skipped ∧
    (∀ stage ∈ passed, stage.status = .passed) ∧
    stopped.length ≤ 1 ∧ (∀ stage ∈ stopped, stage.status ≠ .passed ∧ stage.status ≠ .skipped) ∧
    (∀ stage ∈ skipped, stage.status = .skipped) ∧ (stopped = [] → skipped = [])

/-- The status that a run takes from its stages. -/
def statusOf (stages : List StageResult) : Status :=
  match stages.find? (·.status ≠ .passed) with
  | some stage => stage.status
  | none => .passed

namespace StageLoop

variable {environment : RunEnvironment} {index : ℕ} {plan : List Stage.Task}
  {stages : List StageResult} {events : List Event} {status : Status}

/-- INTERNAL: the results of the stages passed over. -/
theorem inPlanOrder_skipped (plan : List Stage.Task) :
    InPlanOrder (plan.map Stage.skippedResult) plan := by
  induction plan with
  | nil => exact .nil
  | cons current plan ih => exact .cons ⟨rfl, rfl, rfl⟩ ih

theorem inPlanOrder (h : StageLoop environment index plan stages events status) :
    InPlanOrder stages plan := by
  induction h with
  | done => exact .nil
  | cancelled => exact .cons ⟨rfl, rfl, rfl⟩ (inPlanOrder_skipped _)
  | stopped hstage => exact .cons hstage (inPlanOrder_skipped _)
  | passed hstage _ _ _ ih => exact .cons hstage ih

/-- INTERNAL: a stage that does not pass, and stages passed over behind it. -/
theorem stopsOnce_stopped {stage : StageResult}
    (hstage : stage.status ≠ .passed ∧ stage.status ≠ .skipped)
    (remaining : List Stage.Task) : StopsOnce (stage :: remaining.map Stage.skippedResult) := by
  refine ⟨[], [stage], remaining.map Stage.skippedResult, rfl, by simp, by simp, ?_, ?_, by simp⟩
  · simpa using hstage
  · intro skipped hskipped
    obtain ⟨current, -, rfl⟩ := List.mem_map.mp hskipped
    rfl

theorem stopsOnce (h : StageLoop environment index plan stages events status) :
    StopsOnce stages := by
  induction h with
  | done => exact ⟨[], [], [], rfl, by simp, by simp, by simp, by simp, by simp⟩
  | cancelled => exact stopsOnce_stopped (by simp [Stage.cancelledResult]) _
  | stopped _ hskipped _ hstatus => exact stopsOnce_stopped ⟨hstatus, hskipped⟩ _
  | @passed _ _ _ stage _ _ _ _ _ _ hstatus _ ih =>
    obtain ⟨passed, stopped, skipped, rfl, hpassed, hrest⟩ := ih
    exact ⟨stage :: passed, stopped, skipped, rfl, List.forall_mem_cons.mpr ⟨hstatus, hpassed⟩,
      hrest⟩

theorem status_eq (h : StageLoop environment index plan stages events status) :
    status = statusOf stages := by
  unfold statusOf
  induction h with
  | done => rfl
  | cancelled => simp [Stage.cancelledResult]
  | stopped _ _ _ hstatus => simp [hstatus]
  | passed _ _ hstatus _ ih => simpa [hstatus] using ih

/-- INTERNAL: a list cut at an item cuts one of the two lists it is made of. -/
theorem append_eq_append_cons {α : Type} {xs ys before after : List α} {a : α}
    (h : xs ++ ys = before ++ a :: after) :
    (∃ mid, xs = before ++ a :: mid) ∨
      ∃ front, before = xs ++ front ∧ ys = front ++ a :: after := by
  rcases List.append_eq_append_iff.mp h with ⟨front, hbefore, hys⟩ | ⟨rest, hxs, hrest⟩
  · exact .inr ⟨front, hbefore, hys⟩
  · cases rest with
    | nil => exact .inr ⟨[], by simpa using hxs.symm, by simpa using hrest.symm⟩
    | cons b rest =>
      rw [List.cons_append, List.cons.injEq] at hrest
      exact .inl ⟨rest, by rw [hxs, hrest.1]⟩

end StageLoop

/-! ## What a plan requires -/

/-- A stage requires another: one of its dependencies, or what a dependency requires. -/
def Requires (manifest : Manifest) : GoString → GoString → Prop :=
  Relation.TransGen fun id dependency =>
    ∃ current ∈ manifest.tasks, current.id = id ∧ dependency ∈ current.dependencies

/-- INTERNAL: the dependencies as the plan looks them up. -/
theorem mem_dependenciesOf {manifest : Manifest} (hvalid : Validated manifest)
    {id dependency : GoString} (h : ∃ current ∈ manifest.tasks, current.id = id ∧
      dependency ∈ current.dependencies) : dependency ∈ dependenciesOf manifest id := by
  obtain ⟨current, hcurrent, rfl, hdependency⟩ := h
  unfold dependenciesOf
  rwa [tasksByID_eq hvalid.nodup hcurrent]

/-- **A stage of a plan stands behind everything it requires.** -/
theorem Planned.requires_before {manifest : Manifest} (hvalid : Validated manifest)
    {selection : Selection} {front behind : List Stage.Task} {current : Stage.Task}
    (h : Planned manifest selection (front ++ current :: behind)) {id : GoString}
    (hrequires : Requires manifest current.id id) : ∃ earlier ∈ front, earlier.id = id := by
  have hordered := h.finds.ordered
  rw [List.map_append, List.map_cons] at hordered
  obtain ⟨hfront, hcurrent, -⟩ := DepthFirst.ordered_append.mp hordered
  rw [List.nil_append] at hcurrent
  have hclosed : DepthFirst.Closed (dependenciesOf manifest) (front.map (·.id)) := by
    simpa using hfront.closed (by simp [DepthFirst.Closed])
  obtain ⟨dependency, hdependency, hrest⟩ := Relation.TransGen.head'_iff.mp hrequires
  have hneeds : DepthFirst.Needs (dependenciesOf manifest) dependency id :=
    Relation.ReflTransGen.mono (fun _ _ => mem_dependenciesOf hvalid) _ _ hrest
  have hmem := hclosed.needs (hcurrent dependency (mem_dependenciesOf hvalid hdependency)) hneeds
  exact List.mem_map.mp hmem

/-! ## Runs -/

/-- The repository root is not a directory that can be inspected. -/
def RootRefused (environment : RunEnvironment) (repositoryRoot : GoString) : Prop :=
  ∀ root info, environment.files.abs repositoryRoot = .ok root →
    environment.files.stat root = .ok info → info.isDir = false

/-- INTERNAL: the status of a run tells whether all stages passed. -/
theorem statusOf_eq_passed (stages : List StageResult) :
    statusOf stages = .passed ↔ ∀ stage ∈ stages, stage.status = .passed := by
  unfold statusOf
  cases hfind : stages.find? (·.status ≠ .passed) with
  | none => simpa using List.find?_eq_none.mp hfind
  | some stage =>
    have hstage : stage.status ≠ .passed := by simpa using List.find?_some hfind
    exact ⟨fun h => absurd h hstage, fun h => h stage (List.mem_of_find?_eq_some hfind)⟩

/-- INTERNAL: a run from a root that is a directory is its loop. -/
theorem run_eq {environment : RunEnvironment} {repositoryRoot : GoString}
    (hroot : ¬ RootRefused environment repositoryRoot) {plan : List Stage.Task} (hplan : plan ≠ []) :
    ∃ stages events status, StageLoop environment 0 plan stages events status ∧
      Stage.run environment repositoryRoot plan = .ok
        ({ status, duration := environment.duration, stages },
          [{ kind := .runStarted }] ++ events ++ [{
            kind := .runFinished
            status := some status
            duration := environment.duration }]) := by
  have hdirectory : ∃ root info, environment.files.abs repositoryRoot = .ok root ∧
      environment.files.stat root = .ok info ∧ info.isDir = true := by
    by_contra hnone
    refine hroot fun root info habs hstat => ?_
    rw [← Bool.not_eq_true]
    exact fun hdir => hnone ⟨root, info, habs, hstat, hdir⟩
  obtain ⟨root, info, habs, hstat, hdir⟩ := hdirectory
  obtain ⟨stages, events, status, hloop, heq⟩ := runStages_loop environment 0 plan
    (show ({ result := { status := .passed, stages := [] }, events := [{ kind := .runStarted }] } :
      Stage.RunState).result.status = .passed from rfl)
  refine ⟨stages, events, status, hloop, ?_⟩
  unfold Stage.run
  simp only [habs, hstat, hdir, Except.mapError, bind, Except.bind, Bool.not_true,
    Bool.false_eq_true, if_false, hplan, heq, pure, Except.pure, List.nil_append]

/-- A stage of a manifest, by its texts. -/
def stageOf (id label scriptPath : String) (enabledByDefault : Bool) (dependencies : List String)
    (manifestOrder : ℕ) : Stage.Task where
  id := .ascii id
  label := .ascii label
  scriptPath := .ascii scriptPath
  enabledByDefault
  dependencies := dependencies.map GoString.ascii
  manifestOrder

/-- A repository at `/r` in which every other file is an executable script. -/
def sampleFiles : FileSystem where
  abs path := .ok path
  stat path := .ok <|
    if path = GoString.ascii "/r" then { isRegular := false, isDir := true, perm := 0o755 }
    else { isRegular := true, isDir := false, perm := 0o755 }
  evalSymlinks path := .ok path

/-- SRC: scripts/checks/manifest.tsv:1-4 -/
def sampleManifest : Manifest where
  version := 1
  tasks := [
    stageOf "docs" "Documentation" "scripts/checks/docs.sh" true [] 0,
    stageOf "cpp" "C++ build and tests" "scripts/checks/cpp.sh" true ["docs"] 1,
    stageOf "sanitizers" "Sanitizers" "scripts/checks/sanitizers.sh" true ["cpp"] 2]

/-- A run in which the second stage exits with code 1. -/
def sampleEnvironment : RunEnvironment where
  files := sampleFiles
  contextErr _ := none
  outcome index _ := .ran {
    output := []
    duration := 0
    terminationSignal := []
    cancelled := none
    supervisionErr := none
    readErr := none
    waitErr := if index = 1 then .exitError 1 (.ascii "exit status 1") else .succeeded }

end Tickline.Analysis
