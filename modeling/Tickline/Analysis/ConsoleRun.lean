import Tickline.Analysis.StageRuns
import Tickline.Model.Console

/-!
# What the console shows

The console finds the stage of an event by its index, so an event changes the one stage that it
names (`applyRunnerEvent_stages`).  The events of a run settle the stages of the plan one after the
other, each to what its result says (`StageLoop.shown`).  So behind the events of a whole run the
console shows every result (`console_shows`).
-/

set_option autoImplicit false

namespace Tickline.Analysis

open Tickline.Library Tickline.Model
open Tickline.Model.Stage (RunEnvironment RunResult StageResult Event Status)
open Tickline.Model.Console (ConsoleModel StageState newModel)

/-! ## One event -/

/-- The index of a model finds the stages by their identifiers. -/
def Indexed (model : ConsoleModel) : Prop :=
  ∀ id index, model.stageIndex id = some index ↔
    ∃ stage, model.stages[index]? = some stage ∧ stage.id = id

/-- What an event changes of the stage it names. -/
def shownAfter (stage : StageState) (event : Event) : StageState :=
  if event.stageID = stage.id then
    match event.kind with
    | .stageStarted => { stage with status := .running }
    | .stageFinished => { stage with
        status := Console.statusFromRunner event.status
        duration := event.duration
        exitCode := event.exitCode
        terminationSignal := event.terminationSignal }
    | .stageSkipped => { stage with status := .skipped }
    | _ => stage
  else stage

theorem shownAfter_other {stage : StageState} {event : Event} (h : event.stageID ≠ stage.id) :
    shownAfter stage event = stage := if_neg h

/-- INTERNAL: an event keeps the identifier. -/
@[simp] theorem shownAfter_id (stage : StageState) (event : Event) :
    (shownAfter stage event).id = stage.id := by
  unfold shownAfter
  split
  · split <;> rfl
  · rfl

/-- INTERNAL: events keep the identifier. -/
theorem foldl_shownAfter_id (stage : StageState) (events : List Event) :
    (events.foldl shownAfter stage).id = stage.id := by
  induction events generalizing stage with
  | nil => rfl
  | cons event events ih => rw [List.foldl_cons, ih, shownAfter_id]

/-- INTERNAL: output changes neither the stages nor the index. -/
theorem appendStageOutput_stages (model : ConsoleModel) (stageID : GoString) (data : List UInt8) :
    (model.appendStageOutput stageID data).stages = model.stages ∧
      (model.appendStageOutput stageID data).stageIndex = model.stageIndex := by
  unfold ConsoleModel.appendStageOutput
  dsimp only
  split
  · exact ⟨rfl, rfl⟩
  · split <;> exact ⟨rfl, rfl⟩

/-- INTERNAL: changing the stage at its index is changing the stage of its identifier. -/
theorem modify_eq_map {model : ConsoleModel} (h : Indexed model) {id : GoString} {index : ℕ}
    (hindex : model.stageIndex id = some index) {change change' : StageState → StageState}
    (hchange : ∀ stage, stage.id = id → change' stage = change stage)
    (hkeep : ∀ stage, stage.id ≠ id → change' stage = stage) :
    model.stages.modify index change = model.stages.map change' := by
  refine List.ext_getElem? fun place => ?_
  rw [List.getElem?_modify, List.getElem?_map]
  cases hstage : model.stages[place]? with
  | none => simp
  | some stage =>
    by_cases hplace : index = place
    · obtain ⟨found, hfound, hid⟩ := (h id index).mp hindex
      have heq : found = stage := Option.some.inj (by rw [← hfound, hplace, hstage])
      simp [hplace, hchange stage (heq ▸ hid)]
    · have hid : stage.id ≠ id := by
        intro hid
        have hother := (h id place).mpr ⟨stage, hstage, hid⟩
        exact hplace (Option.some.inj (hindex.symm.trans hother))
      simp [hplace, hkeep stage hid]

/-- INTERNAL: an event that names no stage changes none. -/
theorem map_shownAfter_unknown {model : ConsoleModel} (h : Indexed model) {event : Event}
    (hindex : model.stageIndex event.stageID = none) :
    model.stages.map (shownAfter · event) = model.stages := by
  conv_rhs => rw [← List.map_id model.stages]
  refine List.map_congr_left fun stage hstage => shownAfter_other fun hid => ?_
  obtain ⟨index, hindex'⟩ := List.mem_iff_getElem?.mp hstage
  rw [(h event.stageID index).mpr ⟨stage, hindex', hid.symm⟩] at hindex
  cases hindex

/-- **An event changes the stage it names**, and no other. -/
theorem applyRunnerEvent_stages {model : ConsoleModel} (h : Indexed model) (event : Event) :
    (model.applyRunnerEvent event).stages = model.stages.map (shownAfter · event) ∧
      (model.applyRunnerEvent event).stageIndex = model.stageIndex := by
  cases hindex : model.stageIndex event.stageID with
  | none =>
    rw [map_shownAfter_unknown h hindex]
    unfold ConsoleModel.applyRunnerEvent
    rw [hindex]
    cases event.kind <;> exact ⟨rfl, rfl⟩
  | some index =>
    have hkeep : ∀ stage : StageState, stage.id ≠ event.stageID → shownAfter stage event = stage :=
      fun stage hid => shownAfter_other (Ne.symm hid)
    have hid : ∀ stage : StageState, (event.kind = .runStarted ∨ event.kind = .stageOutput ∨
        event.kind = .cancellationRequested ∨ event.kind = .runFinished) →
        shownAfter stage event = stage := by
      intro stage hkind
      unfold shownAfter
      rcases hkind with hkind | hkind | hkind | hkind <;> simp [hkind]
    unfold ConsoleModel.applyRunnerEvent
    rw [hindex]
    cases hkind : event.kind with
    | stageStarted | stageFinished | stageSkipped =>
      refine ⟨modify_eq_map h hindex (fun stage hstage => ?_) hkeep, rfl⟩
      simp [shownAfter, hkind, hstage]
    | stageOutput =>
      obtain ⟨hstages, hsame⟩ := appendStageOutput_stages model event.stageID event.data
      refine ⟨hstages.trans ?_, hsame⟩
      simp [hid _ (.inr (.inl hkind))]
    | runStarted => simp [hid _ (.inl hkind)]
    | cancellationRequested => simp [hid _ (.inr (.inr (.inl hkind)))]
    | runFinished => simp [hid _ (.inr (.inr (.inr hkind)))]

/-- **Events change the stages they name**, in order. -/
theorem foldl_applyRunnerEvent_stages (events : List Event) {model : ConsoleModel}
    (h : Indexed model) :
    (events.foldl ConsoleModel.applyRunnerEvent model).stages =
      model.stages.map fun stage => events.foldl shownAfter stage := by
  induction events generalizing model with
  | nil => simp
  | cons event events ih =>
    obtain ⟨hstages, hsame⟩ := applyRunnerEvent_stages h event
    have hindexed : Indexed (model.applyRunnerEvent event) := by
      intro id index
      rw [hsame, h id index, hstages, List.getElem?_map]
      cases model.stages[index]? <;> simp
    rw [List.foldl_cons, ih hindexed, hstages, List.map_map]
    rfl

/-! ## The first model -/

/-- A stage of the plan before the run. -/
def waitingStage (current : Stage.Task) : StageState where
  id := current.id
  label := current.label
  status := .waiting
  exitCode := -1

/-- INTERNAL: what the index of stages answers that are added to an index. -/
theorem stageIndex_zipIdx {plan : List Stage.Task} (hdistinct : (plan.map (·.id)).Nodup)
    (start : ℕ) (found : GoString → Option ℕ) (id : GoString) (index : ℕ) :
    (plan.zipIdx start).foldl (fun (found : GoString → Option ℕ) entry =>
        Function.update found entry.1.id (some entry.2)) found id = some index ↔
      (id ∉ plan.map (·.id) ∧ found id = some index) ∨
        ∃ place current, index = start + place ∧ plan[place]? = some current ∧ current.id = id := by
  induction plan generalizing start found with
  | nil => simp
  | cons first plan ih =>
    rw [List.map_cons, List.nodup_cons] at hdistinct
    rw [List.zipIdx_cons, List.foldl_cons, ih hdistinct.2]
    by_cases hid : id = first.id
    · subst hid
      constructor
      · rintro (⟨-, hfound⟩ | ⟨place, current, rfl, hplace, hcurrent⟩)
        · refine .inr ⟨0, first, ?_, rfl, rfl⟩
          simpa [eq_comm] using hfound
        · exact absurd (hcurrent ▸ List.mem_map_of_mem (List.mem_of_getElem? hplace)) hdistinct.1
      · rintro (⟨hnot, -⟩ | ⟨place, current, rfl, hplace, hcurrent⟩)
        · simp at hnot
        · cases place with
          | zero => exact .inl ⟨hdistinct.1, by simp⟩
          | succ place =>
            refine absurd ?_ hdistinct.1
            rw [← hcurrent]
            exact List.mem_map_of_mem (List.mem_of_getElem? hplace)
    · constructor
      · rintro (⟨hnot, hfound⟩ | ⟨place, current, rfl, hplace, hcurrent⟩)
        · refine .inl ⟨by simpa [hid] using hnot, ?_⟩
          simpa [Function.update_of_ne hid] using hfound
        · exact .inr ⟨place + 1, current, by omega, hplace, hcurrent⟩
      · rintro (⟨hnot, hfound⟩ | ⟨place, current, rfl, hplace, hcurrent⟩)
        · refine .inl ⟨fun hmem => hnot (by simp [hmem]), ?_⟩
          simpa [Function.update_of_ne hid] using hfound
        · cases place with
          | zero =>
            obtain rfl : first = current := by simpa using hplace
            exact absurd hcurrent.symm hid
          | succ place => exact .inr ⟨place, current, by omega, hplace, hcurrent⟩

theorem newModel_indexed {plan : List Stage.Task} (hdistinct : (plan.map (·.id)).Nodup)
    (runID : GoString) : Indexed (newModel plan runID) := by
  intro id index
  refine (stageIndex_zipIdx hdistinct 0 (fun _ => none) id index).trans ?_
  constructor
  · rintro (⟨-, hnone⟩ | ⟨place, current, rfl, hplace, hcurrent⟩)
    · cases hnone
    · exact ⟨waitingStage current, by simp [newModel, hplace, waitingStage], hcurrent⟩
  · rintro ⟨stage, hstage, hid⟩
    obtain ⟨current, hcurrent, rfl⟩ : ∃ current, plan[index]? = some current ∧
        waitingStage current = stage := by
      simpa [newModel, waitingStage] using hstage
    exact .inr ⟨index, current, by omega, hcurrent, hid⟩

/-! ## A whole run -/

/-- A stage of the console shows a result. -/
structure ShowsStage (stage : StageState) (result : StageResult) : Prop where
  id : stage.id = result.id
  status : stage.status.text = result.status.text
  exitCode : stage.exitCode = result.exitCode
  duration : stage.duration = result.duration
  terminationSignal : stage.terminationSignal = result.terminationSignal

/-- INTERNAL: events of other stages leave a stage as it is. -/
theorem foldl_shownAfter_other {stage : StageState} {events : List Event}
    (h : ∀ event ∈ events, event.stageID ≠ stage.id) : events.foldl shownAfter stage = stage := by
  induction events with
  | nil => rfl
  | cons event events ih =>
    obtain ⟨hevent, hevents⟩ := List.forall_mem_cons.mp h
    rw [List.foldl_cons, shownAfter_other hevent, ih hevents]

/-- INTERNAL: what happens while a stage runs leaves it as it is. -/
theorem foldl_shownAfter_running {stage : StageState} {current : Stage.Task} {events : List Event}
    (h : ∀ event ∈ events, WhileRunning current event) : events.foldl shownAfter stage = stage := by
  induction events with
  | nil => rfl
  | cons event events ih =>
    obtain ⟨hevent, hevents⟩ := List.forall_mem_cons.mp h
    have hsame : shownAfter stage event = stage := by
      unfold shownAfter
      rcases hevent.kind with hkind | hkind <;> simp [hkind]
    rw [List.foldl_cons, hsame, ih hevents]

/-- INTERNAL: the status that the console takes over. -/
theorem statusFromRunner_text (status : Status) :
    (Console.statusFromRunner (some status)).text = status.text := by
  cases status <;> rfl

/-- INTERNAL: the last event of a stage settles it. -/
theorem shows_finished {stage : StageState} {result : StageResult} (hid : result.id = stage.id) :
    ShowsStage (shownAfter stage (Stage.stageFinished result)) result := by
  rw [shownAfter, if_pos (show (Stage.stageFinished result).stageID = stage.id from hid)]
  exact ⟨hid.symm, statusFromRunner_text _, rfl, rfl, rfl⟩

/-- INTERNAL: the events of a stage that is started settle it. -/
theorem shows_started {current : Stage.Task} {result : StageResult} {between : List Event}
    (hstage : StageOf result current) (hbetween : ∀ event ∈ between, WhileRunning current event) :
    ShowsStage (({ kind := .stageStarted, stageID := current.id } ::
      (between ++ [Stage.stageFinished result])).foldl shownAfter (waitingStage current)) result := by
  rw [List.foldl_cons, List.foldl_append, foldl_shownAfter_running hbetween]
  exact shows_finished (by rw [hstage.1, shownAfter_id]; rfl)

/-- INTERNAL: the stages behind the first one of a plan are others. -/
theorem ne_first {first current : Stage.Task} {plan : List Stage.Task}
    (hfirst : first.id ∉ plan.map (·.id)) (hcurrent : current ∈ plan) : current.id ≠ first.id :=
  fun hid => hfirst (List.mem_map.mpr ⟨current, hcurrent, hid⟩)

/-- INTERNAL: the events of stages passed over are theirs. -/
theorem stageID_skipped {plan : List Stage.Task} :
    ∀ event ∈ plan.map skippedEvent, event.stageID ∈ plan.map (·.id) := by
  intro event hevent
  obtain ⟨current, hcurrent, rfl⟩ := List.mem_map.mp hevent
  exact List.mem_map_of_mem hcurrent

/-- INTERNAL: the events of stages passed over show that of each. -/
theorem shows_skipped {plan : List Stage.Task} (hdistinct : (plan.map (·.id)).Nodup) :
    ∀ pair ∈ plan.zip (plan.map Stage.skippedResult),
      ShowsStage ((plan.map skippedEvent).foldl shownAfter (waitingStage pair.1)) pair.2 := by
  induction plan with
  | nil => simp
  | cons first plan ih =>
    rw [List.map_cons, List.nodup_cons] at hdistinct
    rw [List.map_cons, List.map_cons, List.zip_cons_cons, List.forall_mem_cons, List.foldl_cons]
    refine ⟨?_, fun pair hpair => ?_⟩
    · have hskipped : ShowsStage (shownAfter (waitingStage first) (skippedEvent first))
          (Stage.skippedResult first) := by
        rw [shownAfter, if_pos (show (skippedEvent first).stageID = (waitingStage first).id from rfl)]
        exact ⟨rfl, rfl, rfl, rfl, rfl⟩
      rwa [foldl_shownAfter_other]
      intro event hevent hid
      have hfirst : event.stageID = first.id := by rw [hid, shownAfter_id]; rfl
      exact hdistinct.1 (hfirst ▸ stageID_skipped event hevent)
    · have hmem := (List.of_mem_zip (Prod.eta pair ▸ hpair)).1
      have hother : (skippedEvent first).stageID ≠ (waitingStage pair.1).id :=
        (ne_first hdistinct.1 hmem).symm
      rw [List.foldl_cons, shownAfter_other hother]
      exact ih hdistinct.2 pair hpair

namespace StageLoop

variable {environment : RunEnvironment} {index : ℕ} {plan : List Stage.Task}
  {stages : List StageResult} {events : List Event} {status : Status}

/-- INTERNAL: the events of a stage that is started are its own. -/
theorem stageID_started {current : Stage.Task} {result : StageResult} {between : List Event}
    (hstage : StageOf result current) (hbetween : ∀ event ∈ between, WhileRunning current event) :
    ∀ event ∈ ({ kind := .stageStarted, stageID := current.id } : Event) ::
      (between ++ [Stage.stageFinished result]), event.stageID = current.id := by
  intro event hevent
  rcases List.mem_cons.mp hevent with rfl | hevent
  · rfl
  · rcases List.mem_append.mp hevent with hevent | hevent
    · exact (hbetween event hevent).stage
    · obtain rfl := List.mem_singleton.mp hevent
      exact hstage.1

/-- INTERNAL: the events of the loop name stages of the plan. -/
theorem stageID (h : StageLoop environment index plan stages events status) :
    ∀ event ∈ events, event.stageID ∈ plan.map (·.id) := by
  induction h with
  | done => simp
  | cancelled =>
    refine List.forall_mem_cons.mpr ⟨List.mem_cons_self, fun event hevent => ?_⟩
    exact List.mem_cons_of_mem _ (stageID_skipped event hevent)
  | stopped hstage _ hbetween _ =>
    rw [← List.cons_append]
    refine List.forall_mem_append.mpr ⟨fun event hevent => ?_, fun event hevent => ?_⟩
    · exact stageID_started hstage hbetween event hevent ▸ List.mem_cons_self
    · exact List.mem_cons_of_mem _ (stageID_skipped event hevent)
  | passed hstage hbetween _ _ ih =>
    rw [← List.cons_append]
    refine List.forall_mem_append.mpr ⟨fun event hevent => ?_, fun event hevent => ?_⟩
    · exact stageID_started hstage hbetween event hevent ▸ List.mem_cons_self
    · exact List.mem_cons_of_mem _ (ih event hevent)

/-- INTERNAL: events of the first stage and then events of the stages behind it. -/
theorem shown_cons {first : Stage.Task} {result : StageResult} {own others : List Event}
    (hfirst : first.id ∉ plan.map (·.id)) (hown : ∀ event ∈ own, event.stageID = first.id)
    (hothers : ∀ event ∈ others, event.stageID ∈ plan.map (·.id))
    (hshown : ShowsStage (own.foldl shownAfter (waitingStage first)) result)
    (hrest : ∀ pair ∈ plan.zip stages,
      ShowsStage (others.foldl shownAfter (waitingStage pair.1)) pair.2) :
    ∀ pair ∈ (first :: plan).zip (result :: stages),
      ShowsStage ((own ++ others).foldl shownAfter (waitingStage pair.1)) pair.2 := by
  rw [List.zip_cons_cons, List.forall_mem_cons]
  refine ⟨?_, fun pair hpair => ?_⟩
  · rw [List.foldl_append, foldl_shownAfter_other]
    · exact hshown
    · intro event hevent hid
      have hid' : event.stageID = first.id := by rw [hid, foldl_shownAfter_id]; rfl
      exact hfirst (hid' ▸ hothers event hevent)
  · have hmem := (List.of_mem_zip (Prod.eta pair ▸ hpair)).1
    have hsame : own.foldl shownAfter (waitingStage pair.1) = waitingStage pair.1 :=
      foldl_shownAfter_other fun event hevent hid =>
        ne_first hfirst hmem (hid.symm.trans (hown event hevent))
    rw [List.foldl_append, hsame]
    exact hrest pair hpair

/-- **The events of the loop settle every stage** to what its result says. -/
theorem shown (h : StageLoop environment index plan stages events status)
    (hdistinct : (plan.map (·.id)).Nodup) :
    ∀ pair ∈ plan.zip stages,
      ShowsStage (events.foldl shownAfter (waitingStage pair.1)) pair.2 := by
  induction h with
  | done => simp
  | @cancelled _ current remaining cause _ =>
    rw [List.map_cons, List.nodup_cons] at hdistinct
    have hshown : ShowsStage (shownAfter (waitingStage current) (cancelledEvent current))
        (Stage.cancelledResult current cause) := by
      rw [shownAfter,
        if_pos (show (cancelledEvent current).stageID = (waitingStage current).id from rfl)]
      exact ⟨rfl, rfl, rfl, rfl, rfl⟩
    have hown : ∀ event ∈ [cancelledEvent current], event.stageID = current.id := by
      simp [cancelledEvent]
    exact shown_cons hdistinct.1 hown stageID_skipped hshown (shows_skipped hdistinct.2)
  | stopped hstage _ hbetween _ =>
    rw [List.map_cons, List.nodup_cons] at hdistinct
    rw [← List.cons_append]
    exact shown_cons hdistinct.1 (stageID_started hstage hbetween) stageID_skipped
      (shows_started hstage hbetween) (shows_skipped hdistinct.2)
  | passed hstage hbetween _ hrest ih =>
    rw [List.map_cons, List.nodup_cons] at hdistinct
    rw [← List.cons_append]
    exact shown_cons hdistinct.1 (stageID_started hstage hbetween) hrest.stageID
      (shows_started hstage hbetween) (ih hdistinct.2)

end StageLoop

/-- **The console shows a run**: every result at its place, and all stages complete. -/
structure ShowsRun (model : ConsoleModel) (plan : List Stage.Task) (result : RunResult) :
    Prop where
  stages : List.Forall₂ ShowsStage model.stages result.stages
  progress : model.progress = (plan.length, plan.length)

/-- INTERNAL: a stage that shows a result is complete. -/
theorem ShowsStage.complete {stage : StageState} {result : StageResult}
    (h : ShowsStage stage result) :
    stage.status ∈ [.passed, .failed, .skipped, .cancelled, Console.StageStatus.internalError] := by
  have hstatus := h.status
  generalize stage.status = shown at hstatus ⊢
  generalize result.status = status at hstatus
  revert hstatus
  cases shown <;> cases status <;> decide

/-- INTERNAL: where every stage shows a result, all are complete. -/
theorem forall_complete {shown : List StageState} {stages : List StageResult}
    (h : List.Forall₂ ShowsStage shown stages) : ∀ stage ∈ shown, stage.status ∈
      [.passed, .failed, .skipped, .cancelled, Console.StageStatus.internalError] := by
  induction h with
  | nil => simp
  | cons hstage _ ih => exact List.forall_mem_cons.mpr ⟨hstage.complete, ih⟩

/-- INTERNAL: so the progress is that of all of them. -/
theorem progress_complete {model : ConsoleModel} {stages : List StageResult}
    (h : List.Forall₂ ShowsStage model.stages stages) :
    model.progress = (stages.length, stages.length) := by
  unfold ConsoleModel.progress
  rw [← h.length_eq]
  refine Prod.ext ?_ rfl
  exact List.countP_eq_length.mpr fun stage hstage => by
    simpa using forall_complete h stage hstage

/-- INTERNAL: the stages behind the events of a run, of which the first and the last name none. -/
theorem stages_eq {plan : List Stage.Task} (hdistinct : (plan.map (·.id)).Nodup)
    (runID : GoString) {events : List Event} {first last : Event}
    (hfirst : first.kind = .runStarted) (hlast : last.kind = .runFinished) :
    (([first] ++ events ++ [last]).foldl ConsoleModel.applyRunnerEvent (newModel plan runID)).stages =
      plan.map fun current => events.foldl shownAfter (waitingStage current) := by
  have hkeep : ∀ (event : Event) (stage : StageState), event.kind = .runStarted ∨
      event.kind = .runFinished → shownAfter stage event = stage := by
    intro event stage hkind
    unfold shownAfter
    rcases hkind with hkind | hkind <;> simp [hkind]
  rw [foldl_applyRunnerEvent_stages _ (newModel_indexed hdistinct runID),
    show (newModel plan runID).stages = plan.map waitingStage from rfl, List.map_map]
  refine List.map_congr_left fun current _ => ?_
  simp only [Function.comp_apply, List.foldl_append, List.foldl_cons, List.foldl_nil,
    hkeep first _ (.inl hfirst), hkeep last _ (.inr hlast)]

/-- INTERNAL: the console behind the events of the loop. -/
theorem StageLoop.showsRun {environment : RunEnvironment} {plan : List Stage.Task}
    {stages : List StageResult} {events : List Event} {status : Status}
    (h : StageLoop environment 0 plan stages events status)
    (hdistinct : (plan.map (·.id)).Nodup) (runID : GoString) {first last : Event}
    (hfirst : first.kind = .runStarted) (hlast : last.kind = .runFinished) (duration : ℤ) :
    ShowsRun (([first] ++ events ++ [last]).foldl ConsoleModel.applyRunnerEvent
      (newModel plan runID)) plan { status, duration, stages } := by
  have hshows : List.Forall₂ ShowsStage (([first] ++ events ++ [last]).foldl
      ConsoleModel.applyRunnerEvent (newModel plan runID)).stages stages := by
    rw [stages_eq hdistinct runID hfirst hlast, List.forall₂_map_left_iff, List.forall₂_iff_zip]
    exact ⟨h.inPlanOrder.length_eq.symm, fun hpair => h.shown hdistinct _ hpair⟩
  refine ⟨hshows, (progress_complete hshows).trans ?_⟩
  rw [h.inPlanOrder.length_eq]

/-- **The console shows what the runner reports**: for every plan of distinct stages, whatever
becomes of its stages and whenever its context is cancelled, the events of a run leave the console
with what the results say.
SRC: runner.go:27-156, 308-346, 505-548, tui/model.go:63-94, 210-305, view.go:500-518 -/
theorem console_shows {plan : List Stage.Task} (hplan : plan ≠ [])
    (hdistinct : (plan.map (·.id)).Nodup) (environment : RunEnvironment)
    (repositoryRoot runID : GoString) :
    RootRefused environment repositoryRoot ∨
      ∃ result events, Stage.run environment repositoryRoot plan = .ok (result, events) ∧
        ShowsRun (events.foldl ConsoleModel.applyRunnerEvent (newModel plan runID)) plan result := by
  by_cases hroot : RootRefused environment repositoryRoot
  · exact .inl hroot
  · obtain ⟨stages, events, status, hloop, hrun⟩ := run_eq hroot hplan
    exact .inr ⟨_, _, hrun, hloop.showsRun hdistinct runID rfl rfl environment.duration⟩

/-- The console behind a run in which the second stage fails. -/
theorem console_shows_failing :
    RootRefused sampleEnvironment (.ascii "/r") ∨ ∃ result events,
      Stage.run sampleEnvironment (.ascii "/r") sampleManifest.tasks = .ok (result, events) ∧
        ShowsRun (events.foldl ConsoleModel.applyRunnerEvent (newModel sampleManifest.tasks []))
          sampleManifest.tasks result :=
  console_shows (by decide) (by decide) sampleEnvironment (.ascii "/r") []

end Tickline.Analysis
