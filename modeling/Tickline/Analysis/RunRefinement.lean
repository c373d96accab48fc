import Tickline.Analysis.CaptureRuns

/-!
# The capture loops refine the runner

The runner as one function takes from its environment what becomes of a stage, and a stage's output
as the reads in the order in which they were passed on.  The two loops of a stage make that order
between them.  So every run of the loops is a run of the runner, in an environment that can be read
off from it: up to every state, the runner has come to the same results and the same events, but for
the stage that runs (`Mirrors`), and every action keeps that (`Mirrors.next`).
-/

set_option autoImplicit false

namespace Tickline.Analysis

open Tickline.Library Tickline.Model
open Tickline.Model.Stage (Action CaptureLoop Event NumberedEvent OutputChunk RunEnvironment
  RunLoops RunningStage RunState StageOutcome StageProcess StageResult Stream)

/-! ## What becomes of the stages -/

/-- What becomes of a stage: the run is cancelled in front of it, or it is started. -/
inductive StageFate
  | cancelled (cause : GoString)
  | started (outcome : StageOutcome)

/-- An environment gives a stage its fate. -/
def Meets (environment : RunEnvironment) (index : ℕ) : StageFate → Prop
  | .cancelled cause => environment.contextErr index = some cause
  | .started outcome => environment.contextErr index = none ∧
      ∀ current, environment.outcome index current = outcome

/-- An environment gives the first stages of a plan their fates. -/
def Gives (environment : RunEnvironment) (fates : List StageFate) : Prop :=
  ∀ index fate, fates[index]? = some fate → Meets environment index fate

theorem Gives.concat {environment : RunEnvironment} {fates : List StageFate} {fate : StageFate}
    (h : Gives environment (fates ++ [fate])) :
    Gives environment fates ∧ Meets environment fates.length fate := by
  refine ⟨fun index other hother => h index other ?_, h fates.length fate (by simp)⟩
  have hlt := (List.getElem?_eq_some_iff.mp hother).1
  rw [List.getElem?_append_left hlt, hother]

/-- An environment with some fates. -/
def environmentOf (environment : RunEnvironment) (fates : List StageFate) : RunEnvironment where
  files := environment.files
  duration := environment.duration
  contextErr index :=
    match fates[index]? with
    | some (.cancelled cause) => some cause
    | _ => none
  outcome index _ :=
    match fates[index]? with
    | some (.started outcome) => outcome
    | _ => .notStarted [] 0

theorem gives_environmentOf (environment : RunEnvironment) (fates : List StageFate) :
    Gives (environmentOf environment fates) fates := by
  intro index fate hfate
  cases fate with
  | cancelled cause => simp only [Meets, environmentOf, hfate]
  | started outcome => exact ⟨by simp only [environmentOf, hfate], fun current => by
      simp only [environmentOf, hfate]⟩

/-- The state that a run begins with.
SRC: runner.go:65-87 -/
def startState : RunState where
  result := { status := .passed, stages := [] }
  events := [{ kind := .runStarted }]

/-- The runner comes to a state with some stages left, in every environment with these fates. -/
def Reaches (plan : List Stage.Task) (fates : List StageFate) (remaining : List Stage.Task)
    (state : RunState) : Prop :=
  ∀ environment, Gives environment fates → Stage.runStages environment 0 plan startState =
    Stage.runStages environment fates.length remaining state

theorem reaches_start (plan : List Stage.Task) : Reaches plan [] plan startState :=
  fun _ _ => rfl

variable {plan : List Stage.Task} {fates : List StageFate} {current : Stage.Task}
  {remaining : List Stage.Task} {before : RunState}

theorem Reaches.cancelled (h : Reaches plan fates (current :: remaining) before)
    (cause : GoString) : Reaches plan (fates ++ [.cancelled cause]) []
      ((before.append (Stage.cancelledResult current cause) [cancelledEvent current]).stop
        .cancelled remaining) := by
  intro environment hgives
  obtain ⟨hfates, hmeets⟩ := hgives.concat
  have hcause : environment.contextErr fates.length = some cause := hmeets
  refine (h environment hfates).trans ?_
  conv_lhs => rw [Stage.runStages, hcause]
  rfl

/-- The state behind a stage that was started, and the stages that are left. -/
def behindStage (before : RunState) (remaining : List Stage.Task) (result : StageResult)
    (events : List Event) : List Stage.Task × RunState :=
  if result.status ≠ .passed then ([], (before.append result events).stop result.status remaining)
  else (remaining, before.append result events)

theorem Reaches.started (h : Reaches plan fates (current :: remaining) before)
    {outcome : StageOutcome} {result : StageResult} {events : List Event}
    (houtcome : Stage.runStage current outcome = (result, events)) :
    Reaches plan (fates ++ [.started outcome]) (behindStage before remaining result events).1
      (behindStage before remaining result events).2 := by
  intro environment hgives
  obtain ⟨hfates, hnone, hmeets⟩ := hgives.concat
  refine (h environment hfates).trans ?_
  conv_lhs => rw [Stage.runStages, hnone, hmeets, houtcome]
  rw [List.length_append, List.length_singleton, behindStage]
  dsimp only
  split_ifs with hstatus
  · rfl
  · rfl

/-! ## The loops -/

/-- The bytes of a stream in some chunks. -/
def bytesIn (chunks : List OutputChunk) (stream : Stream) : List UInt8 :=
  (chunks.filter (·.stream = stream)).flatMap (·.data)

/-- The events of a stage that runs, behind its start. -/
def stageEvents (stage : RunningStage) (output drained : List OutputChunk) : List Event :=
  output.map (Stage.stageOutput stage.current) ++
    if stage.cancellationRequested then
      { kind := .cancellationRequested, stageID := stage.current.id } ::
        drained.map (Stage.stageOutput stage.current)
    else []

/-- The events without their numbers. -/
def eventsOf (state : RunLoops) : List Event := state.events.map (·.toEvent)

/-- A state of the loops and what the runner has come to there. -/
inductive Mirrors (plan : List Stage.Task) (state : RunLoops) : Prop
  | between {fates : List StageFate} {before : RunState} (hrunning : state.running = none)
      (hopen : state.finished = false) (hreaches : Reaches plan fates state.remaining before)
      (hresults : before.result = { status := state.status, stages := state.results })
      (hevents : eventsOf state = before.events)
      (hstatus : state.remaining ≠ [] → state.status = .passed)
  | during {fates : List StageFate} {before : RunState} {stage : RunningStage}
      {output drained : List OutputChunk} (hrunning : state.running = some stage)
      (hopen : state.finished = false)
      (hreaches : Reaches plan fates (stage.current :: state.remaining) before)
      (hresults : before.result = { status := state.status, stages := state.results })
      (hevents : eventsOf state = before.events ++
        { kind := .stageStarted, stageID := stage.current.id } :: stageEvents stage output drained)
      (hstatus : state.status = .passed)
      (hdrained : stage.cancellationRequested = false → drained = [])
      (hcaptured : ∀ stream, bytesIn (output ++ drained) stream ++ pendingChunk (stage.loop stream) =
        (stage.loop stream).target)
  | ended {fates : List StageFate} {last : RunState} {duration : ℤ} (hrunning : state.running = none)
      (hremaining : state.remaining = []) (hfinished : state.finished = true)
      (hreaches : Reaches plan fates [] last)
      (hresults : last.result = { status := state.status, stages := state.results })
      (hevents : eventsOf state = last.events ++
        [{ kind := .runFinished, status := some state.status, duration }])

theorem mirrors_start (plan : List Stage.Task) : Mirrors plan (Stage.startLoops plan) :=
  .between rfl rfl (reaches_start plan) rfl rfl fun _ => rfl

/-- INTERNAL: the state of the loops behind a stage that has ended. -/
theorem mirrors_append {state : RunLoops} {result : StageResult} {events : List Event}
    (hopen : state.finished = false)
    (hreaches : Reaches plan fates (behindStage before state.remaining result events).1
      (behindStage before state.remaining result events).2)
    (hresults : before.result = { status := state.status, stages := state.results })
    (hevents : eventsOf state = before.events ++ events) (hstatus : state.status = .passed) :
    Mirrors plan (state.append result) := by
  unfold behindStage at hreaches
  unfold RunLoops.append
  split_ifs at hreaches ⊢ with hpassed
  · refine .between rfl hopen hreaches ?_ ?_ fun hne => absurd rfl hne
    · simp [RunState.stop, RunState.append, Stage.appendSkipped, hresults]
    · simp only [eventsOf, List.map_append, List.map_map] at hevents ⊢
      simp only [RunState.stop, RunState.append, Stage.appendSkipped, hevents]
      rfl
  · refine .between rfl hopen hreaches ?_ hevents fun _ => hstatus
    simp [RunState.append, hresults]

/-- INTERNAL: what a process is classified as beside its output. -/
theorem classify_output (result : StageResult) (process : StageProcess)
    (output : List OutputChunk) : Stage.classify result process =
      { Stage.classify result { process with output, drained := [] } with
        stdout := process.captured .stdout
        stderr := process.captured .stderr } := by
  unfold Stage.classify
  cases process.cancelled with
  | some cause => cases process.supervisionErr <;> rfl
  | none =>
    cases process.readErr with
    | some cause => rfl
    | none => cases process.waitErr <;> rfl

/-- INTERNAL: the process of a stage that is settled. -/
def settledProcess (stage : RunningStage) (settlement : Stage.Settlement)
    (output drained : List OutputChunk) : StageProcess where
  output
  drained
  duration := settlement.duration
  terminationSignal := settlement.terminationSignal
  cancelled := if stage.cancellationRequested then some settlement.cancelCause else none
  supervisionErr := settlement.supervisionErr
  readErr := Stage.joinErrors stage.readErrors
  waitErr := settlement.waitErr

/-- **A stage that is settled is one that the runner has run.** -/
theorem runStage_settled {stage : RunningStage} (settlement : Stage.Settlement)
    {output drained : List OutputChunk}
    (hdrained : stage.cancellationRequested = false → drained = [])
    (hcaptured : ∀ stream, bytesIn (output ++ drained) stream = (stage.loop stream).target) :
    Stage.runStage stage.current (.ran (settledProcess stage settlement output drained)) =
      (stage.settled settlement, { kind := .stageStarted, stageID := stage.current.id } ::
        (stageEvents stage output drained ++
          [Stage.stageFinished (stage.settled settlement)])) := by
  have hchunks : (settledProcess stage settlement output drained).chunks = output ++ drained := by
    unfold StageProcess.chunks settledProcess
    cases hrequested : stage.cancellationRequested with
    | false => simp [hdrained hrequested]
    | true => simp
  have hresult : Stage.classify (Stage.initialResult stage.current)
      (settledProcess stage settlement output drained) = stage.settled settlement := by
    rw [classify_output _ _ []]
    unfold StageProcess.captured
    rw [hchunks]
    unfold RunningStage.settled
    rw [← show bytesIn (output ++ drained) .stdout = stage.stdout.target from hcaptured .stdout,
      ← show bytesIn (output ++ drained) .stderr = stage.stderr.target from hcaptured .stderr]
    rfl
  unfold Stage.runStage Stage.stageOutcome
  dsimp only
  rw [hresult]
  unfold stageEvents settledProcess
  cases stage.cancellationRequested <;> simp

/-- INTERNAL: a chunk that is passed on is the last one read of its stream. -/
theorem bytesIn_concat (chunks : List OutputChunk) (chunk : OutputChunk) (stream : Stream) :
    bytesIn (chunks ++ [chunk]) stream =
      bytesIn chunks stream ++ if chunk.stream = stream then chunk.data else [] := by
  rw [bytesIn, List.filter_append, List.flatMap_append]
  congr 1
  split_ifs with hstream <;> simp [hstream]

/-- INTERNAL: output that is passed on, before a request to cancel and behind it. -/
theorem stageEvents_deliver {stage stage' : RunningStage} {output drained : List OutputChunk}
    (chunk : OutputChunk) (hcurrent : stage'.current = stage.current)
    (hrequested : stage'.cancellationRequested = stage.cancellationRequested)
    (hdrained : stage.cancellationRequested = false → drained = []) : ∃ output' drained',
      stageEvents stage' output' drained' =
        stageEvents stage output drained ++ [Stage.stageOutput stage.current chunk] ∧
      output' ++ drained' = output ++ drained ++ [chunk] ∧
      (stage'.cancellationRequested = false → drained' = []) := by
  unfold stageEvents
  rw [hrequested, hcurrent]
  cases hcancelled : stage.cancellationRequested with
  | false =>
    refine ⟨output ++ [chunk], [], ?_, ?_, fun _ => rfl⟩
    · simp
    · simp [hdrained hcancelled]
  | true =>
    refine ⟨output, drained ++ [chunk], ?_, ?_, fun h => (by cases h)⟩
    · simp
    · simp

/-- INTERNAL: a loop that ends a round asks for no cancellation. -/
theorem endRound_requested (stage : RunningStage) (stream : Stream) (target : List UInt8)
    (err : Option Stage.ReadErr) : (stage.endRound stream target err).cancellationRequested =
      stage.cancellationRequested := by
  cases err with
  | none => cases stream <;> rfl
  | some err => cases err <;> cases stream <;> rfl

theorem withLoop_requested (stage : RunningStage) (stream : Stream) (loop : CaptureLoop) :
    (stage.withLoop stream loop).cancellationRequested = stage.cancellationRequested := by
  cases stream <;> rfl

/-- INTERNAL: the stage that runs, without a new event. -/
theorem Mirrors.of_running {state next : RunLoops} {stage stage' : RunningStage}
    {output drained : List OutputChunk} (hrunning : next.running = some stage')
    (hcurrent : stage'.current = stage.current)
    (hrequested : stage'.cancellationRequested = stage.cancellationRequested)
    (hnext : next.remaining = state.remaining ∧ next.status = state.status ∧
      next.results = state.results ∧ next.events = state.events ∧ next.finished = state.finished)
    (hopen : state.finished = false)
    (hreaches : Reaches plan fates (stage.current :: state.remaining) before)
    (hresults : before.result = { status := state.status, stages := state.results })
    (hevents : eventsOf state = before.events ++
      { kind := .stageStarted, stageID := stage.current.id } :: stageEvents stage output drained)
    (hstatus : state.status = .passed)
    (hdrained : stage.cancellationRequested = false → drained = [])
    (hcaptured : ∀ stream, bytesIn (output ++ drained) stream ++ pendingChunk (stage'.loop stream) =
      (stage'.loop stream).target) : Mirrors plan next := by
  obtain ⟨hremaining, hsame, hsettled, hunchanged, hended⟩ := hnext
  have hstage : stageEvents stage' output drained = stageEvents stage output drained := by
    rw [stageEvents, stageEvents, hcurrent, hrequested]
  rw [← hcurrent, ← hremaining] at hreaches
  rw [← hsame, ← hsettled] at hresults
  rw [← hstage, ← hcurrent, eventsOf, ← hunchanged] at hevents
  rw [← hrequested] at hdrained
  exact .during hrunning (hended.trans hopen) hreaches hresults hevents (hsame.trans hstatus)
    hdrained hcaptured

/-- **Every action keeps the loops and the runner together.** -/
theorem Mirrors.next {state next : RunLoops} {action : Action} (h : Mirrors plan state)
    (hstep : state.step action = some next) : Mirrors plan next := by
  have hstep := captureStep hstep
  cases h with
  | ended hidle hnothing hfinished hreaches hresults hevents =>
    cases hstep <;> simp_all
  | @between fates before hidle hopen hreaches hresults hevents hstatus =>
    cases hstep with
    | @start current remaining hrunning hremaining =>
      rw [hremaining] at hreaches hstatus
      have hbegun : eventsOf (({ state with remaining, running := some { current } } :
          RunLoops).emit { kind := .stageStarted, stageID := current.id }) = before.events ++
          { kind := .stageStarted, stageID := current.id } :: stageEvents { current } [] [] := by
        rw [eventsOf, RunLoops.emit, List.map_append]
        exact congrArg (· ++ _) hevents
      exact .during rfl hopen hreaches hresults hbegun (hstatus (List.cons_ne_nil _ _))
        (fun _ => rfl) fun stream => by cases stream <;> rfl
    | @startFails current remaining outcome hrunning hremaining hran =>
      rw [hremaining] at hreaches hstatus
      refine mirrors_append hopen (hreaches.started (Prod.ext rfl rfl)) hresults ?_
        (hstatus (List.cons_ne_nil _ _))
      rw [eventsOf, List.map_append, List.map_map]
      exact congr (congrArg _ hevents) (List.map_id _)
    | @cancelBefore current remaining cause hrunning hremaining =>
      rw [hremaining] at hreaches hstatus
      have hcancelled : Reaches plan (fates ++ [.cancelled cause])
          (behindStage before remaining (Stage.cancelledResult current cause)
            [cancelledEvent current]).1
          (behindStage before remaining (Stage.cancelledResult current cause)
            [cancelledEvent current]).2 := hreaches.cancelled cause
      refine mirrors_append hopen hcancelled hresults ?_ (hstatus (List.cons_ne_nil _ _))
      rw [eventsOf, RunLoops.emit, List.map_append]
      exact congrArg (· ++ _) hevents
    | @finish duration hrunning hremaining hfinished =>
      rw [hremaining] at hreaches
      have hend : eventsOf (({ state with finished := true } : RunLoops).emit
          { kind := .runFinished, status := some state.status, duration }) = before.events ++
          [{ kind := .runFinished, status := some state.status, duration }] := by
        rw [eventsOf, RunLoops.emit, List.map_append]
        exact congrArg (· ++ _) hevents
      exact .ended hrunning hremaining rfl hreaches hresults hend
    | _ => simp_all
  | @during fates before stage output drained hbusy hopen hreaches hresults hevents hstatus hdrained
      hcaptured =>
    cases hstep with
    | start hrunning => simp_all
    | startFails hrunning => simp_all
    | cancelBefore hrunning => simp_all
    | finish hrunning => simp_all
    | @readNothing stage stream err hrunning hphase =>
      obtain rfl := Option.some.inj (hbusy.symm.trans hrunning)
      have hcurrent := (endRound_eq stage stream (stage.loop stream).target err).1
      refine .of_running rfl hcurrent (endRound_requested _ _ _ _) ⟨rfl, rfl, rfl, rfl, rfl⟩ hopen
        hreaches hresults hevents hstatus hdrained ?_
      apply captured_endRound fun other _ => hcaptured other
      have hown := hcaptured stream
      rwa [pendingChunk, hphase, List.append_nil] at hown
    | @readChunk stage stream chunk err hrunning hphase hchunk hlength =>
      obtain rfl := Option.some.inj (hbusy.symm.trans hrunning)
      refine .of_running rfl (withLoop_current _ _ _) (withLoop_requested _ _ _)
        ⟨rfl, rfl, rfl, rfl, rfl⟩ hopen hreaches hresults hevents hstatus hdrained ?_
      apply captured_withLoop fun other _ => hcaptured other
      have hown := hcaptured stream
      rw [pendingChunk, hphase, List.append_nil] at hown
      exact congrArg (· ++ chunk) hown
    | @number stage stream chunk err hrunning hphase =>
      obtain rfl := Option.some.inj (hbusy.symm.trans hrunning)
      refine .of_running rfl (withLoop_current _ _ _) (withLoop_requested _ _ _)
        ⟨rfl, rfl, rfl, rfl, rfl⟩ hopen hreaches hresults hevents hstatus hdrained ?_
      apply captured_withLoop fun other _ => hcaptured other
      have hown := hcaptured stream
      rw [pendingChunk, hphase] at hown
      exact hown
    | @deliver stage stream chunk sequence err hrunning hphase =>
      obtain rfl := Option.some.inj (hbusy.symm.trans hrunning)
      have hcurrent := (endRound_eq stage stream (stage.loop stream).target err).1
      obtain ⟨output', drained', hadded, hchunks, hdrained'⟩ := stageEvents_deliver
        { stream, data := chunk } hcurrent (endRound_requested _ _ _ _) hdrained
      rw [← hcurrent] at hreaches
      have hdelivered : eventsOf { state.emit {
            toEvent := Stage.stageOutput stage.current { stream, data := chunk }, sequence } with
          running := some (stage.endRound stream (stage.loop stream).target err) } =
          before.events ++ { kind := .stageStarted, stageID :=
            (stage.endRound stream (stage.loop stream).target err).current.id } ::
            stageEvents (stage.endRound stream (stage.loop stream).target err) output' drained' := by
        rw [eventsOf, RunLoops.emit, List.map_append, hadded, hcurrent, ← List.cons_append,
          ← List.append_assoc, ← hevents]
        rfl
      refine .during rfl hopen hreaches hresults hdelivered hstatus hdrained' ?_
      rw [hchunks]
      apply captured_endRound
      · intro other hother
        rw [bytesIn_concat, if_neg fun heq => hother heq.symm, List.append_nil]
        exact hcaptured other
      · have hown := hcaptured stream
        rw [pendingChunk, hphase] at hown
        rw [bytesIn_concat, if_pos rfl]
        exact hown
    | @requestCancellation stage hrunning hrequested =>
      obtain rfl := Option.some.inj (hbusy.symm.trans hrunning)
      obtain rfl := hdrained hrequested
      have hasked : eventsOf { state.emit {
            kind := .cancellationRequested
            stageID := stage.current.id } with
          running := some { stage with cancellationRequested := true } } =
          before.events ++ { kind := .stageStarted, stageID := stage.current.id } ::
            stageEvents { stage with cancellationRequested := true } output [] := by
        rw [eventsOf, RunLoops.emit, List.map_append]
        refine (congrArg (· ++ _) hevents).trans ?_
        simp [stageEvents, hrequested]
      exact .during rfl hopen hreaches hresults hasked hstatus (fun _ => rfl) fun stream => by
        cases stream <;> exact hcaptured _
    | @settle stage settlement hrunning hfinished =>
      obtain rfl := Option.some.inj (hbusy.symm.trans hrunning)
      have hall : ∀ stream, bytesIn (output ++ drained) stream = (stage.loop stream).target := by
        intro stream
        have hown := hcaptured stream
        rwa [pendingChunk, hfinished stream, List.append_nil] at hown
      have hstarted := hreaches.started (runStage_settled settlement hdrained hall)
      refine mirrors_append hopen hstarted hresults ?_ hstatus
      rw [eventsOf, RunLoops.emit, List.map_append]
      refine (congrArg (· ++ _) hevents).trans ?_
      rw [List.append_assoc]
      rfl

/-- **Every finished run of the loops is a run of the runner**, for a plan and a repository root
that it accepts. -/
theorem loops_refine_run (environment : RunEnvironment) {repositoryRoot root : GoString}
    {info : FileInfo} (hroot : environment.files.abs repositoryRoot = .ok root)
    (hinfo : environment.files.stat root = .ok info) (hdirectory : info.isDir = true)
    (hplan : plan ≠ []) {actions : List Action} {state : RunLoops}
    (h : Transitions.run RunLoops.step (Stage.startLoops plan) actions = some state)
    (hfinished : state.finished = true) : ∃ fates duration,
      Stage.run { environmentOf environment fates with duration } repositoryRoot plan =
        .ok ({ status := state.status, duration, stages := state.results }, eventsOf state) := by
  have hmirrors : Mirrors plan state :=
    Transitions.run_invariant (mirrors_start plan) (fun _ _ _ hstate hnext => hstate.next hnext) h
  cases hmirrors with
  | between _ hopen => exact absurd (hopen.symm.trans hfinished) Bool.false_ne_true
  | during _ hopen => exact absurd (hopen.symm.trans hfinished) Bool.false_ne_true
  | @ended fates last duration hrunning hremaining _ hreaches hresults hevents =>
    refine ⟨fates, duration, ?_⟩
    generalize hchosen : { environmentOf environment fates with duration } = chosen
    have hfiles : chosen.files = environment.files := hchosen ▸ rfl
    have hduration : chosen.duration = duration := hchosen ▸ rfl
    have hlast : Stage.runStages chosen 0 plan startState = last :=
      hreaches chosen (hchosen ▸ gives_environmentOf { environment with duration } fates)
    have hstart : Stage.runStages chosen 0 plan
      { result := { status := .passed, stages := [] }, events := [{ kind := .runStarted }] } =
        last := hlast
    rw [Stage.run, hfiles, hroot]
    simp only [Except.mapError, bind, Except.bind, hinfo, hdirectory, Bool.not_true,
      Bool.false_eq_true, if_false, hplan, hstart, hresults, hduration, hevents]
    rfl

end Tickline.Analysis
