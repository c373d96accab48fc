import Tickline.Model.Task

/-!
# Running a plan

The runner starts the stages of a plan one after the other and stops at the first that does not
pass, or when its context is cancelled.  What a stage's process writes and comes to, in which order
its two readers pass that on, how long everything takes and when the context is cancelled are the
environment's.

Left out are the points in time.  The numbers of the output events are those of the capture loops.
-/

set_option autoImplicit false

namespace Tickline.Model.Stage

/-- SRC: runner/model.go:5-13 -/
inductive Status
  | passed
  | failed
  | skipped
  | cancelled
  | internalError
  deriving DecidableEq

/-- SRC: runner/model.go:7-13 -/
def Status.text : Status → GoString
  | .passed => .ascii "passed"
  | .failed => .ascii "failed"
  | .skipped => .ascii "skipped"
  | .cancelled => .ascii "cancelled"
  | .internalError => .ascii "internal-error"

/-- SRC: runner/model.go:15-20 -/
inductive Stream
  | stdout
  | stderr
  deriving DecidableEq

/-- SRC: runner/model.go:22-32 -/
inductive EventKind
  | runStarted
  | stageStarted
  | stageOutput
  | stageFinished
  | stageSkipped
  | cancellationRequested
  | runFinished
  deriving DecidableEq

/-- SRC: runner/model.go:34-45 -/
structure Event where
  kind : EventKind
  stageID : GoString := []
  stream : Option Stream := none
  data : List UInt8 := []
  status : Option Status := none
  duration : ℤ := 0
  exitCode : ℤ := 0
  terminationSignal : GoString := []
  deriving DecidableEq

/-- SRC: runner/model.go:49-62 -/
structure StageResult where
  id : GoString
  label : GoString
  scriptPath : GoString
  status : Status
  duration : ℤ := 0
  exitCode : ℤ
  terminationSignal : GoString := []
  stdout : List UInt8 := []
  stderr : List UInt8 := []
  error : GoString := []
  deriving DecidableEq

/-- SRC: runner/model.go:64-73 -/
structure RunResult where
  status : Status
  duration : ℤ := 0
  stages : List StageResult
  deriving DecidableEq

/-! ## One stage -/

/-- What `command.Wait` returns: nothing, an `exec.ExitError`, or another error. -/
inductive WaitResult
  | succeeded
  | exitError (exitCode : ℤ) (text : GoString)
  | other (text : GoString)

/-- The bytes that one read of a pipe takes at most.
SRC: runner.go:467 -/
def captureBuffer : ℕ := 32 * 1024

/-- What one read of a pipe comes to.
SRC: runner.go:469-488 -/
structure OutputChunk where
  stream : Stream
  data : List UInt8

/-- A process that was started, with what its supervision has seen.  `output` are the reads in the
order in which they are passed on.  `cancelled` is the text of the context's error when the context
was done before the process; `drained` is what is read behind that. -/
structure StageProcess where
  output : List OutputChunk
  drained : List OutputChunk := []
  duration : ℤ
  terminationSignal : GoString
  cancelled : Option GoString
  supervisionErr : Option GoString
  readErr : Option GoString
  waitErr : WaitResult

/-- Everything that is read of a process. -/
def StageProcess.chunks (process : StageProcess) : List OutputChunk :=
  process.output ++ if process.cancelled.isSome then process.drained else []

/-- What the reader of a stream has gathered. -/
def StageProcess.captured (process : StageProcess) (stream : Stream) : List UInt8 :=
  (process.chunks.filter (·.stream = stream)).flatMap (·.data)

/-- What starting a stage comes to. -/
inductive StageOutcome
  | stdoutPipe (cause : GoString) (duration : ℤ)
  | stderrPipe (cause : GoString) (duration : ℤ)
  | notStarted (cause : GoString) (duration : ℤ)
  | ran (process : StageProcess)

/-- SRC: runner.go:167-174 -/
def initialResult (current : Task) : StageResult where
  id := current.id
  label := current.label
  scriptPath := current.scriptPath
  status := .internalError
  exitCode := -1

/-- SRC: runner.go:535-548 -/
def stageFinished (result : StageResult) : Event where
  kind := .stageFinished
  stageID := result.id
  status := some result.status
  duration := result.duration
  exitCode := result.exitCode
  terminationSignal := result.terminationSignal

/-- How a process that was started is classified.
SRC: runner.go:280-343 -/
def classify (result : StageResult) (process : StageProcess) : StageResult :=
  let result := { result with
    stdout := process.captured .stdout
    stderr := process.captured .stderr
    duration := process.duration
    terminationSignal := process.terminationSignal }
  match process.cancelled with
  | some cause =>
    let result := { result with status := .cancelled, exitCode := 130, error := cause }
    match process.supervisionErr with
    | some supervision =>
      { result with
        error := result.error ++ GoString.ascii "; terminate process tree: " ++ supervision }
    | none => result
  | none =>
    match process.readErr with
    | some cause => { result with status := .internalError, error := cause }
    | none =>
      match process.waitErr with
      | .succeeded => { result with status := .passed, exitCode := 0 }
      | .exitError exitCode text => { result with status := .failed, exitCode, error := text }
      | .other text => { result with status := .internalError, error := text }

/-- SRC: runner.go:480-487 -/
def stageOutput (current : Task) (chunk : OutputChunk) : Event where
  kind := .stageOutput
  stageID := current.id
  stream := some chunk.stream
  data := chunk.data

/-- The result of a stage and the events behind its start.
SRC: runner.go:158-346 -/
def stageOutcome (current : Task) (outcome : StageOutcome) : StageResult × List Event :=
  let result := initialResult current
  match outcome with
  | .stdoutPipe cause duration =>
    let result := { result with error := GoString.ascii "create stdout pipe: " ++ cause, duration }
    (result, [stageFinished result])
  | .stderrPipe cause duration =>
    let result := { result with error := GoString.ascii "create stderr pipe: " ++ cause, duration }
    (result, [stageFinished result])
  | .notStarted cause duration =>
    let result := { result with error := GoString.ascii "start stage command: " ++ cause, duration }
    (result, [stageFinished result])
  | .ran process =>
    let requested : List Event :=
      if process.cancelled.isSome then
        { kind := .cancellationRequested, stageID := current.id } ::
          process.drained.map (stageOutput current)
      else []
    let result := classify result process
    (result, process.output.map (stageOutput current) ++ requested ++ [stageFinished result])

/-- SRC: runner.go:158-346 -/
def runStage (current : Task) (outcome : StageOutcome) : StageResult × List Event :=
  let (result, events) := stageOutcome current outcome
  (result, { kind := .stageStarted, stageID := current.id } :: events)

/-! ## A plan -/

/-- What the runner meets: the file system, what `ctx.Err()` says at the head of the loop,
what becomes of each stage that is started, and how long the run takes. -/
structure RunEnvironment where
  files : FileSystem
  duration : ℤ := 0
  contextErr : ℕ → Option GoString
  outcome : ℕ → Task → StageOutcome

/-- Why nothing is run.
SRC: runner.go:35-63 -/
inductive RunFault
  | resolveRoot (cause : GoString)
  | inspectRoot (cause : GoString)
  | notDirectory (root : GoString)
  | emptyPlan
  deriving DecidableEq

/-- The result so far and the events emitted so far. -/
structure RunState where
  result : RunResult
  events : List Event

/-- SRC: runner.go:510-519 -/
def skippedResult (current : Task) : StageResult where
  id := current.id
  label := current.label
  scriptPath := current.scriptPath
  status := .skipped
  exitCode := -1
  error := GoString.ascii "not run after an earlier stage stopped execution"

/-- SRC: runner.go:505-533 -/
def appendSkipped (state : RunState) (remaining : List Task) : RunState where
  result := { state.result with stages := state.result.stages ++ remaining.map skippedResult }
  events := state.events ++ remaining.map fun current =>
    { kind := .stageSkipped, stageID := current.id, status := some .skipped }

/-- SRC: runner.go:91-99 -/
def cancelledResult (current : Task) (cause : GoString) : StageResult where
  id := current.id
  label := current.label
  scriptPath := current.scriptPath
  status := .cancelled
  exitCode := 130
  error := cause

/-- A stage's result and the events that go with it. -/
def RunState.append (state : RunState) (stage : StageResult) (events : List Event) : RunState where
  result := { state.result with stages := state.result.stages ++ [stage] }
  events := state.events ++ events

/-- The end of a run before the end of the plan. -/
def RunState.stop (state : RunState) (status : Status) (remaining : List Task) : RunState :=
  let state := appendSkipped state remaining
  { state with result := { state.result with status } }

/-- The loop over the plan, from an index on.
SRC: runner.go:89-143 -/
def runStages (environment : RunEnvironment) : ℕ → List Task → RunState → RunState
  | _, [], state => state
  | index, current :: remaining, state =>
    match environment.contextErr index with
    | some cause =>
      let state := state.append (cancelledResult current cause) [{
        kind := .stageFinished
        stageID := current.id
        status := some .cancelled
        exitCode := 130 }]
      state.stop .cancelled remaining
    | none =>
      let (stage, events) := runStage current (environment.outcome index current)
      let state := state.append stage events
      if stage.status ≠ .passed then state.stop stage.status remaining
      else runStages environment (index + 1) remaining state

/-- `Runner.Run`.
SRC: runner.go:27-156 -/
def run (environment : RunEnvironment) (repositoryRoot : GoString) (plan : List Task) :
    Except RunFault (RunResult × List Event) := do
  let root ← (environment.files.abs repositoryRoot).mapError .resolveRoot
  let info ← (environment.files.stat root).mapError .inspectRoot
  if !info.isDir then throw (.notDirectory root)
  if plan = [] then throw .emptyPlan
  let state := runStages environment 0 plan
    { result := { status := .passed, stages := [] }, events := [{ kind := .runStarted }] }
  let result := { state.result with duration := environment.duration }
  return (result, state.events ++
    [{ kind := .runFinished, status := some result.status, duration := result.duration }])

end Tickline.Model.Stage
