import Tickline.Model.StageRunner

/-!
# The capture loops of a run

While a stage runs, two loops read its streams.  Each adds what it has read to the buffer of its
stream, takes the next number of the run, and hands the numbered event to the observer, which takes
one event at a time.  Nothing holds the loops together between these steps, so a run is a list of
actions in any order that the phases of the loops allow.  What the process writes, how a read ends,
when a cancellation is seen and what waiting for the process comes to are the environment's.

The stage is settled behind the end of both loops, also where it was cancelled.  Left out are the
points in time.
-/

set_option autoImplicit false

namespace Tickline.Model.Stage

/-- SRC: runner/model.go:17-20 -/
def Stream.text : Stream → GoString
  | .stdout => .ascii "stdout"
  | .stderr => .ascii "stderr"

/-- The stream that the other loop of a stage reads. -/
def Stream.other : Stream → Stream
  | .stdout => .stderr
  | .stderr => .stdout

/-- An event with its number, which is zero where it is no output.
SRC: runner/model.go:34-45 -/
structure NumberedEvent extends Event where
  sequence : UInt64 := 0
  deriving DecidableEq

/-- An event that is no output of a loop. -/
def Event.unnumbered (event : Event) : NumberedEvent := { toEvent := event }

/-- How a read ends, beside the bytes that it takes. -/
inductive ReadErr
  | eof
  | other (cause : GoString)
  deriving DecidableEq

/-- Where a capture loop stands: in front of a read, behind adding a chunk to its buffer, behind
taking a number for it, or behind its return. -/
inductive LoopPhase
  | reading
  | captured (chunk : List UInt8) (err : Option ReadErr)
  | numbered (chunk : List UInt8) (sequence : UInt64) (err : Option ReadErr)
  | finished
  deriving DecidableEq

/-- A capture loop with its buffer.
SRC: runner.go:455-503 -/
structure CaptureLoop where
  target : List UInt8 := []
  phase : LoopPhase := .reading
  deriving DecidableEq

/-- A stage whose process was started. -/
structure RunningStage where
  current : Task
  stdout : CaptureLoop := {}
  stderr : CaptureLoop := {}
  readErrors : List GoString := []
  cancellationRequested : Bool := false
  deriving DecidableEq

def RunningStage.loop (stage : RunningStage) : Stream → CaptureLoop
  | .stdout => stage.stdout
  | .stderr => stage.stderr

def RunningStage.withLoop (stage : RunningStage) (stream : Stream) (loop : CaptureLoop) :
    RunningStage :=
  match stream with
  | .stdout => { stage with stdout := loop }
  | .stderr => { stage with stderr := loop }

/-- Stage identifiers are quoted as they are: a valid one has no bytes that are escaped. -/
def quoted (text : GoString) : GoString := GoString.ascii "\"" ++ text ++ GoString.ascii "\""

/-- The end of a round: the loop reads again, or returns.
SRC: runner.go:490-501 -/
def RunningStage.endRound (stage : RunningStage) (stream : Stream) (target : List UInt8)
    (err : Option ReadErr) : RunningStage :=
  match err with
  | none => stage.withLoop stream { target, phase := .reading }
  | some .eof => stage.withLoop stream { target, phase := .finished }
  | some (.other cause) =>
    let stage := stage.withLoop stream { target, phase := .finished }
    { stage with readErrors := stage.readErrors ++ [GoString.ascii "read " ++ stream.text ++
        GoString.ascii " for stage " ++ quoted stage.current.id ++ GoString.ascii ": " ++ cause] }

/-- What waiting for a process comes to, behind the end of both loops. -/
structure Settlement where
  duration : ℤ
  terminationSignal : GoString
  cancelCause : GoString
  supervisionErr : Option GoString
  waitErr : WaitResult

/-- SRC: errors.Join of runner.go:286-290 -/
def joinErrors : List GoString → Option GoString
  | [] => none
  | first :: others => some (GoString.join (first :: others) '\n')

/-- The result of a stage whose loops have returned.
SRC: runner.go:267-343 -/
def RunningStage.settled (stage : RunningStage) (settlement : Settlement) : StageResult :=
  let result := classify (initialResult stage.current) {
    output := []
    duration := settlement.duration
    terminationSignal := settlement.terminationSignal
    cancelled := if stage.cancellationRequested then some settlement.cancelCause else none
    supervisionErr := settlement.supervisionErr
    readErr := joinErrors stage.readErrors
    waitErr := settlement.waitErr }
  { result with stdout := stage.stdout.target, stderr := stage.stderr.target }

/-! ## A run -/

/-- A run with the stages that are left, the stage that runs, and what the observer was given.
SRC: runner.go:65-153 -/
structure RunLoops where
  remaining : List Task
  running : Option RunningStage := none
  sequence : UInt64 := 0
  events : List NumberedEvent
  results : List StageResult := []
  status : Status := .passed
  finished : Bool := false

/-- SRC: runner.go:65-87 -/
def startLoops (plan : List Task) : RunLoops where
  remaining := plan
  events := [{ kind := .runStarted }]

/-- What one of the parties of a run does next. -/
inductive Action
  | start
  | startFails (outcome : StageOutcome)
  | cancelBefore (cause : GoString)
  | read (stream : Stream) (chunk : List UInt8) (err : Option ReadErr)
  | number (stream : Stream)
  | deliver (stream : Stream)
  | requestCancellation
  | settle (settlement : Settlement)
  | finish (duration : ℤ)

/-- The observer is given an event.
SRC: runner.go:73-82 -/
def RunLoops.emit (state : RunLoops) (event : NumberedEvent) : RunLoops :=
  { state with events := state.events ++ [event] }

/-- A run goes on behind a stage that has passed, and passes over the others behind another.
SRC: runner.go:125-143, 505-533 -/
def RunLoops.append (state : RunLoops) (stage : StageResult) : RunLoops :=
  let state := { state with running := none, results := state.results ++ [stage] }
  if stage.status ≠ .passed then
    { state with
      status := stage.status
      remaining := []
      results := state.results ++ state.remaining.map skippedResult
      events := state.events ++ state.remaining.map fun current =>
        { kind := .stageSkipped, stageID := current.id, status := some .skipped } }
  else state

/-- The next state of a run, for an action that it is ready for.
SRC: runner.go:89-153, 158-346, 348-404, 455-503 -/
def RunLoops.step (state : RunLoops) : Action → Option RunLoops
  | .start =>
    match state.running, state.remaining with
    | none, current :: remaining =>
      let state := { state with remaining, running := some { current } }
      some (state.emit { kind := .stageStarted, stageID := current.id })
    | _, _ => none
  | .startFails outcome =>
    match state.running, state.remaining, outcome with
    | none, _ :: _, .ran _ => none
    | none, current :: remaining, outcome =>
      let (result, events) := runStage current outcome
      let state := { state with
        remaining
        events := state.events ++ events.map Event.unnumbered }
      some (state.append result)
    | _, _, _ => none
  | .cancelBefore cause =>
    match state.running, state.remaining with
    | none, current :: remaining =>
      let state := ({ state with remaining } : RunLoops).emit
        { kind := .stageFinished, stageID := current.id, status := some .cancelled, exitCode := 130 }
      some (state.append (cancelledResult current cause))
    | _, _ => none
  | .read stream chunk err =>
    match state.running with
    | none => none
    | some stage =>
      let target := (stage.loop stream).target
      if (stage.loop stream).phase ≠ .reading ∨ captureBuffer < chunk.length then none
      else if chunk = [] then
        some { state with running := some (stage.endRound stream target err) }
      else
        some { state with running := some (stage.withLoop stream {
          target := target ++ chunk
          phase := .captured chunk err }) }
  | .number stream =>
    match state.running with
    | none => none
    | some stage =>
      match (stage.loop stream).phase with
      | .captured chunk err =>
        let sequence := state.sequence + 1
        some { state with
          sequence
          running := some (stage.withLoop stream
            { stage.loop stream with phase := .numbered chunk sequence err }) }
      | _ => none
  | .deliver stream =>
    match state.running with
    | none => none
    | some stage =>
      match (stage.loop stream).phase with
      | .numbered chunk sequence err =>
        let event := stageOutput stage.current { stream, data := chunk }
        let state := state.emit { toEvent := event, sequence }
        some { state with
          running := some (stage.endRound stream (stage.loop stream).target err) }
      | _ => none
  | .requestCancellation =>
    match state.running with
    | none => none
    | some stage =>
      if stage.cancellationRequested then none
      else
        let state := state.emit { kind := .cancellationRequested, stageID := stage.current.id }
        some { state with running := some { stage with cancellationRequested := true } }
  | .settle settlement =>
    match state.running with
    | none => none
    | some stage =>
      if stage.stdout.phase = .finished ∧ stage.stderr.phase = .finished then
        let result := stage.settled settlement
        some ((state.emit (stageFinished result).unnumbered).append result)
      else none
  | .finish duration =>
    match state.running, state.remaining with
    | none, [] =>
      if state.finished then none
      else
        let state := { state with finished := true }
        some (state.emit { kind := .runFinished, status := some state.status, duration })
    | _, _ => none

end Tickline.Model.Stage
