import Tickline.Library.Channel
import Tickline.Model.ConsoleUpdate

/-!
# The interactive run

The interactive console is two parties.  One executes the plan and sends every event of the run,
and then its result, into a channel.  The other is the program that hands messages to the console
one after the other: the keys and window sizes of the terminal, and what a command of the console
has received from the channel.  A command runs beside the program, so what it has received waits
until the program takes it.  Nothing else holds the parties together, so a run is a list of
actions in any order that the state allows.

The program is as its documentation describes it: it runs every command that the console returns,
hands over one message at a time, and ends when the quitting command was run, when a signal tells it
to, or with an error.  What the execution does, what the terminal sends and when the caller's
context is cancelled are the environment's.
-/

set_option autoImplicit false

namespace Tickline.Model.Console

open Tickline.Library
open Tickline.Model.Stage (Event)

/-- SRC: tui/run.go:55 -/
def eventCapacity : ℕ := 256

/-- Where the goroutine of the execution stands: in `execute`, in front of the `select` of
`sendMessage`, or behind its last send.
SRC: tui/run.go:76-102 -/
inductive ExecutionPhase
  | executing
  | sending (message : Message)
  | done

/-- Where the program stands: it runs, it has returned its model, or it has returned an error. -/
inductive InterfacePhase
  | running
  | ended
  | failed (cause : GoString)

/-- SRC: tui/run.go:50-128 -/
structure TuiRun where
  execution : ExecutionPhase := .executing
  executionResult : Option (FinishedRun × Option GoString) := none
  events : Channel Message eventCapacity := .empty
  model : TeaModel
  /-- How many commands wait for a message of the channel. -/
  waiting : ℕ
  /-- What commands have received and the program has not taken. -/
  received : List Message := []
  /-- The quitting command was returned. -/
  quitting : Bool := false
  /-- The context of the execution is cancelled. -/
  cancelled : Bool := false
  interface : InterfacePhase := .running

/-- SRC: tui/run.go:62-74, tui/model.go:106-108 -/
def startTui (plan : List Stage.Task) (runID : GoString) : TuiRun :=
  let model := newTeaModel plan runID true true
  { model, waiting := if model.waitForEvent = .waitForMessage then 1 else 0 }

/-- The program behind a message that the console has handled. -/
def TuiRun.handled (run : TuiRun) (message : Message) : TuiRun :=
  let updated := run.model.update message
  { run with
    model := updated.model
    waiting := run.waiting + if updated.command = .waitForMessage then 1 else 0
    quitting := run.quitting || updated.command = .quit
    cancelled := run.cancelled || updated.cancels }

/-- The messages of the channel. -/
def Message.isOfRun : Message → Bool
  | .runnerEvent _ => true
  | .runFinished _ _ => true
  | _ => false

/-- The execution goes on behind an event, and is done behind its result.
SRC: tui/run.go:86-102 -/
def ExecutionPhase.behind : Message → ExecutionPhase
  | .runFinished _ _ => .done
  | _ => .executing

/-- What one of the parties does next. -/
inductive TuiAction
  | emit (event : Event)
  | finishRun (result : FinishedRun) (err : Option GoString)
  | send
  | drop
  | receive
  | take (index : ℕ)
  | terminal (message : Message)
  | quit
  | endedBySignal
  | interfaceFails (cause : GoString)
  | cancelParent

/-- The next state of an interactive run, for an action that it is ready for.  A cancellation is
reported only where the context is cancelled.
SRC: tui/run.go:76-136, runner.go:373-379 -/
def TuiRun.step (run : TuiRun) : TuiAction → Option TuiRun
  | .emit event =>
    match run.execution with
    | .executing =>
      if event.kind = .cancellationRequested ∧ run.cancelled = false then none
      else some { run with execution := .sending (.runnerEvent event) }
    | _ => none
  | .finishRun result err =>
    match run.execution with
    | .executing =>
      some { run with
        execution := .sending (.runFinished result err)
        executionResult := some (result, err) }
    | _ => none
  | .send =>
    match run.execution with
    | .sending message =>
      (run.events.send? message).map fun events =>
        { run with events, execution := .behind message }
    | _ => none
  | .drop =>
    match run.execution, run.interface with
    | .sending _, .running => none
    | .sending message, _ => some { run with execution := .behind message }
    | _, _ => none
  | .receive =>
    if run.waiting = 0 then none
    else run.events.receive?.map fun (message, events) =>
      { run with events, waiting := run.waiting - 1, received := run.received ++ [message] }
  | .take index =>
    match run.interface, run.received[index]? with
    | .running, some message =>
      some (({ run with received := run.received.eraseIdx index } : TuiRun).handled message)
    | _, _ => none
  | .terminal message =>
    match run.interface with
    | .running => if message.isOfRun then none else some (run.handled message)
    | _ => none
  | .quit =>
    match run.interface with
    | .running => if run.quitting then some { run with interface := .ended } else none
    | _ => none
  | .endedBySignal =>
    match run.interface with
    | .running => some { run with interface := .ended }
    | _ => none
  | .interfaceFails cause =>
    match run.interface with
    | .running => some { run with interface := .failed cause, cancelled := true }
    | _ => none
  | .cancelParent => some { run with cancelled := true }

/-- What `Run` returns, once the program and the execution are done.
SRC: tui/run.go:104-127 -/
def TuiRun.returned (run : TuiRun) : Option (Option FinishedRun × Option GoString) :=
  match run.interface, run.execution with
  | .failed cause, .done =>
    some (run.executionResult.map (·.1),
      some (GoString.ascii "run terminal interface: " ++ cause))
  | .ended, .done => some (run.model.result, run.model.runError)
  | _, _ => none

end Tickline.Model.Console
