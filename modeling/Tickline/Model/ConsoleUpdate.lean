import Tickline.Model.Console

/-!
# The messages of the console

The interactive program hands its messages to the console one after the other: sizes of the window,
keys, the events of the run and its end.  Each gives the next model, the command that the program
is to run, and whether the run is to be cancelled.

A key is known by its name.  Of the channel of events and of the cancel function the model has only
whether they are there.  Of a run that has finished, the dates and the paths are left out.
-/

set_option autoImplicit false

namespace Tickline.Model.Console

open Tickline.Model.Stage (Event StageResult)

/-- A status is missing where the run could not start.
SRC: runner/model.go:64-73 -/
structure FinishedRun where
  runID : GoString
  status : Option Stage.Status
  duration : ℤ
  stages : List StageResult

/-- SRC: tui/model.go:46-61 -/
structure TeaModel extends ConsoleModel where
  width : ℤ := 100
  height : ℤ := 30
  completed : Bool := false
  result : Option FinishedRun := none
  runError : Option GoString := none
  events : Bool
  cancel : Bool

/-- SRC: tui/model.go:63-104 -/
def newTeaModel (plan : List Stage.Task) (runID : GoString) (events cancel : Bool) : TeaModel where
  toConsoleModel := newModel plan runID
  events
  cancel

/-- SRC: tui/model.go:37-44, 110-178 -/
inductive Message
  | windowSize (width height : ℤ)
  | keyPress (key : GoString)
  | runnerEvent (event : Event)
  | runFinished (result : FinishedRun) (err : Option GoString)
  | other

/-- What the program does next. -/
inductive Command
  | nothing
  | waitForMessage
  | quit
  deriving DecidableEq

/-- What a message comes to. -/
structure Updated where
  model : TeaModel
  command : Command := .nothing
  cancels : Bool := false

/-- SRC: tui/model.go:307-321 -/
def previousIndex (current length : ℕ) : ℕ :=
  if length = 0 then 0
  else if current = 0 then length - 1
  else current - 1

/-- SRC: tui/model.go:323-337 -/
def nextIndex (current length : ℕ) : ℕ :=
  if length = 0 then 0
  else if current ≥ length - 1 then 0
  else current + 1

/-- SRC: tui/model.go:190-196 -/
def TeaModel.waitForEvent (model : TeaModel) : Command :=
  if !model.events || model.completed then .nothing else .waitForMessage

/-- SRC: tui/model.go:198-208 -/
def TeaModel.requestCancellation (model : TeaModel) : Updated :=
  if model.completed || model.cancelling then { model }
  else { model := { model with cancelling := true }, cancels := model.cancel }

/-- SRC: tui/model.go:118-155 -/
def TeaModel.pressKey (model : TeaModel) (key : GoString) : Updated :=
  if key ∈ [GoString.ascii "up", GoString.ascii "k"] then
    { model := { model with selected := previousIndex model.selected model.stages.length } }
  else if key ∈ [GoString.ascii "down", GoString.ascii "j"] then
    { model := { model with selected := nextIndex model.selected model.stages.length } }
  else if key ∈ [GoString.ascii "home", GoString.ascii "g"] then
    { model := if model.stages.length ≠ 0 then { model with selected := 0 } else model }
  else if key ∈ [GoString.ascii "end", GoString.ascii "G"] then
    { model :=
        if model.stages.length ≠ 0 then { model with selected := model.stages.length - 1 }
        else model }
  else if key ∈ [GoString.ascii "q", GoString.ascii "esc"] then
    if model.completed then { model, command := .quit } else model.requestCancellation
  else if key = GoString.ascii "ctrl+c" then model.requestCancellation
  else if key = GoString.ascii "enter" then
    if model.completed then { model, command := .quit } else { model }
  else { model }

/-- SRC: tui/model.go:110-178 -/
def TeaModel.update (model : TeaModel) : Message → Updated
  | .windowSize width height => { model := { model with width := max width 1, height := max height 1 } }
  | .keyPress key => model.pressKey key
  | .runnerEvent event =>
    let model := { model with toConsoleModel := model.toConsoleModel.applyRunnerEvent event }
    { model, command := model.waitForEvent }
  | .runFinished result err =>
    let model := { model with completed := true, result := some result, runError := err }
    let model := if result.runID ≠ [] then { model with runID := result.runID } else model
    { model, command := if result.status = some .cancelled then .quit else .nothing }
  | .other => { model }

end Tickline.Model.Console
