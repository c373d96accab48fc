import Tickline.Library.Unicode
import Tickline.Model.StageRunner

/-!
# The console

What the interactive console keeps of a run.  It starts from the plan with every stage waiting,
and from then on knows of the run only what the events tell it.

A Go map is a function here, which answers the zero value where the map has no entry; looking up a
stage answers `none` there.  Left out are the sizes of the window and what is drawn.
-/

set_option autoImplicit false

namespace Tickline.Model.Console

open Tickline.Library
open Tickline.Model.Stage (Event RunResult Task)

/-- SRC: tui/model.go:16-26 -/
inductive StageStatus
  | waiting
  | running
  | passed
  | failed
  | skipped
  | cancelled
  | internalError
  deriving DecidableEq

/-- SRC: tui/model.go:18-25 -/
def StageStatus.text : StageStatus → GoString
  | .waiting => .ascii "waiting"
  | .running => .ascii "running"
  | .passed => .ascii "passed"
  | .failed => .ascii "failed"
  | .skipped => .ascii "skipped"
  | .cancelled => .ascii "cancelled"
  | .internalError => .ascii "internal-error"

/-- SRC: tui/model.go:28-35 -/
structure StageState where
  id : GoString
  label : GoString
  status : StageStatus
  duration : ℤ := 0
  exitCode : ℤ
  terminationSignal : GoString := []
  deriving DecidableEq

/-- SRC: tui/model.go:46-61 -/
structure ConsoleModel where
  runID : GoString
  stages : List StageState
  stageIndex : GoString → Option ℕ
  logs : GoString → GoString
  logTruncated : GoString → Bool
  selected : ℕ := 0
  cancelling : Bool := false

/-- A later stage replaces an earlier one of the same identifier in the index.
SRC: tui/model.go:63-94 -/
def newModel (plan : List Task) (runID : GoString) : ConsoleModel where
  runID
  stages := plan.map fun current =>
    { id := current.id, label := current.label, status := .waiting, exitCode := -1 }
  stageIndex := plan.zipIdx.foldl
    (fun index entry => Function.update index entry.1.id (some entry.2)) fun _ => none
  logs _ := []
  logTruncated _ := false

/-! ## Output -/

/-- What follows a control sequence: its last byte is the first from `@` to `~`.
SRC: sanitize.go:95-107 -/
def consumeCSI : List UInt8 → List UInt8
  | [] => []
  | b :: data => if 0x40 ≤ b ∧ b ≤ 0x7e then data else consumeCSI data

/-- What follows a string sequence, which a bell ends, or an escape with a backslash.
SRC: sanitize.go:109-127 -/
def consumeStringSequence : List UInt8 → List UInt8
  | [] => []
  | b :: data =>
    if b = 0x07 then data
    else if b = 0x1b ∧ data.head? = some (GoString.byte '\\') then data.tail
    else consumeStringSequence data

/-- What follows an escape sequence, from behind its escape byte.
SRC: sanitize.go:72-93 -/
def consumeEscapeSequence : List UInt8 → List UInt8
  | [] => []
  | b :: data =>
    if b = GoString.byte '[' then consumeCSI data
    else if b ∈ [GoString.byte ']', GoString.byte 'P', GoString.byte '^', GoString.byte '_'] then
      consumeStringSequence data
    else data

/-- The bytes that are kept, in at most `fuel` steps.
SRC: sanitize.go:15-58 -/
def keptBytes : ℕ → List UInt8 → List UInt8
  | 0, _ => []
  | _, [] => []
  | fuel + 1, b :: data =>
    if b = 0x1b then keptBytes fuel (consumeEscapeSequence data)
    else if b = 0x0d then
      0x0a :: keptBytes fuel (if data.head? = some 0x0a then data.tail else data)
    else if b = 0x09 then [0x20, 0x20, 0x20, 0x20] ++ keptBytes fuel data
    else if b = 0x0a then b :: keptBytes fuel data
    else if b < 0x20 ∨ b = 0x7f then keptBytes fuel data
    else b :: keptBytes fuel data

/-- The characters of runes, where bytes that are not part of a character and follow each other
have one replacement together. -/
def joinInvalid : Bool → List (Option Char) → List Char
  | _, [] => []
  | _, some c :: runes => c :: joinInvalid false runes
  | true, none :: runes => joinInvalid true runes
  | false, none :: runes => Unicode.replacement :: joinInvalid true runes

/-- `strings.ToValidUTF8` with U+FFFD. -/
def toValidUTF8 (bytes : List UInt8) : List UInt8 :=
  Unicode.encode (joinInvalid false (Unicode.runes bytes))

/-- SRC: sanitize.go:8-70 -/
def sanitizeTerminalOutput (data : List UInt8) : GoString :=
  let result := keptBytes data.length data
  if Unicode.Valid result then result else toValidUTF8 result

/-- SRC: tui/model.go:14 -/
def maxStageLogBytes : ℕ := 256 * 1024

/-- SRC: tui/model.go:259-281 -/
def ConsoleModel.appendStageOutput (model : ConsoleModel) (stageID : GoString) (data : List UInt8) : ConsoleModel :=
  let sanitized := sanitizeTerminalOutput data
  if sanitized = [] then model
  else
    let combined := model.logs stageID ++ sanitized
    if combined.length > maxStageLogBytes then
      let combined := Unicode.coerce (combined.drop (combined.length - maxStageLogBytes))
      { model with
        logs := Function.update model.logs stageID combined
        logTruncated := Function.update model.logTruncated stageID true }
    else { model with logs := Function.update model.logs stageID combined }

/-! ## Events -/

/-- SRC: tui/model.go:283-305 -/
def statusFromRunner : Option Stage.Status → StageStatus
  | some .passed => .passed
  | some .failed => .failed
  | some .skipped => .skipped
  | some .cancelled => .cancelled
  | some .internalError => .internalError
  | none => .internalError

/-- SRC: tui/model.go:210-257 -/
def ConsoleModel.applyRunnerEvent (model : ConsoleModel) (event : Event) : ConsoleModel :=
  match event.kind, model.stageIndex event.stageID with
  | .stageStarted, some index =>
    { model with
      stages := model.stages.modify index fun stage => { stage with status := .running }
      selected := index }
  | .stageOutput, some _ => model.appendStageOutput event.stageID event.data
  | .stageFinished, some index =>
    { model with
      stages := model.stages.modify index fun stage => { stage with
        status := statusFromRunner event.status
        duration := event.duration
        exitCode := event.exitCode
        terminationSignal := event.terminationSignal } }
  | .stageSkipped, some index =>
    { model with
      stages := model.stages.modify index fun stage => { stage with status := .skipped } }
  | .cancellationRequested, _ => { model with cancelling := true }
  | _, _ => model

/-- SRC: view.go:500-518 -/
def ConsoleModel.progress (model : ConsoleModel) : ℕ × ℕ :=
  (model.stages.countP fun stage => stage.status ∈
    [.passed, .failed, .skipped, .cancelled, .internalError], model.stages.length)

end Tickline.Model.Console
