import Tickline.Library.Lines
import Tickline.Model.GoText

/-!
# The shell entry point

The script `check-local.sh` reads the manifest line by line and runs the script of every enabled
stage as it meets it.  The manifest is its standard input while it does, so it is the standard input
of the stages too: what a stage reads of it is not read by the loop.

Reading a line drops its zero bytes, and fields are separated by one tab or more, so that no field
is empty.  Which files there are and what the scripts come to is the environment's.  Left out is
what is printed about the stages that pass.
-/

set_option autoImplicit false

namespace Tickline.Model.CheckLocal

open Tickline.Library

/-- What a stage's script comes to, and how much of its standard input it reads. -/
structure ScriptRun where
  exitCode : ℕ
  consumed : ℕ

/-- What the shell meets in the repository.  What a script comes to may depend on the scripts before
it and on its standard input. -/
structure Shell where
  isFile : GoString → Bool
  isExecutable : GoString → Bool
  script : List GoString → GoString → GoString → ScriptRun

/-- How the entry point ends: with `Result: passed`, with a message of `fail`, or with the exit code
of a stage. -/
inductive Outcome
  | passed (stageCount : ℕ)
  | failed (message : GoString)
  | stageFailed (exitCode : ℕ)
  deriving DecidableEq

/-- The variables of the loop, and the scripts that were run.
SRC: scripts/check-local.sh:20-22 -/
structure State where
  versionSeen : Bool := false
  stageCount : ℕ := 0
  executed : List GoString := []

/-- What a loop over the manifest comes to: its state and the input that is left, or its end with
the scripts that were run until then. -/
abbrev Progress := Except (List GoString × Outcome) (State × GoString)

/-- SRC: scripts/check-local.sh:11-15 -/
def State.fail (state : State) (message : GoString) : Progress :=
  .error (state.executed, .failed (GoString.ascii "check-local: " ++ message))

/-- What `read -r` assigns to its variables, for a line without its end.
SRC: scripts/check-local.sh:26-32 -/
def fieldsOf (line : GoString) : List GoString :=
  ((line.filter (· ≠ 0)).splitOn (GoString.byte '\t')).filter (· ≠ [])

/-- SRC: scripts/check-local.sh:35 -/
def recordTypeOf (fields : List GoString) : GoString :=
  Lines.dropEnd (GoString.byte '\r') (fields.getD 0 [])

/-- A record that is passed over.
SRC: scripts/check-local.sh:37-39 -/
def isPassedOver (recordType : GoString) : Bool :=
  recordType = [] || recordType.hasPrefix "#"

/-- SRC: scripts/check-local.sh:42-51 -/
def versionRecord (state : State) (input version : GoString) : Progress :=
  if state.versionSeen then state.fail (GoString.ascii "manifest contains multiple version records")
  else if version ≠ GoString.ascii "1" then
    state.fail (GoString.ascii "unsupported manifest version: " ++ version)
  else .ok ({ state with versionSeen := true }, input)

/-- An enabled stage, with the input that its script may read.
SRC: scripts/check-local.sh:74-105 -/
def runStage (shell : Shell) (state : State) (input stageID scriptPath : GoString) : Progress :=
  if ¬ shell.isFile scriptPath then
    state.fail (GoString.ascii "stage " ++ stageID ++ GoString.ascii " script not found: " ++
      scriptPath)
  else if ¬ shell.isExecutable scriptPath then
    state.fail (GoString.ascii "stage " ++ stageID ++
      GoString.ascii " script is not executable: " ++ scriptPath)
  else
    let run := shell.script state.executed scriptPath input
    let state := { state with
      stageCount := state.stageCount + 1
      executed := state.executed ++ [scriptPath] }
    if run.exitCode = 0 then .ok (state, input.drop run.consumed)
    else .error (state.executed, .stageFailed run.exitCode)

/-- SRC: scripts/check-local.sh:53-105 -/
def stageRecord (shell : Shell) (state : State) (input stageID scriptPath enabledByDefault : GoString) :
    Progress :=
  if ¬ state.versionSeen then
    state.fail (GoString.ascii "stage record appears before manifest version")
  else if enabledByDefault = GoString.ascii "true" then
    runStage shell state input stageID scriptPath
  else if enabledByDefault = GoString.ascii "false" then .ok (state, input)
  else
    state.fail (GoString.ascii "stage " ++ stageID ++ GoString.ascii " has invalid enabled value: " ++
      enabledByDefault)

/-- The body of the loop, for the fields of a line and the input behind it.
SRC: scripts/check-local.sh:35-110 -/
def record (shell : Shell) (state : State) (input : GoString) (fields : List GoString) : Progress :=
  let recordType := recordTypeOf fields
  if isPassedOver recordType then .ok (state, input)
  else if recordType = GoString.ascii "version" then
    versionRecord state input (fields.getD 1 [])
  else if recordType = GoString.ascii "stage" then
    stageRecord shell state input (fields.getD 1 []) (fields.getD 3 []) (fields.getD 4 [])
  else state.fail (GoString.ascii "unknown manifest record type: " ++ recordType)

/-- The loop.  Every round takes a byte of its input, so the fuel is more than its length.
SRC: scripts/check-local.sh:26-111 -/
def loop (shell : Shell) : ℕ → State → GoString → Progress
  | 0, state, input => .ok (state, input)
  | fuel + 1, state, input =>
    let (line, rest) := Lines.cut (GoString.byte '\n') input
    let fields := fieldsOf line
    if GoString.byte '\n' ∉ input ∧ fields = [] then .ok (state, input)
    else do
      let (state, input) ← record shell state rest fields
      loop shell fuel state input

/-- The scripts that were run, in this order, and how the entry point ends. -/
structure Report where
  executed : List GoString
  outcome : Outcome
  deriving DecidableEq

/-- Behind the loop.
SRC: scripts/check-local.sh:113-123 -/
def finish (state : State) : Report where
  executed := state.executed
  outcome :=
    if ¬ state.versionSeen then
      .failed (GoString.ascii "check-local: manifest does not contain a version record")
    else if state.stageCount = 0 then
      .failed (GoString.ascii "check-local: manifest contains no enabled stages")
    else .passed state.stageCount

end Tickline.Model.CheckLocal
