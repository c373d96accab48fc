import Mathlib.Data.List.DropRight
import Tickline.Model.ArtifactManifest
import Tickline.Model.StageRunner

/-!
# The report of a run

The package `jsonreport` of the developer tool: the result of a run as it is reported, and its text
in JSON.  `json.MarshalIndent` of the document does not fail.  `Format` of a point in time writes
the fields that it has in UTC; which they are is the standard library's.
-/

set_option autoImplicit false

namespace Tickline.Model.Report

open Tickline.Library
open Tickline.Library.Json (block intDigits)
open Tickline.Library.Json.Written.Member (line)
open Tickline.Model.Artifacts (stringText)
open Tickline.Model.Stage (Status)

/-! ## Points in time -/

/-- A point in time, by its fields in UTC.  The zero time is the first of January of the first
year. -/
structure UTCTime where
  year : ℕ := 1
  month : ℕ := 1
  day : ℕ := 1
  hour : ℕ := 0
  minute : ℕ := 0
  second : ℕ := 0
  nanosecond : ℕ := 0
  deriving DecidableEq

/-- `time.Time.IsZero`. -/
def UTCTime.isZero (value : UTCTime) : Bool := value = {}

/-- A number in decimal, with zeros in front. -/
def padded (width n : ℕ) : GoString :=
  let digits := (Nat.toDigits 10 n).map GoString.byte
  List.replicate (width - digits.length) (GoString.byte '0') ++ digits

/-- The fraction of a second of `time.RFC3339Nano`: without zeros at its end, or nothing. -/
def UTCTime.fraction (value : UTCTime) : GoString :=
  if value.nanosecond = 0 then []
  else GoString.byte '.' :: (padded 9 value.nanosecond).rdropWhile (· = GoString.byte '0')

/-- SRC: jsonreport/report.go:118-124 -/
def formatTime (value : UTCTime) : GoString :=
  if value.isZero then []
  else padded 4 value.year ++ GoString.ascii "-" ++ padded 2 value.month ++ GoString.ascii "-" ++
    padded 2 value.day ++ GoString.ascii "T" ++ padded 2 value.hour ++ GoString.ascii ":" ++
    padded 2 value.minute ++ GoString.ascii ":" ++ padded 2 value.second ++ value.fraction ++
    GoString.ascii "Z"

/-! ## Results -/

/-- SRC: runner/model.go:49-62 -/
structure ReportedStage extends Stage.StageResult where
  logPath : GoString := []
  startedAt : UTCTime := {}
  deriving DecidableEq

/-- The result of a run with what is reported of it.  A run that did not begin has no status.
SRC: runner/model.go:64-73 -/
structure ReportedRun where
  runID : GoString := []
  logDirectory : GoString := []
  resultPath : GoString := []
  artifactManifestPath : GoString := []
  status : Option Status := none
  startedAt : UTCTime := {}
  duration : ℤ := 0
  stages : List ReportedStage := []
  deriving DecidableEq

/-- SRC: runner/model.go:5-13 -/
def statusText : Option Status → GoString
  | some status => status.text
  | none => []

/-! ## Text -/

/-- SRC: jsonreport/report.go:13 -/
def schemaVersion : ℤ := 2

/-- `time.Duration.Milliseconds`. -/
def milliseconds (duration : ℤ) : ℤ := duration.tdiv 1000000

/-- A string that is left out where it is empty. -/
def optionalLine (name : String) (text : GoString) : List (List Char) :=
  if text = [] then [] else [line name (stringText text)]

/-- SRC: jsonreport/report.go:28-39, 72-85 -/
def ReportedStage.lines (stage : ReportedStage) : List (List Char) :=
  [line "id" (stringText stage.id), line "label" (stringText stage.label),
    line "status" (stringText stage.status.text)] ++
  optionalLine "started_at" (formatTime stage.startedAt) ++
  [line "duration_ms" (intDigits (milliseconds stage.duration)),
    line "exit_code" (intDigits stage.exitCode)] ++
  optionalLine "termination_signal" stage.terminationSignal ++
  [line "script_path" (stringText stage.scriptPath)] ++
  optionalLine "log_path" stage.logPath ++ optionalLine "error" stage.error

/-- SRC: jsonreport/report.go:15-26, 89-112 -/
def ReportedRun.text (result : ReportedRun) : List Char :=
  block 0 '{' '}' [
    line "schema_version" (intDigits schemaVersion),
    line "run_id" (stringText result.runID),
    line "status" (stringText (statusText result.status)),
    line "started_at" (stringText (formatTime result.startedAt)),
    line "duration_ms" (intDigits (milliseconds result.duration)),
    line "interrupted" (if result.status = some .cancelled then "true".toList else "false".toList),
    line "log_directory" (stringText result.logDirectory),
    line "result_path" (stringText result.resultPath),
    line "artifact_manifest_path" (stringText result.artifactManifestPath),
    line "stages" (block 2 '[' ']' (result.stages.map fun stage => block 4 '{' '}' stage.lines))]

/-- SRC: jsonreport/report.go:61-116 -/
def ReportedRun.marshal (result : ReportedRun) : GoString :=
  Unicode.encode (result.text ++ ['\n'])

end Tickline.Model.Report
