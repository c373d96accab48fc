import Mathlib.Algebra.Group.Int.Defs
import Tickline.Library.Lines
import Tickline.Model.Task

/-!
# The manifest file

The console reads its manifest from a file of lines, whose fields stand between tabs.  Blank lines
and comments are passed over; one line names the version, and every line behind it is a stage.

An error is a constructor with the number of its line and the values its text quotes.
-/

set_option autoImplicit false

namespace Tickline.Model.Stage

open Tickline.Library

/-! ## Lines and numbers -/

/-- The bytes that the scanner has room for: a longer line is an error, and so is one of this
length.
SRC: task/manifest.go:37 -/
def scanBuffer : ℕ := 1024 * 1024

/-- `strings.TrimSuffix` of a carriage return. -/
def dropReturn (line : GoString) : GoString := Lines.dropEnd (GoString.byte '\r') line

/-- What a `bufio.Scanner` gives before it stops: the lines, each without a carriage return at its
end, up to one that is too long. -/
def scannedLines (content : GoString) : List GoString :=
  ((Lines.lines (GoString.byte '\n') content).takeWhile fun line => line.length < scanBuffer).map
    dropReturn

/-- Why a `bufio.Scanner` stopped, where it was not at the end of the file. -/
def scanErr (content : GoString) (readErr : Option GoString) : Option GoString :=
  if (Lines.lines (GoString.byte '\n') content).any fun line => scanBuffer ≤ line.length then
    some (GoString.ascii "bufio.Scanner: token too long")
  else readErr

/-- The value of decimal digits, nothing for other bytes or none. -/
def digitsValue (digits : GoString) : Option ℕ :=
  if digits ≠ [] ∧ digits.all (fun b => GoString.byte '0' ≤ b && b ≤ GoString.byte '9') then
    some (digits.foldl (fun value b => 10 * value + (b.toNat - (GoString.byte '0').toNat)) 0)
  else none

/-- A text without its sign, and if the sign is a minus. -/
def dropSign : GoString → Bool × GoString
  | [] => (false, [])
  | b :: rest =>
    if b = GoString.byte '-' then (true, rest)
    else if b = GoString.byte '+' then (false, rest)
    else (false, b :: rest)

/-- `strconv.Atoi`, nothing for an error. -/
def atoi (text : GoString) : Option ℤ := do
  let (negative, digits) := dropSign text
  let value ← digitsValue digits
  let number : ℤ := if negative then -value else value
  if -(2 ^ 63) ≤ number ∧ number < 2 ^ 63 then return number
  none

/-! ## Records -/

/-- Why a manifest file is not parsed.
SRC: task/manifest.go:35-142 -/
inductive ParseFault
  | versionPlacement (line : ℕ)
  | versionFields (line : ℕ)
  | unsupportedVersion (line : ℕ) (value : GoString)
  | stageBeforeVersion (line : ℕ)
  | stageFields (line : ℕ)
  | invalidEnabled (line : ℕ) (value : GoString)
  | unknownRecord (line : ℕ) (recordType : GoString)
  | read (cause : GoString)
  | noVersion
  | noStages
  deriving DecidableEq

/-- SRC: task/manifest.go:229-241 -/
def parseEnabled (value : GoString) : Option Bool :=
  if value = GoString.ascii "true" then some true
  else if value = GoString.ascii "false" then some false
  else none

/-- SRC: task/manifest.go:243-260 -/
def parseDependencies (value : GoString) : List GoString :=
  if value = [] then [] else (value.split ',').map GoString.trimSpace

/-- What was parsed so far. -/
structure ParseState where
  manifest : Manifest := { version := 0, tasks := [] }
  seenVersion : Bool := false

/-- A line that is passed over: a blank one or a comment.
SRC: task/manifest.go:45-50 -/
def isPassedOver (line : GoString) : Bool :=
  line.trimSpace = [] || line.trimSpace.hasPrefix "#"

/-- One line, by its number.
SRC: task/manifest.go:43-125 -/
def parseLine (state : ParseState) (number : ℕ) (scanned : GoString) :
    Except ParseFault ParseState :=
  let line := dropReturn scanned
  if isPassedOver line then return state
  else
    let fields := line.split '\t'
    let recordType := fields.headD []
    if recordType = GoString.ascii "version" then
      if state.seenVersion ∨ state.manifest.tasks ≠ [] then throw (.versionPlacement number)
      else
        match fields with
        | [_, value] =>
          if atoi value = some 1 then
            return { manifest := { state.manifest with version := 1 }, seenVersion := true }
          else throw (.unsupportedVersion number value)
        | _ => throw (.versionFields number)
    else if recordType = GoString.ascii "stage" then
      if ¬ state.seenVersion then throw (.stageBeforeVersion number)
      else
        match fields with
        | [_, id, label, scriptPath, enabled, dependencies] =>
          match parseEnabled enabled with
          | none => throw (.invalidEnabled number enabled)
          | some enabledByDefault =>
            let current : Task := {
              id
              label
              scriptPath
              enabledByDefault
              dependencies := parseDependencies dependencies
              manifestOrder := state.manifest.tasks.length }
            return { state with
              manifest := { state.manifest with tasks := state.manifest.tasks ++ [current] } }
        | _ => throw (.stageFields number)
    else throw (.unknownRecord number recordType)

/-- The lines behind some, whose count is given. -/
def parseLines : ParseState → ℕ → List GoString → Except ParseFault ParseState
  | state, _, [] => return state
  | state, count, line :: rest => do
    let state ← parseLine state (count + 1) line
    parseLines state (count + 1) rest

/-- SRC: task/manifest.go:35-142 -/
def parse (content : GoString) (readErr : Option GoString) : Except ParseFault Manifest := do
  let state ← parseLines {} 0 (scannedLines content)
  match scanErr content readErr with
  | some cause => throw (.read cause)
  | none =>
    if ¬ state.seenVersion then throw .noVersion
    if state.manifest.tasks = [] then throw .noStages
    return state.manifest

/-- Why a manifest is not loaded.
SRC: task/manifest.go:16-33 -/
inductive LoadFault
  | openFile (cause : GoString)
  | parse (fault : ParseFault)
  | validate (fault : ManifestFault)
  deriving DecidableEq

/-- What opening and reading a file comes to: its bytes, and the error behind them. -/
structure ManifestFile where
  content : GoString
  readErr : Option GoString := none

/-- SRC: task/manifest.go:16-33 -/
def load (files : FileSystem) (file : Except GoString ManifestFile) (repositoryRoot : GoString) :
    Except LoadFault Manifest := do
  let file ← file.mapError .openFile
  let manifest ← (parse file.content file.readErr).mapError .parse
  (manifest.validate files repositoryRoot).mapError .validate
  return manifest

end Tickline.Model.Stage
