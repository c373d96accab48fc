import Tickline.Model.RunEvidence
import Tickline.Model.TaskManifest
import Tickline.Model.Workflow

/-!
# The commands around a run

`tickline-dev check` reads its flags, finds the repository, builds a plan, makes a directory for the
run, executes the plan in one of three modes of output, and comes to an exit code.
`workflow run` is `check` for the stages of a workflow, and `artifacts verify` reads a manifest and
verifies it.

The files are a tree without symbolic links; the modes of scripts are asked of the environment of
the run.  What the commands print is left out, and of the errors that `os` returns only is kept
whether they say that a file is not there.
-/

set_option autoImplicit false

namespace Tickline.Model

/-- `filepath.Dir`. -/
def GoString.dir (path : GoString) : GoString :=
  GoString.clean (path.rdropWhile (· ≠ GoString.byte '/'))

/-! ## The package `flag` -/

namespace GoFlag

/-- A flag, by how its value is set. -/
inductive Flag (α : Type)
  | bool (set : α → Bool → α)
  | string (set : α → GoString → α)

/-- Why flags are not parsed; `help` is `flag.ErrHelp`. -/
inductive FlagFault
  | badSyntax (text : GoString)
  | notDefined (name : GoString)
  | help
  | invalidBool (name value : GoString)
  | needsArgument (name : GoString)
  deriving DecidableEq

/-- `strconv.ParseBool`. -/
def parseBool (text : GoString) : Option Bool :=
  if text ∈ ["1", "t", "T", "TRUE", "true", "True"].map GoString.ascii then some true
  else if text ∈ ["0", "f", "F", "FALSE", "false", "False"].map GoString.ascii then some false
  else none

/-- What an argument is: a flag with the value behind its equals sign, the end of the flags, or the
first argument that is none. -/
inductive Argument
  | flag (name : GoString) (value : Option GoString)
  | terminator
  | malformed
  | plain
  deriving DecidableEq

/-- The name of a flag and what stands behind the first equals sign, which is not its first byte. -/
def nameAndValue (text : GoString) : Argument :=
  match text with
  | [] => .malformed
  | first :: _ =>
    if first = GoString.byte '-' ∨ first = GoString.byte '=' then .malformed
    else
      match text.span (· ≠ GoString.byte '=') with
      | (name, []) => .flag name none
      | (name, _ :: value) => .flag name (some value)

/-- What an argument is. -/
def argumentOf (text : GoString) : Argument :=
  match text with
  | first :: second :: rest =>
    if first ≠ GoString.byte '-' then .plain
    else if second ≠ GoString.byte '-' then nameAndValue (second :: rest)
    else if rest = [] then .terminator
    else nameAndValue rest
  | _ => .plain

/-- `FlagSet.Parse`: the values behind the flags, and the arguments that remain. -/
def parse {α : Type} (formal : GoString → Option (Flag α)) :
    α → List GoString → Except FlagFault (α × List GoString)
  | values, [] => .ok (values, [])
  | values, text :: rest =>
    match argumentOf text with
    | .plain => .ok (values, text :: rest)
    | .terminator => .ok (values, rest)
    | .malformed => .error (.badSyntax text)
    | .flag name value =>
      match formal name, value, rest with
      | none, _, _ =>
        if name = GoString.ascii "help" ∨ name = GoString.ascii "h" then .error .help
        else .error (.notDefined name)
      | some (.bool set), none, rest => parse formal (set values true) rest
      | some (.bool set), some text, rest =>
        match parseBool text with
        | some value => parse formal (set values value) rest
        | none => .error (.invalidBool name text)
      | some (.string set), some value, rest => parse formal (set values value) rest
      | some (.string set), none, value :: rest => parse formal (set values value) rest
      | some (.string _), none, [] => .error (.needsArgument name)

end GoFlag

namespace Cli

open Tickline.Model.Artifacts (FileTree Node Manifest parse verify)
open Tickline.Model.Report (ReportedRun UTCTime)
open Tickline.Model.RunLog (ArtifactAnswers CreateAnswers CreateFault ExecuteFault RunClock RunStore)
open Tickline.Model.Stage (Catalog PlanFault RunEnvironment Status WorkflowFault)

/-- SRC: cli/cli.go:11-17 -/
inductive ExitCode
  | success
  | checkFailed
  | invalidUsage
  | internalError
  | interrupted
  deriving DecidableEq

/-- SRC: cli/cli.go:11-17 -/
def ExitCode.code : ExitCode → ℕ
  | .success => 0
  | .checkFailed => 1
  | .invalidUsage => 2
  | .internalError => 3
  | .interrupted => 130

/-- SRC: cli/cli.go:19-26 -/
structure Dependencies where
  workingDirectory : GoString := []
  terminalAvailable : Bool := false
  hasStdin : Bool := true

/-! ## The repository -/

/-- A regular file is there. -/
def isRegularFile (tree : FileTree) (path : GoString) : Bool :=
  match tree.node path.elements with
  | some (.file _) => true
  | _ => false

/-- SRC: repository/root.go:52-67 -/
def isRepositoryRoot (tree : FileTree) (path : GoString) : Bool :=
  ["scripts/checks/manifest.tsv", "tools/tickline-dev/go.mod", "CMakeLists.txt"].all fun relative =>
    isRegularFile tree (GoString.joinPath path (GoString.ascii relative))

/-- The loop over a directory and what it is in; every parent is shorter.
SRC: repository/root.go:33-44 -/
def findFrom (tree : FileTree) : ℕ → GoString → Option GoString
  | 0, _ => none
  | fuel + 1, current =>
    if isRepositoryRoot tree current then some current
    else if current.dir = current then none
    else findFrom tree fuel current.dir

/-- SRC: repository/root.go:9-50 -/
inductive FindFault
  | inspect
  | notFound (start : GoString)
  deriving DecidableEq

/-- A directory, or what something else is in.
SRC: repository/root.go:29-31 -/
def directoryAt (info : Node) (path : GoString) : GoString :=
  match info with
  | .directory => path
  | _ => path.dir

/-- SRC: repository/root.go:9-50 -/
def find (tree : FileTree) (start : GoString) : Except FindFault GoString :=
  let start := if start = [] then tree.workingDirectory else start
  match tree.node (tree.abs start).elements with
  | none => .error .inspect
  | some info =>
    let current := directoryAt info (tree.abs start)
    match findFrom tree current.length current with
    | some root => .ok root
    | none => .error (.notFound start)

/-- What opening and reading the manifest of the stages comes to. -/
def readTasks (tree : FileTree) (path : GoString) : Except GoString Stage.ManifestFile :=
  match tree.node path.elements with
  | some (.file file) => .ok { content := file.content }
  | some _ => .ok { content := [], readErr := some (GoString.ascii "read " ++ path) }
  | none => .error (GoString.ascii "open " ++ path)

/-- SRC: cli/check.go:132-155, workflow.go:262-276 -/
def loadTasks (tree : FileTree) (files : FileSystem) (repositoryRoot : GoString) :
    Except Stage.LoadFault Stage.Manifest :=
  Stage.load files
    (readTasks tree (GoString.joinPath repositoryRoot (GoString.ascii "scripts/checks/manifest.tsv")))
    repositoryRoot

/-! ## Checks -/

/-- SRC: cli/check.go:23-29 -/
inductive CheckOutputMode
  | plain
  | json
  | tui
  deriving DecidableEq

/-- SRC: cli/check.go:39-44 -/
structure CheckFlags where
  onlyValue : GoString := []
  skipValue : GoString := []
  planOnly : Bool := false
  plainOutput : Bool := false
  jsonOutput : Bool := false
  tuiOutput : Bool := false
  deriving DecidableEq

/-- SRC: cli/check.go:46-86 -/
def checkFlag (name : GoString) : Option (GoFlag.Flag CheckFlags) :=
  if name = GoString.ascii "plan" then
    some (.bool fun flags planOnly => { flags with planOnly })
  else if name = GoString.ascii "plain" then
    some (.bool fun flags plainOutput => { flags with plainOutput })
  else if name = GoString.ascii "json" then
    some (.bool fun flags jsonOutput => { flags with jsonOutput })
  else if name = GoString.ascii "tui" then
    some (.bool fun flags tuiOutput => { flags with tuiOutput })
  else if name = GoString.ascii "only" then
    some (.string fun flags onlyValue => { flags with onlyValue })
  else if name = GoString.ascii "skip" then
    some (.string fun flags skipValue => { flags with skipValue })
  else none

/-- SRC: cli/check.go:283-337 -/
def resolveCheckOutputMode (planOnly plainOutput jsonOutput tuiOutput terminalAvailable : Bool) :
    Except String CheckOutputMode :=
  let explicitModes := [plainOutput, jsonOutput, tuiOutput].count true
  if 1 < explicitModes then .error "--plain, --json, and --tui are mutually exclusive"
  else if planOnly ∧ explicitModes ≠ 0 then
    .error "--plan cannot be combined with an output-mode flag"
  else if jsonOutput then .ok .json
  else if plainOutput then .ok .plain
  else if tuiOutput then
    if !terminalAvailable then
      .error "--tui requires an interactive input and output terminal"
    else .ok .tui
  else if terminalAvailable then .ok .tui
  else .ok .plain

/-- SRC: cli/check.go:628-645 -/
def exitCodeForStatus : Option Status → ExitCode
  | some .passed => .success
  | some .failed => .checkFailed
  | some .cancelled => .interrupted
  | _ => .internalError

/-- What the interface comes to in front of the execution: it has heard its result, has ended
without it, or has failed.
SRC: tui/run.go:104-127 -/
inductive InterfaceEnd
  | heard
  | ended
  | failed

/-- What the command meets. -/
structure CheckSystem where
  tree : FileTree
  creating : CreateAnswers
  now : UTCTime
  environment : RunEnvironment
  clock : RunClock
  answers : ArtifactAnswers
  interface : InterfaceEnd := .heard
  /-- The report is written to the standard output. -/
  reportWritten : Bool := true

/-- Why nothing is executed.
SRC: cli/check.go:87-190 -/
inductive CheckFault
  | flags (fault : GoFlag.FlagFault)
  | unexpectedArgument (text : GoString)
  | mode (text : String)
  | repository (fault : FindFault)
  | load (fault : Stage.LoadFault)
  | plan (fault : PlanFault)
  | create (fault : CreateFault)
  deriving DecidableEq

/-- SRC: cli/check.go:87-190 -/
def CheckFault.exitCode : CheckFault → ExitCode
  | .flags .help => .success
  | .create _ => .internalError
  | _ => .invalidUsage

/-- What the command does: it shows a plan, or executes one. -/
structure CheckRequest where
  mode : CheckOutputMode
  repositoryRoot : GoString
  plan : List Stage.Task
  planOnly : Bool
  deriving DecidableEq

/-- SRC: cli/check.go:31-178 -/
def prepareCheck (args : List GoString) (dependencies : Dependencies) (system : CheckSystem) :
    Except CheckFault CheckRequest := do
  let (flags, rest) ← (GoFlag.parse checkFlag {} args).mapError .flags
  if let argument :: _ := rest then throw (.unexpectedArgument argument)
  let mode ← (resolveCheckOutputMode flags.planOnly flags.plainOutput flags.jsonOutput
    flags.tuiOutput dependencies.terminalAvailable).mapError .mode
  let repositoryRoot ← (find system.tree dependencies.workingDirectory).mapError .repository
  let manifest ←
    (loadTasks system.tree system.environment.files repositoryRoot).mapError .load
  let plan ← (Stage.checkPlan manifest flags.onlyValue flags.skipValue).mapError .plan
  return { mode, repositoryRoot, plan, planOnly := flags.planOnly }

/-- The exit code behind the execution of a plan.
SRC: cli/check.go:199-280 -/
def executedExitCode (mode : CheckOutputMode) (system : CheckSystem) (result : ReportedRun)
    (faults : List ExecuteFault) : ExitCode :=
  match mode, system.interface with
  | .tui, .failed => .internalError
  | .tui, .ended => exitCodeForStatus none
  | .tui, .heard => if faults.isEmpty then exitCodeForStatus result.status else .internalError
  | .plain, _ => if faults.isEmpty then exitCodeForStatus result.status else .internalError
  | .json, _ =>
    if faults.isEmpty ∧ system.reportWritten then exitCodeForStatus result.status
    else .internalError

/-- The exit code of executing a plan, and the directory of the run if one was made.
SRC: cli/check.go:180-281 -/
def executeCheck (request : CheckRequest) (dependencies : Dependencies) (system : CheckSystem) :
    ExitCode × Option RunStore :=
  match RunLog.create system.tree system.creating request.repositoryRoot system.now with
  | .error fault => ((CheckFault.create fault).exitCode, none)
  | .ok store =>
    if request.mode = .tui ∧ !dependencies.hasStdin then
      (.internalError, some (store.close system.answers []).1)
    else
      let (store, result, faults) := RunLog.execute system.environment system.clock system.answers
        request.repositoryRoot request.plan store
      (executedExitCode request.mode system result faults, some store)

/-- SRC: cli/check.go:31-281 -/
def runCheck (args : List GoString) (dependencies : Dependencies) (system : CheckSystem) :
    ExitCode × Option RunStore :=
  match prepareCheck args dependencies system with
  | .error fault => (fault.exitCode, none)
  | .ok request =>
    if request.planOnly then (.success, none) else executeCheck request dependencies system

/-! ## Workflows -/

end Cli

end Tickline.Model
