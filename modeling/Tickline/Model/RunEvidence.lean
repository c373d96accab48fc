import Tickline.Model.RunStore

/-!
# The evidence of a run

What the check command executes: the runner with the store as its observer, and behind it
`persistRunArtifacts`, which writes the report of the run and then the manifest of everything that
was written, and closes the store.  When stages start, and what the operating system answers, are
the environment's.
-/

set_option autoImplicit false

namespace Tickline.Model.RunLog

open Tickline.Model.Artifacts (BuildFault ManifestFault Target build marshal)
open Tickline.Model.Report (ReportedRun ReportedStage UTCTime)
open Tickline.Model.Stage (Event RunEnvironment RunFault RunResult)

/-- SRC: cli/check.go:19 -/
def resultArtifactName : GoString := .ascii "result.json"

/-- SRC: cli/artifacts.go:12 -/
def artifactManifestName : GoString := .ascii "artifacts.json"

/-- The errors that are joined behind a run.
SRC: cli/artifacts.go:114-123 -/
inductive EvidenceFault
  | log (text : GoString)
  | write (text : GoString)
  | build (fault : BuildFault)
  | marshal (fault : ManifestFault)
  | close (text : GoString)
  deriving DecidableEq

/-- SRC: cli/artifacts.go:40-49 -/
def RunStore.withLogPath (store : RunStore) (stage : ReportedStage) : ReportedStage :=
  if stage.startedAt.isZero then stage
  else { stage with logPath := store.stageCombinedPath stage.id }

/-- The logs of a stage that was started.
SRC: cli/artifacts.go:40-72 -/
def RunStore.stageTargets (store : RunStore) (stage : ReportedStage) : List Target :=
  if stage.startedAt.isZero then []
  else [
    { path := store.stageStdoutPath stage.id
      kind := Artifacts.kindStdoutLog
      stageID := stage.id },
    { path := store.stageStderrPath stage.id
      kind := Artifacts.kindStderrLog
      stageID := stage.id },
    { path := store.stageCombinedPath stage.id
      kind := Artifacts.kindCombinedLog
      stageID := stage.id }]

/-- The result of a run with where its evidence is.
SRC: cli/artifacts.go:20-49 -/
def RunStore.located (store : RunStore) (result : ReportedRun) : ReportedRun :=
  { result with
    runID := store.runID
    logDirectory := store.relativeDirectory
    resultPath := store.artifactPath resultArtifactName
    artifactManifestPath := store.artifactPath artifactManifestName
    stages := result.stages.map store.withLogPath }

/-- SRC: cli/artifacts.go:29-73 -/
def RunStore.targets (store : RunStore) (result : ReportedRun) : List Target :=
  { path := store.artifactPath resultArtifactName, kind := Artifacts.kindResult } ::
    result.stages.flatMap store.stageTargets

/-- The error of a write, if there is one. -/
def writeFaults : Except GoString GoString → List EvidenceFault
  | .ok _ => []
  | .error err => [.write err]

/-- The manifest of everything that was written, where everything was.
SRC: cli/artifacts.go:86-110 -/
def RunStore.writeManifest (answers : ArtifactAnswers) (repositoryRoot : GoString)
    (store : RunStore) (targets : List Target) : RunStore × List EvidenceFault :=
  match build store.files repositoryRoot store.runID targets with
  | .error fault => (store, [.build fault])
  | .ok manifest =>
    match marshal manifest with
    | .error fault => (store, [.marshal fault])
    | .ok data =>
      let (store, written) := store.writeArtifact answers artifactManifestName data
      (store, writeFaults written)

/-- SRC: cli/artifacts.go:14-124 -/
def persistRunArtifacts (answers : ArtifactAnswers) (repositoryRoot : GoString) (store : RunStore)
    (result : ReportedRun) (logWriteError : Option GoString) :
    RunStore × ReportedRun × List EvidenceFault :=
  let targets := store.targets result
  let result := store.located result
  let (store, written) := store.writeArtifact answers resultArtifactName result.marshal
  let (store, manifestFaults) :=
    if logWriteError.isNone ∧ writeFaults written = [] then
      store.writeManifest answers repositoryRoot targets
    else (store, [])
  let (store, closeErrs) := store.close answers (result.stages.map (·.id))
  (store, result, logWriteError.toList.map .log ++ writeFaults written ++ manifestFaults ++
    closeErrs.map .close)

/-- When a run and its stages start. -/
structure RunClock where
  run : UTCTime
  stage : GoString → UTCTime

/-- A stage's result has a point in time exactly where its start was emitted, which is that of the
event.
SRC: runner.go:158-180 -/
def reportedStage (clock : RunClock) (events : List Event) (stage : Stage.StageResult) :
    ReportedStage :=
  { stage with
    startedAt :=
      if events.any fun event => event.kind = .stageStarted ∧ event.stageID = stage.id then
        clock.stage stage.id
      else {} }

/-- SRC: runner.go:65-71 -/
def reportedRun (clock : RunClock) (events : List Event) (result : RunResult) : ReportedRun where
  status := some result.status
  startedAt := clock.run
  duration := result.duration
  stages := result.stages.map (reportedStage clock events)

/-- SRC: cli/check.go:378-381 -/
inductive ExecuteFault
  | run (fault : RunFault)
  | evidence (fault : EvidenceFault)

/-- The function that `newExecutionFunction` returns, without the observer that only looks on.
SRC: cli/check.go:339-383 -/
def execute (environment : RunEnvironment) (clock : RunClock) (answers : ArtifactAnswers)
    (repositoryRoot : GoString) (plan : List Stage.Task) (store : RunStore) :
    RunStore × ReportedRun × List ExecuteFault :=
  match Stage.run environment repositoryRoot plan with
  | .error fault =>
    let (store, result, faults) := persistRunArtifacts answers repositoryRoot store {} none
    (store, result, .run fault :: faults.map .evidence)
  | .ok (result, events) =>
    let (log, logWriteError) :=
      events.foldl (observeEvent answers.toLogFiles) (store.toStore, none)
    let (store, result, faults) := persistRunArtifacts answers repositoryRoot
      { store with toStore := log } (reportedRun clock events result) logWriteError
    (store, result, faults.map .evidence)

end Tickline.Model.RunLog
