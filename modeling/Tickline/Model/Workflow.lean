import Tickline.Model.Task

/-!
# Workflows

A workflow of the catalog is a selection of stages with a purpose for each.  It is shown as the
plan its selection resolves to, and run by handing the identifiers of that plan to the check
command, which builds a plan from them again.

The modes of output and the error texts of the command are left out.
-/

set_option autoImplicit false

namespace Tickline.Model.Stage

/-- SRC: workflow/model.go:7-10 -/
structure StagePurpose where
  taskID : GoString
  purpose : GoString

/-- SRC: workflow/model.go:12-18 -/
structure Artifact where
  id : GoString
  label : GoString
  pathPattern : GoString
  description : GoString
  required : Bool

/-- SRC: workflow/model.go:20-27 -/
structure Definition where
  id : GoString
  label : GoString
  description : GoString
  selection : Selection
  stagePurposes : List StagePurpose
  artifacts : List Artifact

/-- SRC: workflow/model.go:29-35 -/
structure PlannedStage where
  id : GoString
  label : GoString
  purpose : GoString
  scriptPath : GoString
  dependencies : List GoString

/-- SRC: workflow/model.go:37-40 -/
structure WorkflowPlan where
  definition : Definition
  stages : List PlannedStage

/-- SRC: workflow/model.go:42-57 -/
def WorkflowPlan.stageIDs (plan : WorkflowPlan) : List GoString := plan.stages.map (·.id)

/-! ## Catalogs -/

/-- Why a definition or a catalog is refused.
SRC: catalog.go:19-53, 224-324 -/
inductive CatalogFault
  | invalidIdentifier (id : GoString)
  | emptyLabel (id : GoString)
  | emptyDescription (id : GoString)
  | invalidStage (id taskID : GoString)
  | emptyPurpose (id taskID : GoString)
  | repeatedPurpose (id taskID : GoString)
  | noPurposes (id : GoString)
  | invalidArtifact (id artifact : GoString)
  | incompleteArtifact (id artifact : GoString)
  | repeatedArtifact (id artifact : GoString)
  | duplicatedIdentifier (id : GoString)
  | emptyCatalog
  deriving DecidableEq

/-- The purposes of a definition, behind those of the stages `seen`.
SRC: catalog.go:248-283 -/
def validatePurposes (id : GoString) :
    List GoString → List StagePurpose → Except CatalogFault Unit
  | _, [] => return
  | seen, current :: rest => do
    if !isIdentifier current.taskID then throw (.invalidStage id current.taskID)
    if current.purpose.trimSpace = [] then throw (.emptyPurpose id current.taskID)
    if current.taskID ∈ seen then throw (.repeatedPurpose id current.taskID)
    validatePurposes id (seen ++ [current.taskID]) rest

/-- The artifacts of a definition, behind those `seen`.
SRC: catalog.go:292-321 -/
def validateArtifacts (id : GoString) : List GoString → List Artifact → Except CatalogFault Unit
  | _, [] => return
  | seen, artifact :: rest => do
    if !isIdentifier artifact.id then throw (.invalidArtifact id artifact.id)
    if artifact.label.trimSpace = [] ∨ artifact.pathPattern.trimSpace = [] ∨
        artifact.description.trimSpace = [] then
      throw (.incompleteArtifact id artifact.id)
    if artifact.id ∈ seen then throw (.repeatedArtifact id artifact.id)
    validateArtifacts id (seen ++ [artifact.id]) rest

/-- SRC: catalog.go:224-324 -/
def validateDefinition (definition : Definition) : Except CatalogFault Unit := do
  if !isIdentifier definition.id then throw (.invalidIdentifier definition.id)
  if definition.label.trimSpace = [] then throw (.emptyLabel definition.id)
  if definition.description.trimSpace = [] then throw (.emptyDescription definition.id)
  validatePurposes definition.id [] definition.stagePurposes
  if definition.stagePurposes = [] then throw (.noPurposes definition.id)
  validateArtifacts definition.id [] definition.artifacts

/-- The definitions of a catalog, behind those whose identifiers were `seen`.
SRC: catalog.go:25-41 -/
def validateDefinitions : List GoString → List Definition → Except CatalogFault Unit
  | _, [] => return
  | seen, definition :: rest => do
    validateDefinition definition
    if definition.id ∈ seen then throw (.duplicatedIdentifier definition.id)
    validateDefinitions (seen ++ [definition.id]) rest

/-- A catalog that was built.
SRC: catalog.go:15-17 -/
structure Catalog where
  definitions : List Definition

/-- SRC: catalog.go:19-53 -/
def newCatalog (definitions : List Definition) : Except CatalogFault Catalog := do
  validateDefinitions [] definitions
  if definitions = [] then throw .emptyCatalog
  return ⟨definitions⟩

/-- SRC: catalog.go:58-122 -/
def releaseReadiness : Definition where
  id := .ascii "release-readiness"
  label := .ascii "Release readiness"
  description := .ascii <| "Run the repository verification stages " ++
    "required before a merge or release."
  selection := {}
  stagePurposes := [
    ⟨.ascii "docs", .ascii <| "Verify documentation structure, required files, " ++
      "and public claims."⟩,
    ⟨.ascii "cpp", .ascii <| "Build and test the native deterministic simulation, protocol, " ++
      "evidence, and storage layers."⟩,
    ⟨.ascii "sanitizers", .ascii <| "Execute native tests with memory and undefined-behavior " ++
      "instrumentation."⟩,
    ⟨.ascii "python", .ascii <| "Verify investigation analytics, reporting, review, " ++
      "and command-line behavior."⟩,
    ⟨.ascii "go", .ascii <| "Verify the developer console, process supervision, reporting, " ++
      "and terminal-independent logic."⟩,
    ⟨.ascii "docker", .ascii "Build the reproducible container verification environment."⟩]
  artifacts := [
    { id := .ascii "result-json"
      label := .ascii "Canonical result"
      pathPattern := .ascii "reports/check-local/<run-id>/result.json"
      description := .ascii "Versioned machine-readable run result."
      required := true },
    { id := .ascii "artifact-manifest"
      label := .ascii "Artifact integrity manifest"
      pathPattern := .ascii "reports/check-local/<run-id>/artifacts.json"
      description := .ascii "Stable size and SHA-256 inventory for the result and stage logs."
      required := true },
    { id := .ascii "combined-stage-log"
      label := .ascii "Combined stage log"
      pathPattern := .ascii "reports/check-local/<run-id>/<stage-id>.combined.log"
      description := .ascii <| "Ordered standard-output and standard-error stream " ++
        "for one executed stage."
      required := true },
    { id := .ascii "stream-stage-logs"
      label := .ascii "Stage stream logs"
      pathPattern := .ascii "reports/check-local/<run-id>/<stage-id>.<stdout|stderr>.log"
      description := .ascii <| "Separate standard-output and standard-error logs " ++
        "for one executed stage."
      required := true }]

/-- The catalog of the tool, which panics where `newCatalog` refuses it.
SRC: catalog.go:55-128 -/
def builtInCatalog : Catalog := ⟨[releaseReadiness]⟩

/-! ## Resolving and running -/

/-- Why a workflow does not resolve or run.
SRC: catalog.go:147-222, workflow_run.go:36-59 -/
inductive WorkflowFault
  | unknownWorkflow (id : GoString)
  | stages (id : GoString) (cause : PlanFault)
  | noPurpose (id stage : GoString)
  | noStages (id : GoString)
  | check (cause : PlanFault)
  deriving DecidableEq

/-- The purpose of a stage; a later one replaces an earlier one. -/
def Definition.purpose (definition : Definition) (taskID : GoString) : Option GoString :=
  (definition.stagePurposes.reverse.find? (·.taskID = taskID)).map (·.purpose)

/-- SRC: catalog.go:178-216 -/
def planStage (definition : Definition) (current : Task) : Except WorkflowFault PlannedStage :=
  match definition.purpose current.id with
  | none => .error (.noPurpose definition.id current.id)
  | some purpose => .ok {
      id := current.id
      label := current.label
      purpose
      scriptPath := current.scriptPath
      dependencies := current.dependencies }

/-- `Catalog.Resolve`.
SRC: catalog.go:147-222 -/
def Catalog.resolve (catalog : Catalog) (id : GoString) (manifest : Manifest) :
    Except WorkflowFault WorkflowPlan := do
  match catalog.definitions.find? (·.id = id) with
  | none => throw (.unknownWorkflow id)
  | some definition =>
    let executionPlan ← (manifest.buildPlan definition.selection).mapError (.stages id)
    let stages ← executionPlan.mapM (planStage definition)
    return { definition, stages }

/-- The value of `--only` or `--skip`.
SRC: check.go:659-675 -/
def splitStageList (value : GoString) : List GoString :=
  if value.trimSpace = [] then [] else (value.split ',').map GoString.trimSpace

/-- The plan of the check command.
SRC: check.go:157-160 -/
def checkPlan (manifest : Manifest) (onlyValue skipValue : GoString) :
    Except PlanFault (List Task) :=
  manifest.buildPlan { only := splitStageList onlyValue, skip := splitStageList skipValue }

/-- The plan that a workflow runs: its identifiers are joined, and checked as `--only`.
SRC: workflow_run.go:15-89 -/
def Catalog.runPlan (catalog : Catalog) (id : GoString) (manifest : Manifest) :
    Except WorkflowFault (List Task) := do
  let plan ← catalog.resolve id manifest
  if plan.stageIDs = [] then throw (.noStages id)
  (checkPlan manifest (GoString.join plan.stageIDs ',') []).mapError .check

end Tickline.Model.Stage
