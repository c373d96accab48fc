import Mathlib.Data.Int.Notation
import Tickline.Library.DepthFirst
import Tickline.Model.GoText

/-!
# Stages and execution plans

The manifest of verification stages, its validation, and the plan that a selection of stages
comes to.  Validation and planning search the stages depth-first with the same marks; both are
`Library.DepthFirst.visitAll`, which also keeps the stack that a cycle is read off from.

An error is a constructor with the values its text quotes.  The file system is a parameter.
-/

set_option autoImplicit false

namespace Tickline.Model

open Tickline.Library

/-- What the tool asks of a file's mode. -/
structure FileInfo where
  isRegular : Bool
  isDir : Bool
  perm : UInt32

/-- `filepath.Abs`, `os.Stat` and `filepath.EvalSymlinks`, with the texts of their errors. -/
structure FileSystem where
  abs : GoString → Except GoString GoString
  stat : GoString → Except GoString FileInfo
  evalSymlinks : GoString → Except GoString GoString

namespace Stage

/-- SRC: task/model.go:3-10 -/
structure Task where
  id : GoString
  label : GoString
  scriptPath : GoString
  enabledByDefault : Bool
  dependencies : List GoString
  manifestOrder : ℕ
  deriving DecidableEq

/-- SRC: task/model.go:12-15 -/
structure Manifest where
  version : ℤ
  tasks : List Task

/-- SRC: task/model.go:17-20 -/
structure Selection where
  only : List GoString := []
  skip : List GoString := []

/-- `tasksByID`: a later stage replaces an earlier one of the same identifier.
SRC: plan.go:11-15, task/manifest.go:157-185 -/
def tasksByID (tasks : List Task) (id : GoString) : Option Task :=
  tasks.reverse.find? (·.id = id)

/-! ## Validation -/

/-- Why a script path is refused.
SRC: task/manifest.go:261-358 -/
inductive ScriptFault
  | empty
  | absolute
  | notCanonical (path : GoString)
  | escapes
  | unavailable (cause : GoString)
  | notRegular
  | notExecutable
  | rootLinks (cause : GoString)
  | scriptLinks (cause : GoString)
  | resolvesOutside
  deriving DecidableEq

/-- Why a manifest is refused.
SRC: task/manifest.go:144-227, 360-421 -/
inductive ManifestFault
  | unsupportedVersion (version : ℤ)
  | resolveRoot (cause : GoString)
  | invalidIdentifier (id : GoString)
  | emptyLabel (id : GoString)
  | duplicatedIdentifier (id : GoString)
  | script (id : GoString) (cause : ScriptFault)
  | dependsOnItself (id : GoString)
  | unknownDependency (id dependency : GoString)
  | repeatedDependency (id dependency : GoString)
  | cycle (stages : List GoString)
  | exhausted
  deriving DecidableEq

/-- SRC: task/manifest.go:14 -/
def isIdentifierByte (b : UInt8) : Bool :=
  (GoString.byte 'a' ≤ b && b ≤ GoString.byte 'z') ||
    (GoString.byte '0' ≤ b && b ≤ GoString.byte '9')

/-- The pattern `^[a-z0-9]+(?:-[a-z0-9]+)*$`: parts between hyphens, none of them empty.
SRC: task/manifest.go:14, catalog.go:11-13 -/
def isIdentifier (id : GoString) : Bool :=
  (id.split '-').all fun part => !part.isEmpty && part.all isIdentifierByte

/-- SRC: task/manifest.go:261-358 -/
def validateScriptPath (files : FileSystem) (repositoryRoot : GoString) (current : Task) :
    Except ScriptFault Unit := do
  if current.scriptPath = [] then throw .empty
  if current.scriptPath.isAbs then throw .absolute
  let cleanPath := current.scriptPath.clean
  if cleanPath = GoString.ascii "." ∨ cleanPath ≠ current.scriptPath then
    throw (.notCanonical current.scriptPath)
  let absoluteScript := GoString.joinPath repositoryRoot cleanPath
  if GoString.escapes repositoryRoot absoluteScript then throw .escapes
  let info ← (files.stat absoluteScript).mapError .unavailable
  if !info.isRegular then throw .notRegular
  if info.perm &&& 0o111 = 0 then throw .notExecutable
  let resolvedRoot ← (files.evalSymlinks repositoryRoot).mapError .rootLinks
  let resolvedScript ← (files.evalSymlinks absoluteScript).mapError .scriptLinks
  if GoString.escapes resolvedRoot resolvedScript then throw .resolvesOutside

/-- The first loop, behind the stages whose identifiers were `seen`.
SRC: task/manifest.go:159-186 -/
def validateTasks (files : FileSystem) (absoluteRoot : GoString) :
    List GoString → List Task → Except ManifestFault Unit
  | _, [] => return
  | seen, current :: rest => do
    if !isIdentifier current.id then throw (.invalidIdentifier current.id)
    if current.label.trimSpace = [] then throw (.emptyLabel current.id)
    if current.id ∈ seen then throw (.duplicatedIdentifier current.id)
    (validateScriptPath files absoluteRoot current).mapError (.script current.id)
    validateTasks files absoluteRoot (seen ++ [current.id]) rest

/-- The dependencies of one stage, behind those `seen`.
SRC: task/manifest.go:188-220 -/
def validateDependencies (tasks : List Task) (current : Task) :
    List GoString → List GoString → Except ManifestFault Unit
  | _, [] => return
  | seen, dependency :: rest => do
    if dependency = current.id then throw (.dependsOnItself current.id)
    if (tasksByID tasks dependency).isNone then
      throw (.unknownDependency current.id dependency)
    if dependency ∈ seen then throw (.repeatedDependency current.id dependency)
    validateDependencies tasks current (seen ++ [dependency]) rest

/-- What `validateAcyclic` visits behind a stage; an unknown one has no dependencies.
SRC: task/manifest.go:402 -/
def acyclicNeeds (tasks : List Task) (id : GoString) : Except Empty (List GoString) :=
  .ok <| match tasksByID tasks id with
    | some current => current.dependencies
    | none => []

/-- SRC: task/manifest.go:360-421 -/
def validateAcyclic (tasks : List Task) : Except ManifestFault Unit :=
  match DepthFirst.visitAll (acyclicNeeds tasks) (tasks.length + 1) (tasks.map (·.id)) .fresh with
  | .ok _ => .ok ()
  | .error (.cycle stack id) => .error (.cycle (stack.dropWhile (· ≠ id) ++ [id]))
  | .error (.refused _ cause) => cause.elim
  | .error .exhausted => .error .exhausted

/-- SRC: task/manifest.go:144-227 -/
def Manifest.validate (files : FileSystem) (repositoryRoot : GoString) (manifest : Manifest) :
    Except ManifestFault Unit := do
  if manifest.version ≠ 1 then throw (.unsupportedVersion manifest.version)
  let absoluteRoot ← (files.abs repositoryRoot).mapError .resolveRoot
  validateTasks files absoluteRoot [] manifest.tasks
  for current in manifest.tasks do
    validateDependencies manifest.tasks current [] current.dependencies
  validateAcyclic manifest.tasks

/-! ## Planning -/

inductive SelectionKind
  | only
  | skip
  deriving DecidableEq

/-- Why a stage does not enter a plan.
SRC: plan.go:80-90 -/
inductive StageFault
  | requiredButSkipped (id : GoString)
  | unknown (id : GoString)
  deriving DecidableEq

/-- Why there is no plan.  The text of a fault of the search names the stages on its stack,
outermost first.  Which stage `inBothSelections` names is left to the order of a Go map.
SRC: plan.go:8-166 -/
inductive PlanFault
  | emptyIdentifier (kind : SelectionKind)
  | unknownStage (kind : SelectionKind) (id : GoString)
  | repeatedStage (kind : SelectionKind) (id : GoString)
  | inBothSelections
  | search (fault : DepthFirst.Fault GoString StageFault)
  | emptyPlan
  deriving DecidableEq

/-- The identifiers of a selection, behind those in `result`.
SRC: plan.go:129-166 -/
def validateSelectionIDs (tasks : List Task) (kind : SelectionKind) :
    List GoString → List GoString → Except PlanFault (List GoString)
  | result, [] => return result
  | result, raw :: rest => do
    let id := raw.trimSpace
    if id = [] then throw (.emptyIdentifier kind)
    if (tasksByID tasks id).isNone then throw (.unknownStage kind id)
    if id ∈ result then throw (.repeatedStage kind id)
    validateSelectionIDs tasks kind (result ++ [id]) rest

/-- What `visit` does with a stage that is not visited yet.
SRC: plan.go:80-103 -/
def planNeeds (tasks : List Task) (skipped : List GoString) (id : GoString) :
    Except StageFault (List GoString) :=
  if id ∈ skipped then .error (.requiredButSkipped id)
  else
    match tasksByID tasks id with
    | none => .error (.unknown id)
    | some current => .ok current.dependencies

/-- The stages a selection names, before dependencies are added.
SRC: plan.go:26-58 -/
def Manifest.selected (manifest : Manifest) (selection : Selection) (skipped : List GoString) :
    Except PlanFault (List GoString) := do
  let chosen ←
    if selection.only = [] then
      pure ((manifest.tasks.filter (·.enabledByDefault)).map (·.id))
    else
      validateSelectionIDs manifest.tasks .only [] selection.only
  if selection.only ≠ [] ∧ skipped.any (· ∈ chosen) then throw .inBothSelections
  return chosen.filter (· ∉ skipped)

/-- The keys of a map of selected stages, with one more. -/
def insertKey (selected : List GoString) (id : GoString) : List GoString :=
  if id ∈ selected then selected else selected ++ [id]

/-- The loop over the skipped identifiers, in the order in which Go ranges over their map.
SRC: plan.go:49-58 -/
def deleteSkipped (selection : Selection) :
    List GoString → List GoString → Except PlanFault (List GoString)
  | [], selected => return selected
  | id :: rest, selected => do
    if id ∈ selected ∧ selection.only ≠ [] then throw .inBothSelections
    deleteSkipped selection rest (selected.filter (· ≠ id))

/-- The orders in which Go ranges over the two maps of selected and skipped identifiers. -/
structure MapOrders where
  only : List GoString → List GoString
  skipped : List GoString → List GoString
  only_perm : ∀ ids, (only ids).Perm ids
  skipped_perm : ∀ ids, (skipped ids).Perm ids

/-- The stages a selection names, with the loops over maps in some order.
SRC: plan.go:26-58 -/
def Manifest.selectedInOrder (manifest : Manifest) (selection : Selection) (orders : MapOrders)
    (skipped : List GoString) : Except PlanFault (List GoString) := do
  let chosen ←
    if selection.only = [] then
      pure (((manifest.tasks.filter (·.enabledByDefault)).map (·.id)).foldl insertKey [])
    else do
      let only ← validateSelectionIDs manifest.tasks .only [] selection.only
      pure ((orders.only only).foldl insertKey [])
  deleteSkipped selection (orders.skipped skipped) chosen

/-- The plan of a selection, with the loops over maps in some order.
SRC: plan.go:8-127 -/
def Manifest.buildPlanInOrder (manifest : Manifest) (selection : Selection)
    (orders : MapOrders) : Except PlanFault (List Task) := do
  let skipped ← validateSelectionIDs manifest.tasks .skip [] selection.skip
  let selected ← manifest.selectedInOrder selection orders skipped
  let roots := (manifest.tasks.map (·.id)).filter (· ∈ selected)
  let search ← (DepthFirst.visitAll (planNeeds manifest.tasks skipped) (manifest.tasks.length + 1)
    roots .fresh).mapError .search
  let ordered := search.order.filterMap (tasksByID manifest.tasks)
  if ordered = [] then throw .emptyPlan
  return ordered

/-- The plan of a selection.  The search lists identifiers; the stage that Go appends for one is
`tasksByID[id]`.
SRC: plan.go:8-127 -/
def Manifest.buildPlan (manifest : Manifest) (selection : Selection) :
    Except PlanFault (List Task) := do
  let skipped ← validateSelectionIDs manifest.tasks .skip [] selection.skip
  let selected ← manifest.selected selection skipped
  let roots := (manifest.tasks.map (·.id)).filter (· ∈ selected)
  let search ← (DepthFirst.visitAll (planNeeds manifest.tasks skipped) (manifest.tasks.length + 1)
    roots .fresh).mapError .search
  let ordered := search.order.filterMap (tasksByID manifest.tasks)
  if ordered = [] then throw .emptyPlan
  return ordered

end Stage

end Tickline.Model
