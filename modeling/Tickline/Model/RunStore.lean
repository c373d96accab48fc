import Mathlib.Data.List.Infix
import Tickline.Model.JsonReport
import Tickline.Model.RunLog

/-!
# The directory of a run

The rest of the package `runlog`: the directory that a run gets for itself, the artifacts that are
written into it beside the logs, and the end of the store.

The files are a tree without symbolic links.  Nothing but the store writes below the directory of
its run, so the tree is the one behind the making of that directory, with what the store has written
in it.  Of the texts of the errors that `os` returns nothing is kept where the caller wraps them.
A file of a stage whose other files could not be created is empty, and nothing reads it.
-/

set_option autoImplicit false

namespace Tickline.Model

/-- `filepath.Base`. -/
def GoString.base (path : GoString) : GoString :=
  if path = [] then GoString.ascii "."
  else
    let last := (GoString.split (path.rdropWhile (· = GoString.byte '/')) '/').getLastD []
    if last = [] then GoString.ascii "/" else last

/-- `strings.TrimSuffix`, where there is the suffix. -/
def GoString.stripSuffix? (text suffix : GoString) : Option GoString :=
  if suffix <:+ text then some (text.take (text.length - suffix.length)) else none

/-! ## Directories -/

namespace Artifacts

/-- A directory may be made here, or is there. -/
def isDirectoryOrNone : Option Node → Bool
  | none => true
  | some .directory => true
  | _ => false

namespace FileTree

/-- `os.MkdirAll`: what is not there on the way is made, and nothing else stands in the way. -/
def mkdirAll (tree : FileTree) (names : List GoString) :
    Option { after : FileTree // after.node names = some .directory } :=
  if h : ∀ front ∈ names.inits, isDirectoryOrNone (tree.node front) = true then
    some ⟨{
      workingDirectory := tree.workingDirectory
      node := fun other =>
        if other <+: names ∧ (tree.node other).isNone then some .directory else tree.node other
      absolute := tree.absolute
      parents := by
        intro before name hsome
        split_ifs at hsome with hmade
        · have hbefore : before <+: names := (List.prefix_append _ _).trans hmade.1
          have hfree := h before ((List.mem_inits _ _).mpr hbefore)
          cases hnode : tree.node before with
          | none => simp [hbefore]
          | some node => cases node <;> simp_all [isDirectoryOrNone]
        · simp [tree.parents before name hsome] }, by
        have hfree := h names ((List.mem_inits _ _).mpr (List.prefix_refl _))
        cases hnode : tree.node names with
        | none => simp [hnode]
        | some node => cases node <;> simp_all [isDirectoryOrNone]⟩
  else none

/-- `os.Mkdir`: the directory is not there, and what it is in is. -/
def mkdir (tree : FileTree) (names : List GoString) :
    Option { after : FileTree // after.node names = some .directory } :=
  match tree.node names, tree.node names.dropLast with
  | none, some .directory => tree.mkdirAll names
  | _, _ => none

/-- A file with this content; none is as long as its size can say. -/
def fileNode (content : List UInt8) : Node :=
  if h : content.length < 2 ^ 63 then .file ⟨content, h⟩ else .other

/-- What is in a directory that has these files, and nothing else. -/
def nodeIn (contents : GoString → Option (List UInt8)) : List GoString → Option Node
  | [] => some .directory
  | [name] => (contents name).map fileNode
  | _ => none

/-- The tree with these files in a directory, and nothing else in it. -/
def withFiles (tree : FileTree) (directory : List GoString)
    (contents : GoString → Option (List UInt8)) (h : tree.node directory = some .directory) :
    FileTree where
  workingDirectory := tree.workingDirectory
  node names :=
    if directory <+: names then nodeIn contents (names.drop directory.length)
    else tree.node names
  absolute := tree.absolute
  parents := by
    intro names name hsome
    by_cases hbelow : directory <+: names
    · obtain ⟨rest, rfl⟩ := hbelow
      rw [if_pos ((List.prefix_append _ _).trans (List.prefix_append _ _)), List.append_assoc,
        List.drop_left] at hsome
      rw [if_pos (List.prefix_append _ _), List.drop_left]
      cases rest with
      | nil => rfl
      | cons first rest => cases rest <;> cases hsome
    · rw [if_neg hbelow]
      by_cases hself : directory <+: names ++ [name]
      · obtain rfl : directory = names ++ [name] :=
          (List.prefix_concat_iff.mp hself).resolve_right hbelow
        exact tree.parents names name (by rw [h]; rfl)
      · rw [if_neg hself] at hsome
        exact tree.parents names name hsome

end FileTree

end Artifacts

namespace RunLog

open Tickline.Model.Artifacts (FileTree Node)
open Tickline.Model.Report (UTCTime padded)
open Tickline.Model.Stage (quoted)

/-! ## Making a directory -/

/-- What the system answers where a run gets its directory: the random bytes that are read, and
whether directories can be made. -/
structure CreateAnswers where
  entropy : Except GoString (List UInt8)
  mkdirAll : Bool := true
  mkdir : Bool := true

/-- SRC: runlog/store.go:46-126, 128-153 -/
inductive CreateFault
  | inspectRoot
  | notDirectory (root : GoString)
  | entropy (cause : GoString)
  | parentDirectory
  | runDirectory
  deriving DecidableEq

/-- A run's store: its identifier, its directory, and beside the logs what `WriteArtifact` has
written.
SRC: runlog/store.go:26-33 -/
structure RunStore extends Store where
  runID : GoString
  relativeDirectory : GoString
  absoluteDirectory : GoString
  artifacts : GoString → Option (List UInt8) := fun _ => none
  tree : FileTree
  mounted : tree.node absoluteDirectory.elements = some .directory

/-- A byte in hexadecimal. -/
def hexByte (byte : UInt8) : GoString :=
  [GoString.byte (Nat.digitChar (byte.toNat / 16)), GoString.byte (Nat.digitChar (byte.toNat % 16))]

/-- SRC: runlog/store.go:128-153 -/
def newRunID (now : UTCTime) (entropy : Except GoString (List UInt8)) :
    Except CreateFault GoString := do
  let entropy ← entropy.mapError .entropy
  return padded 4 now.year ++ padded 2 now.month ++ padded 2 now.day ++ GoString.ascii "T" ++
    padded 2 now.hour ++ padded 2 now.minute ++ padded 2 now.second ++ GoString.ascii "." ++
    padded 9 now.nanosecond ++ GoString.ascii "Z-" ++ entropy.flatMap hexByte

/-- SRC: runlog/store.go:59-79 -/
def inspectRoot (tree : FileTree) (root : GoString) : Except CreateFault Unit :=
  match tree.node root.elements with
  | some .directory => .ok ()
  | some _ => .error (.notDirectory root)
  | none => .error .inspectRoot

/-- SRC: runlog/store.go:46-126 -/
def create (tree : FileTree) (answers : CreateAnswers) (repositoryRoot : GoString) (now : UTCTime) :
    Except CreateFault RunStore := do
  let root := tree.abs repositoryRoot
  inspectRoot tree root
  let runID ← newRunID now answers.entropy
  let relativeDirectory := GoString.joinPath (GoString.ascii "reports/check-local") runID
  let parentDirectory := GoString.joinPath root (GoString.ascii "reports/check-local")
  let some ⟨tree, _⟩ := if answers.mkdirAll then tree.mkdirAll parentDirectory.elements else none
    | throw .parentDirectory
  let absoluteDirectory := GoString.joinPath parentDirectory runID
  let some ⟨tree, mounted⟩ := if answers.mkdir then tree.mkdir absoluteDirectory.elements else none
    | throw .runDirectory
  return { runID, relativeDirectory, absoluteDirectory, tree, mounted }

/-! ## Files -/

/-- What the logs of the stages hold. -/
def logContent (stages : GoString → Option StageFiles) (name : GoString) : Option (List UInt8) :=
  let log (suffix : String) (content : StageFiles → List UInt8) :=
    ((name.stripSuffix? (GoString.ascii suffix)).bind stages).map content
  log ".stdout.log" (·.stdout) <|> log ".stderr.log" (·.stderr) <|> log ".combined.log" (·.combined)

namespace RunStore

/-- What the files in the directory of the run hold. -/
def contents (store : RunStore) (name : GoString) : Option (List UInt8) :=
  store.artifacts name <|> logContent store.stages name

/-- The tree with the files of the run. -/
def files (store : RunStore) : FileTree :=
  store.tree.withFiles store.absoluteDirectory.elements store.contents store.mounted

/-- SRC: runlog/store.go:172-179, paths.go:5-21 -/
def artifactPath (store : RunStore) (name : GoString) : GoString :=
  GoString.joinPath store.relativeDirectory name

/-- SRC: runlog/paths.go:5-12 -/
def stageStdoutPath (store : RunStore) (stageID : GoString) : GoString :=
  GoString.joinPath store.relativeDirectory (stageID ++ GoString.ascii ".stdout.log")

/-- SRC: runlog/paths.go:14-21 -/
def stageStderrPath (store : RunStore) (stageID : GoString) : GoString :=
  GoString.joinPath store.relativeDirectory (stageID ++ GoString.ascii ".stderr.log")

/-- SRC: runlog/store.go:163-170 -/
def stageCombinedPath (store : RunStore) (stageID : GoString) : GoString :=
  GoString.joinPath store.relativeDirectory (stageID ++ GoString.ascii ".combined.log")

end RunStore

/-! ## Artifacts -/

/-- What the system answers where artifacts are written and the store is closed, and the order in
which Go ranges over the stages of the store. -/
structure ArtifactAnswers extends LogFiles where
  syncErr : GoString → Option GoString := fun _ => none
  closeErr : GoString → Option GoString := fun _ => none
  removes : GoString → Bool := fun _ => true
  closing : List GoString → List GoString := id
  closing_perm : ∀ ids, (closing ids).Perm ids := by exact fun ids => List.Perm.refl ids

/-- SRC: runlog/store.go:414-430 -/
def isArtifactName (name : GoString) : Bool :=
  !(name == [] || name == GoString.ascii "." || name == GoString.ascii ".." ||
    name.base != name || name.contains (GoString.byte '/') || name.contains (GoString.byte '\\'))

/-- SRC: runlog/store.go:262-273 -/
def RunStore.createArtifact (answers : ArtifactAnswers) (store : RunStore) (name : GoString) :
    Except GoString Unit :=
  let refused (cause : GoString) :=
    GoString.ascii "create run artifact " ++ quoted name ++ GoString.ascii ": " ++ cause
  match answers.createErr name with
  | some cause => .error (refused cause)
  | none =>
    if (store.contents name).isSome then
      .error (refused (GoString.ascii "open " ++ GoString.joinPath store.absoluteDirectory name ++
        GoString.ascii ": file exists"))
    else .ok ()

/-- The error behind writing an artifact: of the write, else of `Sync`, else of `Close`.
SRC: runlog/store.go:283-309 -/
def artifactErr (answers : ArtifactAnswers) (name : GoString) (writeErr : Option GoString) :
    Option GoString :=
  let failed (what : String) (cause : GoString) :=
    GoString.ascii what ++ GoString.ascii " run artifact " ++ quoted name ++ GoString.ascii ": " ++
      cause
  writeErr.map (failed "write") <|> (answers.syncErr name).map (failed "synchronize") <|>
    (answers.closeErr name).map (failed "close")

/-- The store with an artifact of a name, or without it. -/
def RunStore.withArtifact (store : RunStore) (name : GoString) (content : Option (List UInt8)) :
    RunStore :=
  { store with artifacts := Function.update store.artifacts name content }

/-- An artifact that is not complete is removed, where it can be.
SRC: runlog/store.go:239-314 -/
def RunStore.writeArtifact (answers : ArtifactAnswers) (store : RunStore) (name : GoString)
    (data : List UInt8) : RunStore × Except GoString GoString :=
  if store.closed then (store, .error (GoString.ascii "run log store is closed"))
  else if !isArtifactName name then
    (store, .error (GoString.ascii "invalid run artifact name " ++ quoted name))
  else
    match store.createArtifact answers name with
    | .error err => (store, .error err)
    | .ok () =>
      let (content, writeErr) := writeAll answers.toLogFiles name data.length [] data
      match artifactErr answers name writeErr with
      | some err =>
        (store.withArtifact name (if answers.removes name then none else some content), .error err)
      | none => (store.withArtifact name (some content), .ok (store.artifactPath name))

/-- SRC: runlog/store.go:452-470 -/
def closeFile (answers : ArtifactAnswers) (stageID : GoString) (kind : String) : Option GoString :=
  (answers.closeErr (stageID ++ GoString.ascii "." ++ GoString.ascii kind ++
    GoString.ascii ".log")).map fun cause =>
      GoString.ascii "close stage " ++ quoted stageID ++ GoString.ascii " " ++ GoString.ascii kind ++
        GoString.ascii " log: " ++ cause

/-- The store is closed, with the errors of closing the files of its stages, which are among those
given.
SRC: runlog/store.go:316-347 -/
def RunStore.close (answers : ArtifactAnswers) (store : RunStore) (stageIDs : List GoString) :
    RunStore × List GoString :=
  if store.closed then (store, [])
  else
    let opened := answers.closing (stageIDs.filter fun id => (store.stages id).isSome)
    ({ store with closed := true }, opened.flatMap fun id =>
      ["stdout", "stderr", "combined"].filterMap (closeFile answers id))

end RunLog

end Tickline.Model
