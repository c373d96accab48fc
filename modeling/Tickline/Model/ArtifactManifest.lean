import Mathlib.Data.List.Sort
import Tickline.Library.JsonWriter
import Tickline.Library.Unicode
import Tickline.Model.GoText
import Tickline.Model.Sha256

/-!
# Artifact manifests

The package `artifactmanifest` of the developer tool.  `build` records the size and the digest of
files below the root of a repository, `marshal` writes the manifest as JSON, `parse` reads it and
`verify` compares it with the files that are there.

The package `encoding/json` is as its documentation describes it: bytes of a string that are not
UTF-8 are written as U+FFFD, HTML characters are escaped, and names are matched without regard to
case.  A number is written in decimal, and an `int64` or `int` holds what fits in 64 bits.
`crypto/sha256` computes the same digest as `sha256`.  Of the texts of the errors that `os` and
`encoding/json` return nothing is kept.

The files are a tree without symbolic links, in which every file can be read.
-/

set_option autoImplicit false

namespace Tickline.Model.Artifacts

open Tickline.Library Tickline.Library.Json
open Tickline.Library.Json.Written.Member (line)

/-! ## Manifests -/

/-- SRC: manifest.go:18 -/
def schemaVersion : ℤ := 1

/-- SRC: manifest.go:20 -/
abbrev Kind := GoString

/-- SRC: manifest.go:23 -/
def kindResult : Kind := .ascii "result"

/-- SRC: manifest.go:24 -/
def kindStdoutLog : Kind := .ascii "stdout-log"

/-- SRC: manifest.go:25 -/
def kindStderrLog : Kind := .ascii "stderr-log"

/-- SRC: manifest.go:26 -/
def kindCombinedLog : Kind := .ascii "combined-log"

/-- SRC: manifest.go:29-33 -/
structure Target where
  path : GoString
  kind : Kind
  stageID : GoString := []
  deriving DecidableEq

/-- SRC: manifest.go:35-41 -/
structure Artifact where
  path : GoString := []
  kind : Kind := []
  stageID : GoString := []
  sizeBytes : ℤ := 0
  sha256 : GoString := []
  deriving DecidableEq

/-- SRC: manifest.go:43-47 -/
structure Manifest where
  schemaVersion : ℤ := 0
  runID : GoString := []
  artifacts : List Artifact := []
  deriving DecidableEq

/-- What an artifact was built from.
SRC: manifest.go:248-252 -/
def Artifact.target (artifact : Artifact) : Target :=
  ⟨artifact.path, artifact.kind, artifact.stageID⟩

/-! ## Validation -/

/-- SRC: manifest.go:285-334 -/
inductive TargetFault
  | invalidPath (path : GoString)
  | resultWithStage
  | stageMissing (path : GoString)
  | unsupportedKind (path : GoString) (kind : Kind)
  deriving DecidableEq

/-- SRC: manifest.go:226-283 -/
inductive ManifestFault
  | unsupportedVersion (version : ℤ)
  | emptyRunID
  | noArtifacts
  | target (fault : TargetFault)
  | notOrdered
  | negativeSize (path : GoString)
  | invalidDigest (path : GoString)
  deriving DecidableEq

/-- SRC: manifest.go:319-334 -/
def isRelativePath (value : GoString) : Bool :=
  !(value == [] || value == .ascii "." || value == .ascii ".." || value.isAbs ||
    value.clean != value || value.hasPrefix "../" || value.contains (GoString.byte '\\'))

/-- SRC: manifest.go:285-317 -/
def validateTarget (target : Target) : Except TargetFault Unit :=
  if !isRelativePath target.path then .error (.invalidPath target.path)
  else if target.kind = kindResult then
    if target.stageID ≠ [] then .error .resultWithStage else .ok ()
  else if target.kind = kindStdoutLog ∨ target.kind = kindStderrLog ∨
      target.kind = kindCombinedLog then
    if target.stageID.trimSpace = [] then .error (.stageMissing target.path) else .ok ()
  else .error (.unsupportedKind target.path target.kind)

/-- A hexadecimal digit, of which `strings.ToLower` keeps the lowercase ones. -/
def isLowerHexDigit (byte : UInt8) : Bool := (48 ≤ byte && byte ≤ 57) || (97 ≤ byte && byte ≤ 102)

/-- SRC: manifest.go:336-346 -/
def isValidDigest (value : GoString) : Bool := value.length = 64 && value.all isLowerHexDigit

/-- The loop over the artifacts, with the path of the one before.
SRC: manifest.go:245-280 -/
def validateArtifacts : Option GoString → List Artifact → Except ManifestFault Unit
  | _, [] => .ok ()
  | previousPath, artifact :: rest => do
    (validateTarget artifact.target).mapError .target
    if previousPath.any fun previous => artifact.path.key ≤ previous.key then throw .notOrdered
    if artifact.sizeBytes < 0 then throw (.negativeSize artifact.path)
    if !isValidDigest artifact.sha256 then throw (.invalidDigest artifact.path)
    validateArtifacts (some artifact.path) rest

/-- SRC: manifest.go:226-283 -/
def validateManifest (manifest : Manifest) : Except ManifestFault Unit := do
  if manifest.schemaVersion ≠ schemaVersion then
    throw (.unsupportedVersion manifest.schemaVersion)
  if manifest.runID.trimSpace = [] then throw .emptyRunID
  if manifest.artifacts = [] then throw .noArtifacts
  validateArtifacts none manifest.artifacts

/-! ## Files -/

structure File where
  content : List UInt8
  small : content.length < 2 ^ 63

inductive Node
  | file (file : File)
  | directory
  | other

/-- The files there are, by the names on the way from the root of the file system, and the
directory that relative paths start from. -/
structure FileTree where
  workingDirectory : GoString
  node : List GoString → Option Node
  absolute : workingDirectory.isAbs = true
  parents : ∀ names name, (node (names ++ [name])).isSome → node names = some .directory

/-- SRC: manifest.go:348-450 -/
inductive FileFault
  | invalidPath (path : GoString)
  | rootLinks
  | unavailable
  | compare
  | escapes (path : GoString)
  | notRegular
  deriving DecidableEq

namespace FileTree

/-- `filepath.Abs`. -/
def abs (tree : FileTree) (path : GoString) : GoString :=
  if path.isAbs then path.clean else GoString.joinPath tree.workingDirectory path

/-- `filepath.EvalSymlinks` of an absolute path, where there are no symbolic links. -/
def evalSymlinks (tree : FileTree) (path : GoString) : Option GoString :=
  if (tree.node path.elements).isSome then some path.clean else none

/-- SRC: manifest.go:389-450 -/
def resolveExistingPath (tree : FileTree) (repositoryRoot relativePath : GoString) :
    Except FileFault GoString := do
  if !isRelativePath relativePath then throw (.invalidPath relativePath)
  let absoluteRoot := tree.abs repositoryRoot
  let some resolvedRoot := tree.evalSymlinks absoluteRoot | throw .rootLinks
  let candidate := GoString.joinPath absoluteRoot relativePath
  let some resolvedCandidate := tree.evalSymlinks candidate | throw .unavailable
  let some relative := GoString.rel resolvedRoot resolvedCandidate | throw .compare
  if relative = .ascii ".." ∨ relative.hasPrefix "../" then throw (.escapes relativePath)
  return resolvedCandidate

end FileTree

/-- `hex.EncodeToString` of the digest of bytes. -/
def hexDigest (content : List UInt8) : GoString :=
  (Model.sha256 content).toHex.map fun c => UInt8.ofNat c.toNat

/-- What is opened, and read if it is a regular file.
SRC: manifest.go:361-386 -/
def hashNode : Option Node → Except FileFault (ℤ × GoString)
  | some (.file file) => .ok (file.content.length, hexDigest file.content)
  | some .directory | some .other => .error .notRegular
  | none => .error .unavailable

/-- SRC: manifest.go:348-387 -/
def hashFile (tree : FileTree) (repositoryRoot relativePath : GoString) :
    Except FileFault (ℤ × GoString) := do
  let absolutePath ← tree.resolveExistingPath repositoryRoot relativePath
  hashNode (tree.node absolutePath.elements)

/-! ## Building -/

/-- SRC: manifest.go:49-126 -/
inductive BuildFault
  | emptyRunID
  | noTargets
  | target (fault : TargetFault)
  | duplicated (path : GoString)
  | hash (path : GoString) (fault : FileFault)
  deriving DecidableEq

/-- The loop over the ordered targets, with the path of the one before.
SRC: manifest.go:82-119 -/
def buildArtifacts (tree : FileTree) (repositoryRoot : GoString) :
    Option GoString → List Target → Except BuildFault (List Artifact)
  | _, [] => .ok []
  | previousPath, target :: rest => do
    (validateTarget target).mapError .target
    if previousPath = some target.path then throw (.duplicated target.path)
    let (size, digest) ← (hashFile tree repositoryRoot target.path).mapError (.hash target.path)
    let artifacts ← buildArtifacts tree repositoryRoot (some target.path) rest
    return {
      path := target.path
      kind := target.kind
      stageID := target.stageID
      sizeBytes := size
      sha256 := digest } :: artifacts

/-- The targets as `sort.Slice` orders them; which of two with one path comes first is not
specified, and both are refused.
SRC: manifest.go:66-73 -/
def orderedTargets (targets : List Target) : List Target :=
  targets.insertionSort fun left right => left.path.key ≤ right.path.key

/-- SRC: manifest.go:49-126 -/
def build (tree : FileTree) (repositoryRoot runID : GoString) (targets : List Target) :
    Except BuildFault Manifest := do
  if runID.trimSpace = [] then throw .emptyRunID
  if targets = [] then throw .noTargets
  let artifacts ← buildArtifacts tree repositoryRoot none (orderedTargets targets)
  return { schemaVersion, runID, artifacts }

/-! ## Writing -/

/-- A rune in a JSON string. -/
def escapedRune : Option Char → List Char
  | none => ['\\', 'u', 'f', 'f', 'f', 'd']
  | some c =>
    if c = '"' ∨ c = '\\' then ['\\', c]
    else if c = Char.ofNat 8 then ['\\', 'b']
    else if c = Char.ofNat 12 then ['\\', 'f']
    else if c = '\n' then ['\\', 'n']
    else if c = '\r' then ['\\', 'r']
    else if c = '\t' then ['\\', 't']
    else if c.toNat < 0x20 ∨ c = '<' ∨ c = '>' ∨ c = '&' then
      ['\\', 'u', '0', '0', Nat.digitChar (c.toNat / 16), Nat.digitChar (c.toNat % 16)]
    else if c.toNat = 0x2028 ∨ c.toNat = 0x2029 then
      ['\\', 'u', '2', '0', '2', Nat.digitChar (c.toNat % 16)]
    else [c]

/-- A string in JSON. -/
def stringText (text : GoString) : List Char :=
  '"' :: (Unicode.runes text).flatMap escapedRune ++ ['"']

/-- SRC: manifest.go:35-41 -/
def Artifact.lines (artifact : Artifact) : List (List Char) :=
  [line "path" (stringText artifact.path), line "kind" (stringText artifact.kind)] ++
    (if artifact.stageID = [] then [] else [line "stage_id" (stringText artifact.stageID)]) ++
    [line "size_bytes" (intDigits artifact.sizeBytes), line "sha256" (stringText artifact.sha256)]

/-- `json.MarshalIndent` of a manifest with an artifact, with two spaces for each level.
SRC: manifest.go:43-47, 133-137 -/
def Manifest.text (manifest : Manifest) : List Char :=
  block 0 '{' '}' [line "schema_version" (intDigits manifest.schemaVersion),
    line "run_id" (stringText manifest.runID),
    line "artifacts" (block 2 '[' ']' (manifest.artifacts.map fun artifact =>
      block 4 '{' '}' artifact.lines))]

/-- SRC: manifest.go:128-146 -/
def marshal (manifest : Manifest) : Except ManifestFault GoString := do
  validateManifest manifest
  return Unicode.encode (manifest.text ++ ['\n'])

/-! ## Reading -/

/-- A code unit of a name without regard to case.  Two runes that are not ASCII fold to letters
that are. -/
def foldUnit (unit : UInt16) : UInt16 :=
  if 97 ≤ unit ∧ unit ≤ 122 then unit - 32
  else if unit = 0x17f then 83
  else if unit = 0x212a then 75
  else unit

/-- A field of a struct: its name, and how a value is decoded into it. -/
structure StructField (α : Type) where
  name : String
  read : α → Json → Option α

/-- Decode a member into its field, which must be known. -/
def decodeMember {α : Type} (fields : List (StructField α)) (value : α)
    (member : List UInt16 × Json) : Option α := do
  let field ← fields.find? fun field =>
    (units field.name.toList).map foldUnit = member.1.map foldUnit
  field.read value member.2

/-- Decode an object into a struct; `null` changes nothing. -/
def decodeStruct {α : Type} (fields : List (StructField α)) (value : α) : Json → Option α
  | .null => some value
  | .object members => members.foldlM (decodeMember fields) value
  | _ => none

/-- Decode into a string. -/
def decodeString (value : GoString) : Json → Option GoString
  | .null => some value
  | .string text => some (Unicode.encode (Unicode.chars text))
  | _ => none

/-- Decode into an integer of 64 bits. -/
def decodeInt (value : ℤ) : Json → Option ℤ
  | .null => some value
  | .number literal => do
    let number ← integer? literal
    if -2 ^ 63 ≤ number ∧ number < 2 ^ 63 then some number else none
  | _ => none

/-- A field that is a string. -/
def stringField {α : Type} (name : String) (get : α → GoString) (set : α → GoString → α) :
    StructField α :=
  ⟨name, fun value json => (decodeString (get value) json).map (set value)⟩

/-- A field that is an integer. -/
def intField {α : Type} (name : String) (get : α → ℤ) (set : α → ℤ → α) : StructField α :=
  ⟨name, fun value json => (decodeInt (get value) json).map (set value)⟩

/-- SRC: manifest.go:35-41 -/
def Artifact.fields : List (StructField Artifact) := [
  stringField "path" (·.path) fun artifact path => { artifact with path },
  stringField "kind" (·.kind) fun artifact kind => { artifact with kind },
  stringField "stage_id" (·.stageID) fun artifact stageID => { artifact with stageID },
  intField "size_bytes" (·.sizeBytes) fun artifact sizeBytes => { artifact with sizeBytes },
  stringField "sha256" (·.sha256) fun artifact sha256 => { artifact with sha256 }]

/-- Decode into the artifacts, each from an empty one. -/
def decodeArtifacts : Json → Option (List Artifact)
  | .null => some []
  | .array items => items.mapM (decodeStruct Artifact.fields {})
  | _ => none

/-- SRC: manifest.go:43-47 -/
def Manifest.fields : List (StructField Manifest) := [
  intField "schema_version" (·.schemaVersion)
    fun manifest schemaVersion => { manifest with schemaVersion },
  stringField "run_id" (·.runID) fun manifest runID => { manifest with runID },
  ⟨"artifacts", fun manifest json =>
    (decodeArtifacts json).map fun artifacts => { manifest with artifacts }⟩]

/-- SRC: manifest.go:148-183 -/
inductive ParseFault
  | decode
  | invalid (fault : ManifestFault)
  deriving DecidableEq

/-- One value that decodes into a manifest, and nothing behind it.
SRC: manifest.go:149-176 -/
def decodeManifest (data : GoString) : Option Manifest :=
  (Json.decode (fun _ => true) (Unicode.decode data)).bind (decodeStruct Manifest.fields {})

/-- SRC: manifest.go:148-183 -/
def parse (data : GoString) : Except ParseFault Manifest := do
  let some manifest := decodeManifest data | throw .decode
  (validateManifest manifest).mapError .invalid
  return manifest

/-! ## Verifying -/

/-- SRC: manifest.go:185-224 -/
inductive VerifyFault
  | invalid (fault : ManifestFault)
  | file (path : GoString) (fault : FileFault)
  | size (path : GoString) (expected got : ℤ)
  | digest (path : GoString)
  deriving DecidableEq

/-- SRC: manifest.go:193-221 -/
def verifyArtifact (tree : FileTree) (repositoryRoot : GoString) (artifact : Artifact) :
    Except VerifyFault Unit := do
  let (size, digest) ←
    (hashFile tree repositoryRoot artifact.path).mapError (.file artifact.path)
  if size ≠ artifact.sizeBytes then throw (.size artifact.path artifact.sizeBytes size)
  if digest ≠ artifact.sha256 then throw (.digest artifact.path)

/-- SRC: manifest.go:185-224 -/
def verify (tree : FileTree) (repositoryRoot : GoString) (manifest : Manifest) :
    Except VerifyFault Unit := do
  (validateManifest manifest).mapError .invalid
  for artifact in manifest.artifacts do
    verifyArtifact tree repositoryRoot artifact

end Tickline.Model.Artifacts
