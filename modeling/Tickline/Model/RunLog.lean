import Tickline.Model.CaptureLoops

/-!
# The log of a run

The store of a run writes the output of every stage to three files: one for each stream, and one
for both.  Creating a file and writing to it may fail, and a write may take fewer bytes than it was
given.  The observer of the runner stops writing at the first error.

Left out are the directory and the identifier of a run, its artifacts and the closing of the files.
-/

set_option autoImplicit false

namespace Tickline.Model.RunLog

open Tickline.Model.Stage (Event Stream)

/-- What is in the files of a stage.
SRC: runlog/store.go:20-24 -/
structure StageFiles where
  stdout : List UInt8 := []
  stderr : List UInt8 := []
  combined : List UInt8 := []
  deriving DecidableEq

/-- SRC: runlog/store.go:26-33 -/
structure Store where
  stages : GoString → Option StageFiles := fun _ => none
  closed : Bool := false

/-- What the operating system answers: why a file cannot be created, and how many bytes a write of
data behind what is in a file takes, with its error. -/
structure LogFiles where
  createErr : GoString → Option GoString
  write : GoString → List UInt8 → List UInt8 → ℕ × Option GoString

/-- What is in a file behind writing to it, with the error.  Every round takes a byte, so the fuel
is the length of the data.
SRC: runlog/store.go:432-450 -/
def writeAll (files : LogFiles) (name : GoString) :
    ℕ → List UInt8 → List UInt8 → List UInt8 × Option GoString
  | _, content, [] => (content, none)
  | 0, content, _ => (content, none)
  | fuel + 1, content, data =>
    let (written, err) := files.write name content data
    let content := content ++ data.take written
    match err with
    | some err => (content, some err)
    | none =>
      if written = 0 then (content, some (GoString.ascii "short write"))
      else writeAll files name fuel content (data.drop written)

/-- SRC: runlog/store.go:390-412 -/
def createFile (files : LogFiles) (name : GoString) : Except GoString Unit :=
  match files.createErr name with
  | some cause =>
    throw (GoString.ascii "create run log " ++ Stage.quoted name ++ GoString.ascii ": " ++ cause)
  | none => return

/-- SRC: runlog/store.go:349-388 -/
def Store.ensureStage (files : LogFiles) (store : Store) (stageID : GoString) :
    Except GoString (Store × StageFiles) :=
  match store.stages stageID with
  | some existing => return (store, existing)
  | none => do
    createFile files (stageID ++ GoString.ascii ".stdout.log")
    createFile files (stageID ++ GoString.ascii ".stderr.log")
    createFile files (stageID ++ GoString.ascii ".combined.log")
    return ({ store with stages := Function.update store.stages stageID (some {}) }, {})

/-- The files of a stage with output of a stream written to them, and the error.
SRC: runlog/store.go:194-233 -/
def StageFiles.write (files : LogFiles) (stage : StageFiles) (stageID : GoString) (stream : Stream)
    (data : List UInt8) : StageFiles × Option GoString :=
  let name := stageID ++ GoString.ascii "." ++ stream.text ++ GoString.ascii ".log"
  let (stage, err) :=
    match stream with
    | .stdout =>
      let (stdout, err) := writeAll files name data.length stage.stdout data
      ({ stage with stdout }, err)
    | .stderr =>
      let (stderr, err) := writeAll files name data.length stage.stderr data
      ({ stage with stderr }, err)
  match err with
  | some err =>
    (stage, some (GoString.ascii "write stage " ++ Stage.quoted stageID ++ GoString.ascii " " ++
      stream.text ++ GoString.ascii " log: " ++ err))
  | none =>
    let name := stageID ++ GoString.ascii ".combined.log"
    let (combined, err) := writeAll files name data.length stage.combined data
    ({ stage with combined }, err.map fun err =>
      GoString.ascii "write stage " ++ Stage.quoted stageID ++ GoString.ascii " combined log: " ++ err)

/-- SRC: runlog/store.go:174-237 -/
def Store.observe (files : LogFiles) (store : Store) (event : Event) : Store × Option GoString :=
  if store.closed then (store, some (GoString.ascii "run log store is closed"))
  else
    match event.kind with
    | .stageStarted =>
      match store.ensureStage files event.stageID with
      | .error err => (store, some err)
      | .ok (store, _) => (store, none)
    | .stageOutput =>
      match store.ensureStage files event.stageID with
      | .error err => (store, some err)
      | .ok (store, stage) =>
        match event.stream with
        | none =>
          (store, some (GoString.ascii "stage " ++ Stage.quoted event.stageID ++
            GoString.ascii " produced unknown stream " ++ Stage.quoted []))
        | some stream =>
          let (stage, err) := stage.write files event.stageID stream event.data
          ({ store with stages := Function.update store.stages event.stageID (some stage) }, err)
    | _ => (store, none)

/-- The store behind an event, until the first error.
SRC: cli/check.go:353-357 -/
def observeEvent (files : LogFiles) (log : Store × Option GoString) (event : Event) :
    Store × Option GoString :=
  match log with
  | (store, none) => store.observe files event
  | failed => failed

end Tickline.Model.RunLog
