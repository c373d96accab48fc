import Tickline.Model.CommandEvidence

/-!
# The authoritative command pipeline

`submit` admits a command into a session, queues it in a world and appends one record
to the pipeline's evidence log.  It is a member of the three objects it changes, held
together in an `Exchange`.
-/

set_option autoImplicit false

namespace Tickline.Model

/-- SRC: authoritative_command_pipeline.hpp:11-36 -/
def commandRejectionFromQueueResult : QueueCommandResult → CommandRejectionCode
  | .accepted => .none
  | .staleTick => .staleTargetTick
  | .unknownEntity => .unknownEntity
  | .sequenceNotIncreasing => .entitySequenceNotIncreasing
  | .targetTickRegression => .targetTickRegression
  | .velocityOutOfRange => .velocityOutOfRange

/-- What the private constructor of a submission result checks. -/
def CommandSubmissionResult.Consistent (code : CommandRejectionCode) :
    Option QueueCommandResult → Prop
  | none => code ≠ .none
  | some queueResult => commandRejectionFromQueueResult queueResult = code

/-- SRC: authoritative_command_pipeline.hpp:38-60 -/
structure CommandSubmissionResult where
  code : CommandRejectionCode
  queueResult : Option QueueCommandResult
  consistent : CommandSubmissionResult.Consistent code queueResult
  deriving DecidableEq

namespace CommandSubmissionResult

/-- The private constructor.
SRC: authoritative_command_pipeline.cpp:64-92 -/
def make (code : CommandRejectionCode) :
    Option QueueCommandResult → Except Fault CommandSubmissionResult
  | none =>
    if h : code = .none then
      .error (.invalidArgument "accepted submission requires an accepted queue result")
    else .ok ⟨code, none, h⟩
  | some queueResult =>
    if h : commandRejectionFromQueueResult queueResult = code then .ok ⟨code, some queueResult, h⟩
    else .error (.invalidArgument "submission result does not match its queue result")

/-- SRC: authoritative_command_pipeline.cpp:27-39 -/
def reject (code : CommandRejectionCode) : Except Fault CommandSubmissionResult :=
  if code = .none then .error (.invalidArgument "rejected submission requires a rejection code")
  else make code none

/-- SRC: authoritative_command_pipeline.cpp:41-48 -/
def fromQueueResult (queueResult : QueueCommandResult) : Except Fault CommandSubmissionResult :=
  make (commandRejectionFromQueueResult queueResult) (some queueResult)

/-- SRC: authoritative_command_pipeline.cpp:50-53 -/
def accepted (result : CommandSubmissionResult) : Bool := result.code = .none

end CommandSubmissionResult

/-- SRC: authoritative_command_pipeline.hpp:62-74 -/
structure AuthoritativeCommandPipeline where
  evidence : CommandEvidenceLog := {}
  deriving DecidableEq

/-- The three objects a submission works on. -/
structure Exchange where
  pipeline : AuthoritativeCommandPipeline := {}
  session : CommandSession
  world : World
  deriving DecidableEq

namespace Exchange

/-- Run a member of the evidence log. -/
def onEvidence {α : Type} (action : Member CommandEvidenceLog α) : Member Exchange α :=
  Member.within (·.pipeline.evidence) (fun s log => { s with pipeline := ⟨log⟩ }) action

/-- Run a member of the session. -/
def onSession {α : Type} (action : Member CommandSession α) : Member Exchange α :=
  Member.within (·.session) (fun s session => { s with session }) action

/-- Run a member of the world. -/
def onWorld {α : Type} (action : Member World α) : Member Exchange α :=
  Member.within (·.world) (fun s world => { s with world }) action

end Exchange

/-- SRC: authoritative_command_pipeline.cpp:14-23 -/
def checkedCount (value : ℕ) : Except Fault UInt64 :=
  if value < 2 ^ 64 then .ok (UInt64.ofNat value)
  else .error (.overflowError "command count cannot be represented in evidence")

namespace AuthoritativeCommandPipeline

open Exchange

/-- SRC: authoritative_command_pipeline.cpp:94-184 -/
def submit (command : CommandEnvelope) : Member Exchange CommandSubmissionResult := do
  onEvidence CommandEvidenceLog.prepareAppend
  let before ← get
  let observedTick := before.world.currentTick.index
  let worldFingerprintBefore ← fingerprintWorldState before.world
  let sessionSequenceBefore := before.session.highestAcceptedSequence
  let pendingCommandsBefore ← checkedCount before.world.pendingCommandCount
  let admission ← before.session.evaluate command observedTick
  if !admission.accepted then
    let result ← CommandSubmissionResult.reject admission.code
    let after ← get
    let pendingCommandsAfter ← checkedCount after.world.pendingCommandCount
    onEvidence <| CommandEvidenceLog.append {
      worldFingerprintBefore, observedTick
      envelope := command
      sessionSequenceBefore
      sessionSequenceAfter := after.session.highestAcceptedSequence
      pendingCommandsBefore, pendingCommandsAfter
      rejectionCode := result.code
      queueOutcome := .notAttempted }
    return result
  match admission.command with
  | none => throw (.logicError "accepted command admission omitted its simulation command")
  | some velocityCommand =>
    let queueResult ← onWorld (World.queueVelocity velocityCommand)
    let result ← CommandSubmissionResult.fromQueueResult queueResult
    if result.accepted then
      onSession (CommandSession.commitAcceptedSequence command.sequence)
    let after ← get
    let pendingCommandsAfter ← checkedCount after.world.pendingCommandCount
    onEvidence <| CommandEvidenceLog.append {
      worldFingerprintBefore, observedTick
      envelope := command
      sessionSequenceBefore
      sessionSequenceAfter := after.session.highestAcceptedSequence
      pendingCommandsBefore, pendingCommandsAfter
      rejectionCode := result.code
      queueOutcome := commandQueueOutcome queueResult }
    return result

end AuthoritativeCommandPipeline

end Tickline.Model
