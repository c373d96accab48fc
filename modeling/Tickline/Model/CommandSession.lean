import Tickline.Model.World

/-!
# Command envelopes, the validator and sessions

A client's command arrives as a `CommandEnvelope`.  `CommandValidator.validate` checks
it against the session's policy and identity, and `CommandSession.evaluate` adds the
session's own replay check; the outcome is a `CommandAdmissionResult`.

The enumerations with a 16-bit underlying type are that type: a decoded envelope or
record can hold any of its values.  Objects whose constructor throws on bad arguments
carry what the constructor checked.
-/

set_option autoImplicit false

namespace Tickline.Model

/-! ## Envelopes -/

/-- SRC: command_envelope.hpp:10 -/
def commandSchemaVersion : UInt16 := 1

/-- SRC: command_envelope.hpp:12-14 -/
structure CommandType where
  value : UInt16
  deriving DecidableEq

/-- SRC: command_envelope.hpp:13 -/
def CommandType.setVelocity : CommandType := ⟨1⟩

/-- SRC: command_envelope.hpp:16-43 -/
structure ClientId where
  value : UInt64
  deriving DecidableEq

/-- SRC: command_envelope.hpp:28-31 -/
def ClientId.valid (id : ClientId) : Bool := id.value ≠ 0

/-- SRC: command_envelope.hpp:45-72 -/
structure SessionId where
  value : UInt64
  deriving DecidableEq

/-- SRC: command_envelope.hpp:57-60 -/
def SessionId.valid (id : SessionId) : Bool := id.value ≠ 0

/-- SRC: command_envelope.hpp:74-81 -/
structure SetVelocityPayload where
  entityId : EntityId
  velocity : Velocity2
  deriving DecidableEq

/-- SRC: command_envelope.hpp:83-95 -/
structure CommandEnvelope where
  schemaVersion : UInt16 := commandSchemaVersion
  type : CommandType := .setVelocity
  clientId : ClientId
  sessionId : SessionId
  sequence : UInt64
  targetTick : UInt64
  payload : SetVelocityPayload
  deriving DecidableEq

/-! ## Rejection codes -/

/-- SRC: command_validator.hpp:10-28 -/
structure CommandRejectionCode where
  value : UInt16
  deriving DecidableEq

namespace CommandRejectionCode

def none : CommandRejectionCode := ⟨0⟩
def unsupportedSchemaVersion : CommandRejectionCode := ⟨1⟩
def unsupportedCommandType : CommandRejectionCode := ⟨2⟩
def invalidClientId : CommandRejectionCode := ⟨3⟩
def invalidSessionId : CommandRejectionCode := ⟨4⟩
def clientIdentityMismatch : CommandRejectionCode := ⟨5⟩
def sessionIdentityMismatch : CommandRejectionCode := ⟨6⟩
def sequenceZero : CommandRejectionCode := ⟨7⟩
def staleTargetTick : CommandRejectionCode := ⟨8⟩
def targetTickTooFarFuture : CommandRejectionCode := ⟨9⟩
def velocityOutOfRange : CommandRejectionCode := ⟨10⟩
def duplicateSequence : CommandRejectionCode := ⟨11⟩
def sequenceRegression : CommandRejectionCode := ⟨12⟩
def unknownEntity : CommandRejectionCode := ⟨13⟩
def entitySequenceNotIncreasing : CommandRejectionCode := ⟨14⟩
def targetTickRegression : CommandRejectionCode := ⟨15⟩
def simulationRejectionUnknown : CommandRejectionCode := ⟨16⟩

end CommandRejectionCode

/-! ## The validator -/

/-- SRC: command_validator.hpp:30-33 -/
structure CommandValidationPolicy where
  maximumFutureTicks : UInt64 := 8
  maxAbsVelocity : MillimetersPerSecond := ⟨1000000⟩
  deriving DecidableEq

/-- SRC: command_validator.hpp:35-39 -/
structure CommandValidationContext where
  authenticatedClientId : ClientId
  activeSessionId : SessionId
  currentTick : UInt64

/-- SRC: command_validator.hpp:41-52 -/
structure CommandValidationResult where
  code : CommandRejectionCode
  deriving DecidableEq

/-- SRC: command_validator.hpp:44-47 -/
def CommandValidationResult.accepted (result : CommandValidationResult) : Bool :=
  result.code = .none

/-- A validator, with what its constructor checked.
SRC: command_validator.hpp:54-70 -/
structure CommandValidator where
  policy : CommandValidationPolicy
  window_positive : policy.maximumFutureTicks ≠ 0
  velocity_positive : 0 < policy.maxAbsVelocity.count
  deriving DecidableEq

namespace CommandValidator

/-- The constructor.
SRC: command_validator.cpp:27-39 -/
def make (policy : CommandValidationPolicy) : Except Fault CommandValidator :=
  if hw : policy.maximumFutureTicks = 0 then
    .error (.invalidArgument "maximum future command window must be greater than zero")
  else if hv : policy.maxAbsVelocity.count ≤ 0 then
    .error (.invalidArgument "maximum absolute command velocity must be positive")
  else .ok ⟨policy, hw, Int64.not_le.mp hv⟩

/-- SRC: command_validator.cpp:114-128 -/
def velocityIsValid (validator : CommandValidator) (velocity : Velocity2) :
    Except Fault Bool := do
  let limit := validator.policy.maxAbsVelocity.count
  if ← withinSymmetricLimit velocity.x.count limit then
    withinSymmetricLimit velocity.y.count limit
  else return false

/-- SRC: command_validator.cpp:46-112 -/
def validate (validator : CommandValidator) (command : CommandEnvelope)
    (context : CommandValidationContext) : Except Fault CommandValidationResult := do
  if !context.authenticatedClientId.valid then
    throw (.invalidArgument "authenticated client identifier must be non-zero")
  if !context.activeSessionId.valid then
    throw (.invalidArgument "active session identifier must be non-zero")
  if command.schemaVersion ≠ commandSchemaVersion then
    return ⟨.unsupportedSchemaVersion⟩
  if command.type ≠ .setVelocity then
    return ⟨.unsupportedCommandType⟩
  if !command.clientId.valid then
    return ⟨.invalidClientId⟩
  if !command.sessionId.valid then
    return ⟨.invalidSessionId⟩
  if command.clientId ≠ context.authenticatedClientId then
    return ⟨.clientIdentityMismatch⟩
  if command.sessionId ≠ context.activeSessionId then
    return ⟨.sessionIdentityMismatch⟩
  if command.sequence = 0 then
    return ⟨.sequenceZero⟩
  if command.targetTick ≤ context.currentTick then
    return ⟨.staleTargetTick⟩
  let futureDistance := command.targetTick - context.currentTick
  if validator.policy.maximumFutureTicks < futureDistance then
    return ⟨.targetTickTooFarFuture⟩
  if !(← validator.velocityIsValid command.payload.velocity) then
    return ⟨.velocityOutOfRange⟩
  return ⟨.none⟩

end CommandValidator

/-! ## Sessions -/

/-- SRC: command_session.hpp:13-37 -/
structure CommandAdmissionResult where
  code : CommandRejectionCode
  command : Option VelocityCommand
  consistent : code = .none ↔ command.isSome = true
  deriving DecidableEq

namespace CommandAdmissionResult

/-- The private constructor.
SRC: command_session.cpp:50-64 -/
def make (code : CommandRejectionCode) (command : Option VelocityCommand) :
    Except Fault CommandAdmissionResult :=
  if h : code = .none ↔ command.isSome = true then .ok ⟨code, command, h⟩
  else .error (.invalidArgument "command admission result has inconsistent state")

/-- SRC: command_session.cpp:9-17 -/
def accept (command : VelocityCommand) : Except Fault CommandAdmissionResult :=
  make .none (some command)

/-- SRC: command_session.cpp:19-32 -/
def reject (code : CommandRejectionCode) : Except Fault CommandAdmissionResult :=
  if code = .none then
    .error (.invalidArgument "accepted command result requires a simulation command")
  else make code none

/-- SRC: command_session.cpp:34-37 -/
def accepted (result : CommandAdmissionResult) : Bool := result.code = .none

end CommandAdmissionResult

/-- A session, with what its constructor checked.
SRC: command_session.hpp:39-69 -/
structure CommandSession where
  clientId : ClientId
  sessionId : SessionId
  validator : CommandValidator
  highestAcceptedSequence : UInt64 := 0
  client_valid : clientId.valid = true
  session_valid : sessionId.valid = true
  deriving DecidableEq

namespace CommandSession

/-- The constructor.
SRC: command_session.cpp:66-83 -/
def make (clientId : ClientId) (sessionId : SessionId) (policy : CommandValidationPolicy) :
    Except Fault CommandSession := do
  let validator ← CommandValidator.make policy
  if hc : clientId.valid = true then
    if hs : sessionId.valid = true then
      return { clientId, sessionId, validator, client_valid := hc, session_valid := hs }
    else throw (.invalidArgument "command session identifier must be non-zero")
  else throw (.invalidArgument "command session client identifier must be non-zero")

/-- SRC: command_session.cpp:134-143 -/
def translate (command : CommandEnvelope) : VelocityCommand where
  targetTick := command.targetTick
  entityId := command.payload.entityId
  sequence := command.sequence
  velocity := command.payload.velocity

/-- SRC: command_session.cpp:105-132 -/
def evaluate (session : CommandSession) (command : CommandEnvelope) (currentTick : UInt64) :
    Except Fault CommandAdmissionResult := do
  let validation ← session.validator.validate command {
    authenticatedClientId := session.clientId
    activeSessionId := session.sessionId
    currentTick }
  if !validation.accepted then
    return ← CommandAdmissionResult.reject validation.code
  if command.sequence = session.highestAcceptedSequence then
    return ← CommandAdmissionResult.reject .duplicateSequence
  if command.sequence < session.highestAcceptedSequence then
    return ← CommandAdmissionResult.reject .sequenceRegression
  CommandAdmissionResult.accept (translate command)

/-- SRC: command_session.cpp:145-149 -/
def commitAcceptedSequence (sequence : UInt64) : Member CommandSession Unit := do
  let session ← get
  set { session with highestAcceptedSequence := sequence }

end CommandSession

end Tickline.Model
