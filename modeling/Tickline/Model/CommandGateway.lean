import Tickline.Model.CommandPipeline
import Tickline.Model.Frame

/-!
# Command frames and the gateway

The codec of the one message type, a command envelope in a frame, and the gateway that
hands decoded commands to its pipeline.

The encoders fill a zeroed array field by field; the array is the list of its bytes, and a
writer overwrites bytes from an offset on.  The gateway's `submit` is a member of the three
objects it can change, held together in a `GatewayExchange`.
-/

set_option autoImplicit false

namespace Tickline.Model

/-! ## Writing into an array -/

namespace Span

/-- Overwrite the bytes from an offset on. -/
def write (bytes : List UInt8) : ℕ → List UInt8 → List UInt8
  | _, [] => bytes
  | offset, byte :: rest => write (bytes.set offset byte) (offset + 1) rest

/-- SRC: command_envelope_codec.cpp:10-20 -/
def writeU16 (bytes : List UInt8) (offset : ℕ) (value : UInt16) : List UInt8 :=
  write bytes offset [(value >>> 8).toUInt8, value.toUInt8]

/-- SRC: command_envelope_codec.cpp:22-38 -/
def writeU32 (bytes : List UInt8) (offset : ℕ) (value : UInt32) : List UInt8 :=
  write bytes offset
    [(value >>> 24).toUInt8, (value >>> 16).toUInt8, (value >>> 8).toUInt8, value.toUInt8]

/-- SRC: command_envelope_codec.cpp:40-52 -/
def writeU64 (bytes : List UInt8) (offset : ℕ) (value : UInt64) : List UInt8 :=
  write bytes offset <| (List.range 8).map fun index =>
    (value >>> UInt64.ofNat ((7 - index) * 8)).toUInt8

end Span

/-! ## The codec -/

/-- SRC: command_envelope_codec.hpp:13 -/
def commandEnvelopePayloadSize : ℕ := 60

/-- SRC: command_envelope_codec.hpp:14-15 -/
def commandFrameSize : ℕ := frameHeaderSize + commandEnvelopePayloadSize

/-- Fill the payload of an array; the payload starts at `base`.
SRC: command_envelope_codec.cpp:78-106 -/
def encodePayload (envelope : CommandEnvelope) (base : ℕ) (bytes : List UInt8) : List UInt8 :=
  let bytes := Span.writeU16 bytes (base + 0) envelope.schemaVersion
  let bytes := Span.writeU16 bytes (base + 2) envelope.type.value
  let bytes := Span.writeU64 bytes (base + 4) envelope.clientId.value
  let bytes := Span.writeU64 bytes (base + 12) envelope.sessionId.value
  let bytes := Span.writeU64 bytes (base + 20) envelope.sequence
  let bytes := Span.writeU64 bytes (base + 28) envelope.targetTick
  let bytes := Span.writeU64 bytes (base + 36) envelope.payload.entityId.value
  let bytes := Span.writeU64 bytes (base + 44) envelope.payload.velocity.x.count.toUInt64
  Span.writeU64 bytes (base + 52) envelope.payload.velocity.y.count.toUInt64

/-- SRC: command_envelope_codec.cpp:110-116 -/
def encodeCommandEnvelope (envelope : CommandEnvelope) : List UInt8 :=
  encodePayload envelope 0 (List.replicate commandEnvelopePayloadSize 0)

/-- SRC: command_envelope_codec.cpp:118-150 -/
def encodeCommandFrame (envelope : CommandEnvelope) : List UInt8 :=
  let output := List.replicate commandFrameSize 0
  let output := Span.write output 0 frameMagic
  let output := Span.writeU16 output 4 protocolVersion
  let output := Span.writeU16 output 6 (UInt16.ofNat frameHeaderSize)
  let output := Span.writeU32 output 8 (UInt32.ofNat commandFrameSize)
  let output := Span.writeU16 output 12 MessageType.commandEnvelope.value
  let output := Span.writeU16 output 14 0
  encodePayload envelope frameHeaderSize output

/-- SRC: command_envelope_codec.cpp:152-186 -/
def decodeCommandEnvelope (payload : List UInt8) : Except Fault (Expected CommandEnvelope) := do
  if payload.length ≠ commandEnvelopePayloadSize then return .error .payloadSizeMismatch
  let entityId ← Span.readU64 payload 36
  if entityId = 0 then return .error .invalidEntityId
  let schemaVersion ← Span.readU16 payload 0
  let type ← Span.readU16 payload 2
  let clientId ← Span.readU64 payload 4
  let sessionId ← Span.readU64 payload 12
  let sequence ← Span.readU64 payload 20
  let targetTick ← Span.readU64 payload 28
  let entity ← EntityId.make entityId
  let velocityX ← Span.readU64 payload 44
  let velocityY ← Span.readU64 payload 52
  return .ok {
    schemaVersion
    type := ⟨type⟩
    clientId := ⟨clientId⟩
    sessionId := ⟨sessionId⟩
    sequence, targetTick
    payload := {
      entityId := entity
      velocity := { x := ⟨velocityX.toInt64⟩, y := ⟨velocityY.toInt64⟩ } } }

/-- SRC: command_envelope_codec.cpp:188-200 -/
def decodeCommandFrame (bytes : List UInt8) (limits : ProtocolLimits) :
    Except Fault (Expected CommandEnvelope) := do
  match ← parseFrame bytes limits with
  | .error code => return .error code
  | .ok frame => decodeCommandEnvelope frame.payload

/-! ## The gateway -/

/-- A result, with what its private constructor checks: there is a command result or a
parse error, and not both.
SRC: authoritative_command_gateway.hpp:12-36, authoritative_command_gateway.cpp:55-69 -/
structure ProtocolSubmissionResult where
  parseError : ParseErrorCode
  commandResult : Option CommandSubmissionResult
  consistent : commandResult.isSome = decide (parseError = .none)

namespace ProtocolSubmissionResult

/-- The private constructor.
SRC: authoritative_command_gateway.cpp:55-69 -/
def make (parseError : ParseErrorCode) (commandResult : Option CommandSubmissionResult) :
    Except Fault ProtocolSubmissionResult :=
  if h : commandResult.isSome = decide (parseError = .none) then
    .ok ⟨parseError, commandResult, h⟩
  else .error (.invalidArgument "protocol submission result has inconsistent state")

/-- SRC: authoritative_command_gateway.cpp:9-21 -/
def parseRejection (code : ParseErrorCode) : Except Fault ProtocolSubmissionResult :=
  if code = .none then .error (.invalidArgument "protocol rejection requires a parse error")
  else make code none

/-- SRC: authoritative_command_gateway.cpp:23-31 -/
def commandSubmission (result : CommandSubmissionResult) :
    Except Fault ProtocolSubmissionResult :=
  make .none (some result)

end ProtocolSubmissionResult

/-- A gateway, with what its constructor checked.
SRC: authoritative_command_gateway.hpp:38-56 -/
structure AuthoritativeCommandGateway where
  limits : ProtocolLimits
  pipeline : AuthoritativeCommandPipeline := {}
  admitted : frameHeaderSize ≤ limits.maximumFrameSize.toNat

/-- The constructor.
SRC: authoritative_command_gateway.cpp:71-79 -/
def AuthoritativeCommandGateway.make (limits : ProtocolLimits) :
    Except Fault AuthoritativeCommandGateway :=
  if h : limits.maximumFrameSize.toNat < frameHeaderSize then .error limitsFault
  else .ok { limits, admitted := Nat.le_of_not_lt h }

/-- The three objects a submission through a gateway works on. -/
structure GatewayExchange where
  gateway : AuthoritativeCommandGateway
  session : CommandSession
  world : World

namespace GatewayExchange

/-- The objects that the gateway's pipeline works on. -/
def exchange (s : GatewayExchange) : Exchange where
  pipeline := s.gateway.pipeline
  session := s.session
  world := s.world

/-- Put those objects back. -/
def withExchange (s : GatewayExchange) (e : Exchange) : GatewayExchange where
  gateway := { s.gateway with pipeline := e.pipeline }
  session := e.session
  world := e.world

/-- Run a member of the pipeline. -/
def onPipeline {α : Type} (action : Member Exchange α) : Member GatewayExchange α :=
  Member.within exchange withExchange action

end GatewayExchange

/-- SRC: authoritative_command_gateway.cpp:81-99 -/
def AuthoritativeCommandGateway.submit (bytes : List UInt8) :
    Member GatewayExchange ProtocolSubmissionResult := do
  let s ← get
  match ← decodeCommandFrame bytes s.gateway.limits with
  | .error code => ProtocolSubmissionResult.parseRejection code
  | .ok envelope =>
    let result ← GatewayExchange.onPipeline (AuthoritativeCommandPipeline.submit envelope)
    ProtocolSubmissionResult.commandSubmission result

end Tickline.Model
