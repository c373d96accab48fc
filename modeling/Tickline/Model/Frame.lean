import Tickline.Model.Prelude

/-!
# Frames and the strict parser

A frame is a 16-byte header and a payload.  `decodeFrameHeader` checks the header's fields
in the source's order, and `parseFrame` demands that the bytes are exactly one frame.

A `std::expected` is an `Except ParseErrorCode`; it stands inside an `Except Fault`, because
the parsers also throw, for limits that no header fits in.  The readers index a span without
a check, so an index outside it is undefined behaviour.
-/

set_option autoImplicit false

namespace Tickline.Model

/-- SRC: frame.hpp:11-16 -/
def frameMagic : List UInt8 := [0x54, 0x49, 0x43, 0x4b]

/-- SRC: frame.hpp:18 -/
def protocolVersion : UInt16 := 1

/-- SRC: frame.hpp:19 -/
def frameHeaderSize : ℕ := 16

/-- SRC: frame.hpp:20-24 -/
structure ProtocolLimits where
  maximumFrameSize : UInt32 := 4096
  deriving DecidableEq

/-- SRC: frame.hpp:26-28 -/
inductive MessageType
  | commandEnvelope
  deriving DecidableEq, Repr

/-- SRC: frame.hpp:27 -/
def MessageType.value : MessageType → UInt16
  | .commandEnvelope => 1

/-- SRC: frame.hpp:30-44 -/
inductive ParseErrorCode
  | none
  | truncatedHeader
  | invalidMagic
  | unsupportedProtocolVersion
  | invalidHeaderSize
  | frameTooSmall
  | frameTooLarge
  | reservedFlagsSet
  | unknownMessageType
  | truncatedFrame
  | trailingData
  | payloadSizeMismatch
  | invalidEntityId
  deriving DecidableEq, Repr

/-- SRC: frame.hpp:46-56 -/
structure FrameHeader where
  version : UInt16
  headerSize : UInt16
  frameSize : UInt32
  messageType : MessageType
  flags : UInt16
  deriving DecidableEq, Repr

/-- SRC: frame.hpp:58-61 -/
structure FrameView where
  header : FrameHeader
  payload : List UInt8
  deriving DecidableEq, Repr

/-- A `std::expected` with a parse error. -/
abbrev Expected (α : Type) := Except ParseErrorCode α

/-! ## Reading a span by index -/

namespace Span

/-- `bytes[index]`. -/
def get (bytes : List UInt8) (index : ℕ) : Except Fault UInt8 :=
  match bytes[index]? with
  | some byte => .ok byte
  | none => .error .undefinedBehaviour

/-- SRC: frame_parser.cpp:10-17, command_envelope_codec.cpp:54-61 -/
def readU16 (bytes : List UInt8) (offset : ℕ) : Except Fault UInt16 := do
  let high ← get bytes offset
  let low ← get bytes (offset + 1)
  return (high.toUInt16 <<< 8) ||| low.toUInt16

/-- SRC: frame_parser.cpp:19-28 -/
def readU32 (bytes : List UInt8) (offset : ℕ) : Except Fault UInt32 := do
  let b0 ← get bytes offset
  let b1 ← get bytes (offset + 1)
  let b2 ← get bytes (offset + 2)
  let b3 ← get bytes (offset + 3)
  return (b0.toUInt32 <<< 24) ||| (b1.toUInt32 <<< 16) ||| (b2.toUInt32 <<< 8) ||| b3.toUInt32

/-- The loop of `readU64` with `count` bytes to go. -/
def readU64Loop (bytes : List UInt8) : ℕ → ℕ → UInt64 → Except Fault UInt64
  | 0, _, value => return value
  | count + 1, index, value => do
    let byte ← get bytes index
    readU64Loop bytes count (index + 1) ((value <<< 8) ||| byte.toUInt64)

/-- SRC: command_envelope_codec.cpp:63-76 -/
def readU64 (bytes : List UInt8) (offset : ℕ) : Except Fault UInt64 :=
  readU64Loop bytes 8 offset 0

end Span

/-! ## The parsers -/

/-- What the parsers throw for limits that no header fits in.
SRC: frame_parser.cpp:33-34, stream_parser.cpp:16-17, authoritative_command_gateway.cpp:76-77 -/
def limitsFault : Fault :=
  .invalidArgument "maximum frame size must include the fixed frame header"

/-- SRC: frame_parser.cpp:30-36 -/
def validateLimits (limits : ProtocolLimits) : Except Fault Unit :=
  if limits.maximumFrameSize.toNat < frameHeaderSize then .error limitsFault else .ok ()

/-- The loop over the magic bytes, from an index on.
SRC: frame_parser.cpp:38-48 -/
def hasValidMagicFrom (bytes : List UInt8) : ℕ → List UInt8 → Except Fault Bool
  | _, [] => return true
  | index, expected :: rest => do
    if (← Span.get bytes index) ≠ expected then return false
    hasValidMagicFrom bytes (index + 1) rest

/-- SRC: frame_parser.cpp:38-48 -/
def hasValidMagic (bytes : List UInt8) : Except Fault Bool := hasValidMagicFrom bytes 0 frameMagic

/-- SRC: frame_parser.cpp:52-109 -/
def decodeFrameHeader (bytes : List UInt8) (limits : ProtocolLimits) :
    Except Fault (Expected FrameHeader) := do
  validateLimits limits
  if bytes.length < frameHeaderSize then return .error .truncatedHeader
  if !(← hasValidMagic bytes) then return .error .invalidMagic
  let version ← Span.readU16 bytes 4
  if version ≠ protocolVersion then return .error .unsupportedProtocolVersion
  let declaredHeaderSize ← Span.readU16 bytes 6
  if declaredHeaderSize.toNat ≠ frameHeaderSize then return .error .invalidHeaderSize
  let declaredFrameSize ← Span.readU32 bytes 8
  if declaredFrameSize.toNat < frameHeaderSize then return .error .frameTooSmall
  if limits.maximumFrameSize < declaredFrameSize then return .error .frameTooLarge
  let messageTypeValue ← Span.readU16 bytes 12
  let flags ← Span.readU16 bytes 14
  if flags ≠ 0 then return .error .reservedFlagsSet
  if messageTypeValue ≠ MessageType.commandEnvelope.value then
    return .error .unknownMessageType
  return .ok {
    version
    headerSize := declaredHeaderSize
    frameSize := declaredFrameSize
    messageType := .commandEnvelope
    flags }

/-- SRC: frame_parser.cpp:111-137 -/
def parseFrame (bytes : List UInt8) (limits : ProtocolLimits) :
    Except Fault (Expected FrameView) := do
  match ← decodeFrameHeader bytes limits with
  | .error code => return .error code
  | .ok header =>
    let declaredSize := header.frameSize.toNat
    if bytes.length < declaredSize then return .error .truncatedFrame
    if declaredSize < bytes.length then return .error .trailingData
    return .ok { header, payload := bytes.drop frameHeaderSize }

end Tickline.Model
