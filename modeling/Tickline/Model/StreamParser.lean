import Tickline.Library.Machine
import Tickline.Model.Frame

/-!
# The incremental stream parser

`FrameStreamParser` holds the bytes of the unfinished frame, its header once that is
complete, and the first error it met.  `push` is translated with the part of its argument
still unread (`bytes` from `offset` on) in place of the offset.

The loop of `push` is given as many rounds as it has bytes and two more; a round that does
not stop it consumes at least one byte, and `push_eq` shows that it returns.
The vectors do not reach their maximum size: a frame takes at least 16 bytes of input.
-/

set_option autoImplicit false

namespace Tickline.Model

open Tickline.Library

/-- SRC: stream_parser.hpp:13-20 -/
structure OwnedFrame where
  header : FrameHeader
  payload : List UInt8
  deriving DecidableEq, Repr

/-- A frame copied out of the buffer.
SRC: stream_parser.cpp:87-94 -/
def FrameView.owned (view : FrameView) : OwnedFrame where
  header := view.header
  payload := view.payload

/-- SRC: stream_parser.hpp:22-23 -/
abbrev StreamParseResult := Expected (List OwnedFrame)

/-- SRC: stream_parser.hpp:25-26 -/
abbrev StreamFinishResult := Expected Unit

/-- SRC: stream_parser.hpp:28-58 -/
structure FrameStreamParser where
  limits : ProtocolLimits
  buffer : List UInt8 := []
  currentHeader : Option FrameHeader := none
  failure : Option ParseErrorCode := none
  deriving DecidableEq

/-- The difference of two values of `std::size_t`, which wraps. -/
def sizeSub (a b : ℕ) : ℕ := (2 ^ 64 + a - b) % 2 ^ 64

namespace FrameStreamParser

/-- The constructor.
SRC: stream_parser.cpp:12-21 -/
def make (limits : ProtocolLimits) : Except Fault FrameStreamParser :=
  if limits.maximumFrameSize.toNat < frameHeaderSize then .error limitsFault else .ok { limits }

/-- SRC: stream_parser.cpp:148-153 -/
def fail (code : ParseErrorCode) : Member FrameStreamParser StreamParseResult := do
  set { (← get) with failure := some code }
  return .error code

/-- SRC: stream_parser.cpp:155-160 -/
def finishWithError (code : ParseErrorCode) : Member FrameStreamParser StreamFinishResult := do
  set { (← get) with failure := some code }
  return .error code

/-- Fill the buffer up to a size from the unread bytes, and return the bytes still unread.
SRC: stream_parser.cpp:35-47, 66-75 -/
def refill (unread : List UInt8) (size : ℕ) : Member FrameStreamParser (List UInt8) := do
  let parser ← get
  let required := sizeSub size parser.buffer.length
  let available := unread.length
  let count := min required available
  set { parser with buffer := parser.buffer ++ unread.take count }
  return unread.drop count

/-- How a round of the loop of `push` ends: by leaving `push` with a result, or in the next
round with the unread bytes and the frames so far. -/
inductive PushRound
  | stop (result : StreamParseResult)
  | next (unread : List UInt8) (frames : List OwnedFrame)

/-- The second half of a round: complete the frame whose header is known.
SRC: stream_parser.cpp:63-97 -/
def completeFrame (unread : List UInt8) (frames : List OwnedFrame) (header : FrameHeader) :
    Member FrameStreamParser PushRound := do
  let expectedSize := header.frameSize.toNat
  let unread ← refill unread expectedSize
  let parser ← get
  if parser.buffer.length < expectedSize then return .stop (.ok frames)
  match ← parseFrame parser.buffer parser.limits with
  | .error code => return .stop (← fail code)
  | .ok parsed =>
    set { parser with buffer := [], currentHeader := none }
    return .next unread (frames ++ [parsed.owned])

/-- One round of the loop of `push`.
SRC: stream_parser.cpp:34-97 -/
def pushRound (unread : List UInt8) (frames : List OwnedFrame) :
    Member FrameStreamParser PushRound := do
  match (← get).currentHeader with
  | some header => completeFrame unread frames header
  | none =>
    let unread ← refill unread frameHeaderSize
    let parser ← get
    if parser.buffer.length < frameHeaderSize then return .stop (.ok frames)
    match ← decodeFrameHeader parser.buffer parser.limits with
    | .error code => return .stop (← fail code)
    | .ok header =>
      set { parser with currentHeader := some header }
      completeFrame unread frames header

/-- The loop of `push`, with rounds to spare.
SRC: stream_parser.cpp:33-98 -/
def pushLoop : ℕ → List UInt8 → List OwnedFrame → Member FrameStreamParser StreamParseResult
  | 0, _, _ => throw .undefinedBehaviour
  | rounds + 1, unread, frames => do
    let parser ← get
    if unread ≠ [] ∨ parser.currentHeader.isSome then
      match ← pushRound unread frames with
      | .stop result => return result
      | .next unread frames => pushLoop rounds unread frames
    else return .ok frames

/-- SRC: stream_parser.cpp:23-101 -/
def push (bytes : List UInt8) : Member FrameStreamParser StreamParseResult := do
  match (← get).failure with
  | some code => return .error code
  | none => pushLoop (bytes.length + 2) bytes []

/-- SRC: stream_parser.cpp:103-118 -/
def finish : Member FrameStreamParser StreamFinishResult := do
  let parser ← get
  match parser.failure with
  | some code => return .error code
  | none =>
    if parser.buffer.isEmpty then return .ok ()
    if parser.buffer.length < frameHeaderSize then finishWithError .truncatedHeader
    else finishWithError .truncatedFrame

/-- SRC: stream_parser.cpp:120-125 -/
def reset : Member FrameStreamParser Unit := do
  set { (← get) with buffer := [], currentHeader := none, failure := none }

/-- SRC: stream_parser.cpp:132-135 -/
def bufferedSize (parser : FrameStreamParser) : ℕ := parser.buffer.length

/-- SRC: stream_parser.cpp:137-140 -/
def failed (parser : FrameStreamParser) : Bool := parser.failure.isSome

/-! ## Runs -/

/-- A call of one of the members of a stream parser. -/
inductive Call
  | push (bytes : List UInt8)
  | finish
  | reset
  deriving DecidableEq

/-- What a call came back with. -/
inductive Reply
  | pushed (result : StreamParseResult)
  | finished (result : StreamFinishResult)
  | wasReset
  | threw (fault : Fault)
  deriving DecidableEq

/-- Call a member function. -/
def call {α : Type} (reply : α → Reply) (action : Member FrameStreamParser α)
    (parser : FrameStreamParser) : Reply × FrameStreamParser :=
  match action parser with
  | .ok a parser' => (reply a, parser')
  | .error fault parser' => (.threw fault, parser')

/-- A stream parser answering its calls. -/
def machine : Machine FrameStreamParser Call Reply where
  perform
    | .push bytes => call .pushed (push bytes)
    | .finish => call .finished finish
    | .reset => call (fun _ => .wasReset) reset

/-- The frames a call returned. -/
def Reply.frames : Reply → List OwnedFrame
  | .pushed (.ok frames) => frames
  | _ => []

/-- The frames that all calls of a run returned, in order. -/
def framesOf (trace : List (Call × Reply)) : List OwnedFrame := trace.flatMap (·.2.frames)

end FrameStreamParser

end Tickline.Model
