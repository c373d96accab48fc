import Mathlib.Data.Nat.Notation

/-!
# SHA-256

The hash that links evidence records, translated from the source: the round constants,
the round functions, the compression of one block and the handling of the tail.
-/

set_option autoImplicit false

namespace Tickline.Model

/-- SRC: sha256.hpp:10-36 -/
structure Sha256Digest where
  bytes : Vector UInt8 32 := Vector.replicate 32 0
  deriving DecidableEq

namespace Sha256

/-- SRC: sha256.cpp:13 -/
def blockSize : ℕ := 64

/-- SRC: sha256.cpp:15 -/
abbrev HashState := Vector UInt32 8

/-- SRC: sha256.cpp:16 -/
abbrev MessageSchedule := Vector UInt32 64

/-- SRC: sha256.cpp:18-83 -/
def roundConstants : Vector UInt32 64 := #v[
  0x428a2f98, 0x71374491, 0xb5c0fbcf, 0xe9b5dba5, 0x3956c25b, 0x59f111f1, 0x923f82a4, 0xab1c5ed5,
  0xd807aa98, 0x12835b01, 0x243185be, 0x550c7dc3, 0x72be5d74, 0x80deb1fe, 0x9bdc06a7, 0xc19bf174,
  0xe49b69c1, 0xefbe4786, 0x0fc19dc6, 0x240ca1cc, 0x2de92c6f, 0x4a7484aa, 0x5cb0a9dc, 0x76f988da,
  0x983e5152, 0xa831c66d, 0xb00327c8, 0xbf597fc7, 0xc6e00bf3, 0xd5a79147, 0x06ca6351, 0x14292967,
  0x27b70a85, 0x2e1b2138, 0x4d2c6dfc, 0x53380d13, 0x650a7354, 0x766a0abb, 0x81c2c92e, 0x92722c85,
  0xa2bfe8a1, 0xa81a664b, 0xc24b8b70, 0xc76c51a3, 0xd192e819, 0xd6990624, 0xf40e3585, 0x106aa070,
  0x19a4c116, 0x1e376c08, 0x2748774c, 0x34b0bcb5, 0x391c0cb3, 0x4ed8aa4a, 0x5b9cca4f, 0x682e6ff3,
  0x748f82ee, 0x78a5636f, 0x84c87814, 0x8cc70208, 0x90befffa, 0xa4506ceb, 0xbef9a3f7, 0xc67178f2]

/-- `std::rotr` by an amount between 1 and 31. -/
def rotr (value : UInt32) (amount : UInt32) : UInt32 :=
  (value >>> amount) ||| (value <<< (32 - amount))

/-- SRC: sha256.cpp:85-91 -/
def choose (x y z : UInt32) : UInt32 := (x &&& y) ^^^ (~~~x &&& z)

/-- SRC: sha256.cpp:93-99 -/
def majority (x y z : UInt32) : UInt32 := (x &&& y) ^^^ (x &&& z) ^^^ (y &&& z)

/-- SRC: sha256.cpp:101-107 -/
def largeSigmaZero (value : UInt32) : UInt32 := rotr value 2 ^^^ rotr value 13 ^^^ rotr value 22

/-- SRC: sha256.cpp:109-115 -/
def largeSigmaOne (value : UInt32) : UInt32 := rotr value 6 ^^^ rotr value 11 ^^^ rotr value 25

/-- SRC: sha256.cpp:117-123 -/
def smallSigmaZero (value : UInt32) : UInt32 := rotr value 7 ^^^ rotr value 18 ^^^ (value >>> 3)

/-- SRC: sha256.cpp:125-131 -/
def smallSigmaOne (value : UInt32) : UInt32 := rotr value 17 ^^^ rotr value 19 ^^^ (value >>> 10)

/-- SRC: sha256.cpp:133-146 -/
def readWord (block : Vector UInt8 64) (offset : ℕ) (h : offset + 3 < 64) : UInt32 :=
  (block[offset].toUInt32 <<< 24) ||| (block[offset + 1].toUInt32 <<< 16) |||
    (block[offset + 2].toUInt32 <<< 8) ||| block[offset + 3].toUInt32

/-- The second schedule loop, for the indices from `index` on.
SRC: sha256.cpp:162-172 -/
def extendSchedule : (remaining : ℕ) → remaining ≤ 48 → MessageSchedule → MessageSchedule
  | 0, _, schedule => schedule
  | remaining + 1, h, schedule =>
    let index := 63 - remaining
    let word := schedule[index - 16] + smallSigmaZero schedule[index - 15] +
      schedule[index - 7] + smallSigmaOne schedule[index - 2]
    extendSchedule remaining (by omega) (schedule.set index word)

/-- Both schedule loops.
SRC: sha256.cpp:152-172 -/
def makeSchedule (block : Vector UInt8 64) : MessageSchedule :=
  extendSchedule 48 (Nat.le_refl 48) <| Vector.ofFn fun index =>
    if h : index.val < 16 then readWord block (index.val * 4) (by omega) else 0

/-- One iteration of the round loop.
SRC: sha256.cpp:183-207 -/
def round (state : HashState) (constant word : UInt32) : HashState :=
  let a := state[0]
  let b := state[1]
  let c := state[2]
  let d := state[3]
  let e := state[4]
  let f := state[5]
  let g := state[6]
  let h := state[7]
  let first := h + largeSigmaOne e + choose e f g + constant + word
  let second := largeSigmaZero a + majority a b c
  #v[first + second, a, b, c, d + first, e, f, g]

/-- SRC: sha256.cpp:148-217 -/
def processBlock (block : Vector UInt8 64) (state : HashState) : HashState :=
  let schedule := makeSchedule block
  let rounds := (List.finRange 64).foldl
    (fun working index => round working roundConstants[index] schedule[index]) state
  Vector.ofFn fun index => state[index] + rounds[index]

/-- The 64 bytes of a span from an offset on. -/
def blockAt (bytes : List UInt8) (offset : ℕ) : Vector UInt8 64 :=
  Vector.ofFn fun index => bytes.getD (offset + index) 0

/-- SRC: sha256.cpp:219-240 -/
def writeWord (value : UInt32) : List UInt8 :=
  [((value >>> 24) &&& 0xff).toUInt8, ((value >>> 16) &&& 0xff).toUInt8,
    ((value >>> 8) &&& 0xff).toUInt8, (value &&& 0xff).toUInt8]

/-- SRC: sha256.cpp:295-304 -/
def initialState : HashState := #v[
  0x6a09e667, 0xbb67ae85, 0x3c6ef372, 0xa54ff53a, 0x510e527f, 0x9b05688c, 0x1f83d9ab, 0x5be0cd19]

/-- The size of the padded tail behind `remainder` unprocessed bytes.
SRC: sha256.cpp:340-343 -/
def finalSize (remainder : ℕ) : ℕ := if remainder < 56 then blockSize else blockSize * 2

/-- The last one or two blocks: the remaining bytes, the marker, zeros and the bit length.
SRC: sha256.cpp:325-367 -/
def makeTail (bytes : List UInt8) : List UInt8 :=
  let completeBlocks := bytes.length / blockSize
  let consumed := completeBlocks * blockSize
  let remainder := bytes.length - consumed
  let bitLength : UInt64 := UInt64.ofNat bytes.length * 8
  let lengthBytes := ([56, 48, 40, 32, 24, 16, 8, 0] : List UInt64).map fun shift =>
    ((bitLength >>> shift) &&& 0xff).toUInt8
  bytes.drop consumed ++ [0x80] ++ List.replicate (finalSize remainder - 8 - remainder - 1) 0 ++
    lengthBytes

end Sha256

open Sha256 in
/-- SRC: sha256.cpp:288-397 -/
def sha256 (bytes : List UInt8) : Sha256Digest :=
  let completeBlocks := bytes.length / blockSize
  let state := (List.range completeBlocks).foldl
    (fun state blockIndex => processBlock (blockAt bytes (blockIndex * blockSize)) state)
    initialState
  let tail := makeTail bytes
  let state := processBlock (blockAt tail 0) state
  let remainder := bytes.length - completeBlocks * blockSize
  let state := if finalSize remainder = blockSize * 2
    then processBlock (blockAt tail blockSize) state
    else state
  let digest := state.toList.flatMap writeWord
  ⟨Vector.ofFn fun index => digest.getD index 0⟩

/-- SRC: sha256.cpp:240-283 -/
def Sha256Digest.toHex (digest : Sha256Digest) : List Char :=
  digest.bytes.toList.flatMap fun (value : UInt8) =>
    [Nat.digitChar (value >>> 4).toNat, Nat.digitChar (value &&& 0x0f).toNat]

end Tickline.Model
