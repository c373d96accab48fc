import Mathlib.Data.Nat.Notation

/-!
# Byte order

The big-endian writers that the world encoding, the evidence records and the evidence
archives each define for themselves; their bodies agree, so they are one definition per
width here.
-/

set_option autoImplicit false

namespace Tickline.Model

/-- The bytes of `value` at the given shifts.
SRC: canonical_state.cpp:23-42, command_evidence.cpp:46-67, command_evidence_archive.cpp:36-79 -/
def bytesAtShifts (value : UInt64) (shifts : List UInt64) : List UInt8 :=
  shifts.map fun shift => ((value >>> shift) &&& 0xff).toUInt8

/-- SRC: canonical_state.cpp:13-21 -/
def appendU16 (value : UInt16) : List UInt8 := bytesAtShifts value.toUInt64 [8, 0]

/-- SRC: command_evidence_archive.cpp:47-62 -/
def appendU32 (value : UInt32) : List UInt8 := bytesAtShifts value.toUInt64 [24, 16, 8, 0]

/-- SRC: canonical_state.cpp:23-42 -/
def appendU64 (value : UInt64) : List UInt8 :=
  bytesAtShifts value [56, 48, 40, 32, 24, 16, 8, 0]

/-- SRC: canonical_state.cpp:44-49, command_evidence.cpp:69-75 -/
def appendI64 (value : Int64) : List UInt8 := appendU64 value.toUInt64

end Tickline.Model
