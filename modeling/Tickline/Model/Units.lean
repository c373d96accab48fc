import Tickline.Library.OrderedMap
import Tickline.Model.Prelude
import Mathlib.Order.Lattice

/-!
# Units, identifiers and the fixed-step clock

The value types of the simulation and the clock that counts its ticks.  Every quantity
is the machine integer the source gives it.  An `EntityId` carries the proof that its
constructor accepted it; identifiers are ordered by their value, which is the order the
world's maps iterate in.
-/

set_option autoImplicit false

namespace Tickline.Model

/-- SRC: units.hpp:10-52 -/
structure Microseconds where
  count : Int64
  deriving DecidableEq

/-- SRC: units.hpp:54-73 -/
structure Millimeters where
  count : Int64
  deriving DecidableEq

/-- SRC: units.hpp:75-95 -/
structure MillimetersPerSecond where
  count : Int64
  deriving DecidableEq

/-- A non-zero entity identifier.
SRC: units.hpp:97-124 -/
structure EntityId where
  value : UInt64
  nonzero : value ≠ 0

/-- The constructor of `EntityId`.
SRC: units.hpp:99-106 -/
def EntityId.make (value : UInt64) : Except Fault EntityId :=
  if h : value = 0 then .error (.invalidArgument "entity identifier must be non-zero")
  else .ok ⟨value, h⟩

theorem EntityId.ext {a b : EntityId} (h : a.value = b.value) : a = b := by
  cases a; cases b; simp_all

instance : LinearOrder EntityId :=
  LinearOrder.lift' (fun id => id.value.toNat) fun _ _ h => EntityId.ext (UInt64.toNat_inj.mp h)

theorem EntityId.lt_iff {a b : EntityId} : a < b ↔ a.value.toNat < b.value.toNat := Iff.rfl

/-- SRC: units.hpp:126-133 -/
structure Position2 where
  x : Millimeters
  y : Millimeters
  deriving DecidableEq

/-- SRC: units.hpp:135-142 -/
structure Velocity2 where
  x : MillimetersPerSecond
  y : MillimetersPerSecond
  deriving DecidableEq

/-- SRC: tick_clock.hpp:11-18 -/
structure Tick where
  index : UInt64
  elapsed : Microseconds
  deriving DecidableEq

/-- SRC: tick_clock.hpp:20-68 -/
structure FixedStepClock where
  tickDuration : Microseconds
  tickIndex : UInt64 := 0
  elapsed : Microseconds := ⟨0⟩
  deriving DecidableEq

namespace FixedStepClock

/-- The constructor, which refuses a duration that is not positive.
SRC: tick_clock.hpp:22-29 -/
def make (tickDuration : Microseconds) : Except Fault FixedStepClock :=
  if tickDuration.count ≤ 0 then
    .error (.invalidArgument "tick duration must be greater than zero")
  else .ok { tickDuration }

/-- SRC: tick_clock.hpp:36-42 -/
def currentTick (clock : FixedStepClock) : Tick where
  index := clock.tickIndex
  elapsed := clock.elapsed

/-- SRC: tick_clock.hpp:44-62 -/
def advance : Member FixedStepClock Tick := do
  let clock ← get
  if clock.tickIndex = UInt64.ofNat (2 ^ 64 - 1) then
    throw (.overflowError "tick index overflow")
  let duration := clock.tickDuration.count
  let elapsed := clock.elapsed.count
  let maximum := int64Maximum
  if (← Signed.sub maximum duration) < elapsed then
    throw (.overflowError "simulation elapsed time overflow")
  let nextElapsed ← Signed.add elapsed duration
  set { clock with tickIndex := clock.tickIndex + 1, elapsed := ⟨nextElapsed⟩ }
  return (← get).currentTick

end FixedStepClock

end Tickline.Model
