import Tickline.Model.Bytes
import Tickline.Model.World

/-!
# The canonical world encoding and its fingerprint

`encodeWorldState` writes the whole private state of a world: the clock, the limits, one
row per entity with its residuals and both high-water marks, and the pending queue.
`fingerprintWorldState` is the 64-bit FNV-1a hash of those bytes.
-/

set_option autoImplicit false

namespace Tickline.Model

open Tickline.Library

/-- SRC: canonical_state.hpp:12 -/
def canonicalStateSchemaVersion : UInt16 := 1

/-- SRC: canonical_state.cpp:51-60 -/
def checkedSize (value : ℕ) : Except Fault UInt64 :=
  if value < 2 ^ 64 then .ok (UInt64.ofNat value)
  else .error (.overflowError "world state collection size cannot be encoded")

/-- The row of one entity.
SRC: canonical_state.cpp:90-105 -/
def encodeEntity (world : World) (id : EntityId) (stored : StoredEntity) :
    Except Fault (List UInt8) := do
  let highestSequence ← mapAt world.highestSequence id
  let latestTargetTick ← mapAt world.latestTargetTick id
  return appendU64 id.value ++
    appendI64 stored.state.position.x.count ++
    appendI64 stored.state.position.y.count ++
    appendI64 stored.state.velocity.x.count ++
    appendI64 stored.state.velocity.y.count ++
    appendU64 stored.state.lastSequence ++
    appendI64 stored.residualX ++
    appendI64 stored.residualY ++
    appendU64 highestSequence ++
    appendU64 latestTargetTick

/-- The rows of the entity map, in ascending order of the identifiers. -/
def encodeEntities (world : World) : List (EntityId × StoredEntity) → Except Fault (List UInt8)
  | [] => return []
  | (id, stored) :: rest => do
    let row ← encodeEntity world id stored
    let rows ← encodeEntities world rest
    return row ++ rows

/-- One pending command.
SRC: canonical_state.cpp:111-117 -/
def encodePendingCommand (command : VelocityCommand) : List UInt8 :=
  appendU64 command.targetTick ++
    appendU64 command.entityId.value ++
    appendU64 command.sequence ++
    appendI64 command.velocity.x.count ++
    appendI64 command.velocity.y.count

/-- SRC: canonical_state.cpp:64-120 -/
def encodeWorldState (world : World) : Except Fault (List UInt8) := do
  let magic : List UInt8 := [0x54, 0x4c, 0x57, 0x53]
  let tick := world.clock.currentTick
  let header := magic ++
    appendU16 canonicalStateSchemaVersion ++
    appendU16 0 ++
    appendU64 tick.index ++
    appendI64 tick.elapsed.count ++
    appendI64 world.clock.tickDuration.count ++
    appendI64 world.limits.maxAbsPosition.count ++
    appendI64 world.limits.maxAbsVelocity.count
  let entityCount ← checkedSize world.entities.size
  let rows ← encodeEntities world world.entities.entries
  let pendingCount ← checkedSize world.pendingCommands.length
  return header ++ appendU64 entityCount ++ rows ++
    appendU64 pendingCount ++ world.pendingCommands.flatMap encodePendingCommand

/-- SRC: state_fingerprint.hpp:10-31 -/
structure StateFingerprint where
  value : UInt64
  deriving DecidableEq

/-- SRC: state_fingerprint.cpp:31-49 -/
def fingerprintBytes (bytes : List UInt8) : StateFingerprint :=
  let offsetBasis : UInt64 := 14695981039346656037
  let prime : UInt64 := 1099511628211
  ⟨bytes.foldl (fun hash byte => (hash ^^^ byte.toUInt64) * prime) offsetBasis⟩

/-- SRC: canonical_state.cpp:122-126 -/
def fingerprintWorldState (world : World) : Except Fault StateFingerprint := do
  let bytes ← encodeWorldState world
  return fingerprintBytes bytes

end Tickline.Model
