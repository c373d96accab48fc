import Tickline.Model.Units
import Mathlib.Data.List.Sort

/-!
# The simulation world

`World` is the private state of the class: the clock, the limits, three maps keyed by
entity and the queue of pending commands.  Its constructor and its three mutating
members are translated statement by statement; each is a `Member World`, so an
exception leaves the world as the statements before the throw made it.

`std::sort` is `List.insertionSort` under `commandOrder`.  The library function may
arrange equivalent commands in any order; no reachable queue holds two such commands,
so every sort gives this list (`sortCommands_unique`).
-/

set_option autoImplicit false

namespace Tickline.Model

open Tickline.Library

/-- SRC: world.hpp:14-17 -/
structure WorldLimits where
  maxAbsPosition : Millimeters := ⟨10000000000⟩
  maxAbsVelocity : MillimetersPerSecond := ⟨1000000⟩
  deriving DecidableEq

/-- SRC: world.hpp:19-28 -/
structure EntityState where
  id : EntityId
  position : Position2
  velocity : Velocity2
  lastSequence : UInt64 := 0
  deriving DecidableEq

/-- SRC: world.hpp:30-39 -/
structure VelocityCommand where
  targetTick : UInt64
  entityId : EntityId
  sequence : UInt64
  velocity : Velocity2
  deriving DecidableEq

/-- SRC: world.hpp:41-46 -/
inductive AddEntityResult
  | added
  | duplicateId
  | positionOutOfRange
  | velocityOutOfRange
  deriving DecidableEq, Repr

/-- SRC: world.hpp:48-55 -/
inductive QueueCommandResult
  | accepted
  | staleTick
  | unknownEntity
  | sequenceNotIncreasing
  | targetTickRegression
  | velocityOutOfRange
  deriving DecidableEq, Repr

/-- SRC: world.hpp:86-90 -/
structure StoredEntity where
  state : EntityState
  residualX : Int64 := 0
  residualY : Int64 := 0
  deriving DecidableEq

/-- SRC: world.hpp:57-107 -/
structure World where
  clock : FixedStepClock
  limits : WorldLimits
  entities : OrderedMap EntityId StoredEntity
  highestSequence : OrderedMap EntityId UInt64
  latestTargetTick : OrderedMap EntityId UInt64
  pendingCommands : List VelocityCommand
  deriving DecidableEq

/-- `std::map::at` as a read.  The source assigns through it only under keys it has just
read, so an assignment is `insert`. -/
def mapAt {α : Type} (m : OrderedMap EntityId α) (id : EntityId) : Except Fault α :=
  match m.find? id with
  | some value => .ok value
  | none => .error .outOfRange

/-- SRC: world.cpp:12 -/
def microsecondsPerSecond : Int64 := 1000000

/-- SRC: world.cpp:14-19 -/
def withinSymmetricLimit (value limit : Int64) : Except Fault Bool := do
  let low ← Signed.neg limit
  return decide (low ≤ value) && decide (value ≤ limit)

/-- SRC: world.cpp:21-37 -/
def checkedAdd (left right : Int64) : Except Fault Int64 := do
  if 0 < right then
    if (← Signed.sub int64Maximum right) < left then
      throw (.overflowError "signed position addition overflow")
  if right < 0 then
    if left < (← Signed.sub int64Minimum right) then
      throw (.overflowError "signed position addition overflow")
  Signed.add left right

/-- SRC: world.cpp:39-42 -/
structure AxisIntegration where
  position : Int64
  residual : Int64
  deriving DecidableEq

/-- SRC: world.cpp:44-74 -/
def integrateAxis (position velocity residual tickDuration maxAbsPosition : Int64) :
    Except Fault AxisIntegration := do
  let scaledDisplacement ← Signed.add (← Signed.mul velocity tickDuration) residual
  let wholeMillimeters ← Signed.div scaledDisplacement microsecondsPerSecond
  let nextResidual ← Signed.mod scaledDisplacement microsecondsPerSecond
  let nextPosition ← checkedAdd position wholeMillimeters
  if !(← withinSymmetricLimit nextPosition maxAbsPosition) then
    throw (.overflowError "integrated position exceeds configured world limit")
  return { position := nextPosition, residual := nextResidual }

/-- SRC: world.cpp:76-89 -/
def commandOrder (left right : VelocityCommand) : Bool :=
  if left.targetTick ≠ right.targetTick then left.targetTick < right.targetTick
  else if left.entityId ≠ right.entityId then left.entityId < right.entityId
  else left.sequence < right.sequence

/-- `std::sort` under `commandOrder`.
SRC: world.cpp:216-219 -/
def sortCommands (commands : List VelocityCommand) : List VelocityCommand :=
  commands.insertionSort fun left right => commandOrder right left = false

namespace World

/-- The constructor.
SRC: world.cpp:93-126 -/
def make (tickDuration : Microseconds) (limits : WorldLimits) : Except Fault World := do
  let clock ← FixedStepClock.make tickDuration
  let positionLimit := limits.maxAbsPosition.count
  let velocityLimit := limits.maxAbsVelocity.count
  if positionLimit ≤ 0 then
    throw (.invalidArgument "maximum absolute position must be positive")
  if velocityLimit ≤ 0 then
    throw (.invalidArgument "maximum absolute velocity must be positive")
  let duration := tickDuration.count
  let maximum := int64Maximum
  let safeVelocityLimit ←
    Signed.div (← Signed.sub maximum (← Signed.sub microsecondsPerSecond 1)) duration
  if safeVelocityLimit < velocityLimit then
    throw (.invalidArgument "velocity limit and tick duration can overflow integration")
  return {
    clock, limits
    entities := .empty
    highestSequence := .empty
    latestTargetTick := .empty
    pendingCommands := [] }

/-- SRC: world.cpp:128-131 -/
def currentTick (world : World) : Tick := world.clock.currentTick

/-- SRC: world.cpp:133-136 -/
def tickDuration (world : World) : Microseconds := world.clock.tickDuration

/-- SRC: world.cpp:323-326 -/
def pendingCommandCount (world : World) : ℕ := world.pendingCommands.length

/-- SRC: world.cpp:328-341 -/
def positionIsValid (world : World) (position : Position2) : Except Fault Bool := do
  let limit := world.limits.maxAbsPosition.count
  if ← withinSymmetricLimit position.x.count limit then
    withinSymmetricLimit position.y.count limit
  else return false

/-- SRC: world.cpp:343-355 -/
def velocityIsValid (world : World) (velocity : Velocity2) : Except Fault Bool := do
  let limit := world.limits.maxAbsVelocity.count
  if ← withinSymmetricLimit velocity.x.count limit then
    withinSymmetricLimit velocity.y.count limit
  else return false

/-- SRC: world.cpp:143-175 -/
def addEntity (entity : EntityState) : Member World AddEntityResult := do
  let world ← get
  if world.entities.contains entity.id then
    return .duplicateId
  if !(← world.positionIsValid entity.position) then
    return .positionOutOfRange
  if !(← world.velocityIsValid entity.velocity) then
    return .velocityOutOfRange
  -- The caller's last_sequence is dropped: a new entity has executed nothing.
  let stored : StoredEntity := { state := { entity with lastSequence := 0 } }
  set { world with
    entities := world.entities.insert entity.id stored
    highestSequence := world.highestSequence.insert entity.id 0
    latestTargetTick := world.latestTargetTick.insert entity.id world.currentTick.index }
  return .added

/-- `sizeof(VelocityCommand)`: five 64-bit fields. -/
def velocityCommandSize : ℕ := 40

/-- SRC: world.cpp:177-222 -/
def queueVelocity (command : VelocityCommand) : Member World QueueCommandResult := do
  let world ← get
  let currentIndex := world.currentTick.index
  if command.targetTick ≤ currentIndex then
    return .staleTick
  if !world.entities.contains command.entityId then
    return .unknownEntity
  let highestSequence ← mapAt world.highestSequence command.entityId
  if command.sequence ≤ highestSequence then
    return .sequenceNotIncreasing
  let latestTargetTick ← mapAt world.latestTargetTick command.entityId
  if command.targetTick < latestTargetTick then
    return .targetTickRegression
  if !(← world.velocityIsValid command.velocity) then
    return .velocityOutOfRange
  -- Both marks are written before push_back, which may throw and leaves them written.
  let marked := { world with
    highestSequence := world.highestSequence.insert command.entityId command.sequence
    latestTargetTick := world.latestTargetTick.insert command.entityId command.targetTick }
  set marked
  let pendingCommands ← pushBack velocityCommandSize marked.pendingCommands command
  set { marked with pendingCommands := sortCommands pendingCommands }
  return .accepted

/-- The first loop of `advance`: execute the commands of the next tick, stopping at the
first later one.
SRC: world.cpp:231-248 -/
def executeDue (nextIndex : UInt64) :
    List VelocityCommand → OrderedMap EntityId StoredEntity →
      Except Fault (OrderedMap EntityId StoredEntity)
  | [], entities => return entities
  | command :: rest, entities => do
    if command.targetTick < nextIndex then
      throw (.logicError "pending command became stale inside the simulation")
    if nextIndex < command.targetTick then
      return entities
    let stored ← mapAt entities command.entityId
    let state := { stored.state with
      velocity := command.velocity
      lastSequence := command.sequence }
    executeDue nextIndex rest (entities.insert command.entityId { stored with state })

/-- The body of the second loop of `advance`.
SRC: world.cpp:254-279 -/
def integrateEntity (duration positionLimit : Int64) (stored : StoredEntity) :
    Except Fault StoredEntity := do
  let integratedX ← integrateAxis stored.state.position.x.count
    stored.state.velocity.x.count stored.residualX duration positionLimit
  let integratedY ← integrateAxis stored.state.position.y.count
    stored.state.velocity.y.count stored.residualY duration positionLimit
  let position : Position2 := { x := ⟨integratedX.position⟩, y := ⟨integratedY.position⟩ }
  return {
    state := { stored.state with position }
    residualX := integratedX.residual
    residualY := integratedY.residual }

/-- SRC: world.cpp:224-294 -/
def advance : Member World Tick := do
  let world ← get
  let (nextTick, nextClock) ← Member.onCopy FixedStepClock.advance world.clock
  let dueEntities ← executeDue nextTick.index world.pendingCommands world.entities
  let duration := world.tickDuration.count
  let positionLimit := world.limits.maxAbsPosition.count
  let nextEntities ← dueEntities.traverse (integrateEntity duration positionLimit)
  set { world with
    clock := nextClock
    entities := nextEntities
    pendingCommands := world.pendingCommands.filter fun command =>
      command.targetTick ≠ nextTick.index }
  return nextTick

end World

end Tickline.Model
