import Tickline.Analysis.CommandQueue
import Tickline.Analysis.Integration

/-!
# What the members of a world compute

One specification per member, under what the constructor established (`ConfigOk`) and,
where a member looks an entity up in all three maps, under equal key sets (`SameKeys`).

* `make_eq`: the constructor returns `freshWorld` exactly when `ConfigOk` holds of it.
* `addEntity_eq`: `addDecision` says which check fails first; only an accepted entity
  changes the world, to `withEntity`.
* `queueVelocity_eq`: `queueDecision` likewise; an accepted command changes the world to
  `withCommand`, unless the queue is at its maximum size, where the throw leaves both
  marks written (`withMarks`).
* `clockAdvance_eq`, `integrateEntity_eq`: the two parts of a tick that can overflow.
-/

set_option autoImplicit false

namespace Tickline.Analysis

open Tickline.Library Tickline.Model

/-- What the constructor checks of the duration and the limits; nothing changes either.
SRC: world.cpp:93-126 -/
structure ConfigOk (world : World) : Prop where
  duration_pos : 0 < world.clock.tickDuration.count.toInt
  position_pos : 0 < world.limits.maxAbsPosition.count.toInt
  velocity_pos : 0 < world.limits.maxAbsVelocity.count.toInt
  safe : world.limits.maxAbsVelocity.count.toInt * world.clock.tickDuration.count.toInt +
    999999 < 2 ^ 63

/-- The three maps have the same keys. -/
def SameKeys (world : World) : Prop :=
  ∀ id, world.highestSequence.contains id = world.entities.contains id ∧
    world.latestTargetTick.contains id = world.entities.contains id

/-! ## The constructor -/

/-- The world a successful construction returns: no entity, nothing queued, tick zero. -/
def freshWorld (duration : Microseconds) (limits : WorldLimits) : World where
  clock := { tickDuration := duration }
  limits := limits
  entities := .empty
  highestSequence := .empty
  latestTargetTick := .empty
  pendingCommands := []

/-- INTERNAL: the constructor's bound on the velocity does not overflow, and it is the
largest velocity whose displacement, with a residual, still fits.
SRC: world.cpp:117-125 -/
theorem safeVelocityLimit_eq {duration : Int64} (hduration : 0 < duration.toInt) :
    ∃ safe, Signed.sub microsecondsPerSecond 1 = .ok 999999 ∧
      Signed.sub int64Maximum 999999 = .ok 9223372036853775808 ∧
      Signed.div 9223372036853775808 duration = .ok safe ∧
      ∀ limit, safe < limit ↔ ¬ limit.toInt * duration.toInt + 999999 < 2 ^ 63 := by
  have hroom : (9223372036853775808 : Int64).toInt = 9223372036853775808 := by decide
  have hquotient : (9223372036853775808 : ℤ).tdiv duration.toInt =
      9223372036853775808 / duration.toInt := Int.tdiv_eq_ediv_of_nonneg (by decide)
  have hle : (9223372036853775808 : ℤ) / duration.toInt ≤ 9223372036853775808 :=
    Int.ediv_le_self _ (by decide)
  have hnonneg : 0 ≤ (9223372036853775808 : ℤ) / duration.toInt :=
    Int.ediv_nonneg (by decide) hduration.le
  obtain ⟨safe, hsafe, hval⟩ := Signed.exact_eq
    ((9223372036853775808 : ℤ) / duration.toInt) (by omega) (by omega)
  refine ⟨safe, by decide, by decide, ?_, fun limit => ?_⟩
  · have hne : duration ≠ 0 := by
      intro hzero
      rw [hzero, toInt_zero] at hduration
      exact absurd hduration (by decide)
    rw [Signed.div, if_neg hne, hroom, hquotient]
    exact hsafe
  · rw [int64_lt_iff, hval, ← not_le, Int.le_ediv_iff_mul_le hduration]
    omega

/-- **The constructor** accepts exactly the durations and limits of `ConfigOk`.
SRC: world.cpp:93-126 -/
theorem make_eq (duration : Microseconds) (limits : WorldLimits) :
    (World.make duration limits = .ok (freshWorld duration limits) ∧
        ConfigOk (freshWorld duration limits)) ∨
      (∃ what, World.make duration limits = .error (.invalidArgument what)) ∧
        ¬ ConfigOk (freshWorld duration limits) := by
  by_cases hduration : duration.count ≤ 0
  · refine Or.inr ⟨⟨"tick duration must be greater than zero", ?_⟩, fun h => ?_⟩
    · simp only [World.make, FixedStepClock.make, if_pos hduration]
      rfl
    · exact absurd (int64_le_iff.mp hduration) (Int.not_le.mpr h.duration_pos)
  by_cases hposition : limits.maxAbsPosition.count ≤ 0
  · refine Or.inr ⟨⟨"maximum absolute position must be positive", ?_⟩, fun h => ?_⟩
    · simp only [World.make, FixedStepClock.make, if_neg hduration, if_pos hposition]
      rfl
    · exact absurd (int64_le_iff.mp hposition) (Int.not_le.mpr h.position_pos)
  by_cases hvelocity : limits.maxAbsVelocity.count ≤ 0
  · refine Or.inr ⟨⟨"maximum absolute velocity must be positive", ?_⟩, fun h => ?_⟩
    · simp only [World.make, FixedStepClock.make, if_neg hduration, if_neg hposition,
        if_pos hvelocity]
      rfl
    · exact absurd (int64_le_iff.mp hvelocity) (Int.not_le.mpr h.velocity_pos)
  have hd : 0 < duration.count.toInt := by
    rwa [int64_le_iff, toInt_zero, Int.not_le] at hduration
  have hp : 0 < limits.maxAbsPosition.count.toInt := by
    rwa [int64_le_iff, toInt_zero, Int.not_le] at hposition
  have hv : 0 < limits.maxAbsVelocity.count.toInt := by
    rwa [int64_le_iff, toInt_zero, Int.not_le] at hvelocity
  obtain ⟨safe, hlow, hhigh, hdiv, hguard⟩ := safeVelocityLimit_eq hd
  have hrun : World.make duration limits =
      if safe < limits.maxAbsVelocity.count then .error (.invalidArgument
        "velocity limit and tick duration can overflow integration")
      else .ok (freshWorld duration limits) := by
    simp only [World.make, FixedStepClock.make, if_neg hduration, if_neg hposition,
      if_neg hvelocity, hlow, hhigh, hdiv, bind, Except.bind]
    rfl
  by_cases hover : safe < limits.maxAbsVelocity.count
  · exact Or.inr ⟨⟨_, hrun.trans (if_pos hover)⟩, fun h => (hguard _).mp hover h.safe⟩
  · exact Or.inl ⟨hrun.trans (if_neg hover), hd, hp, hv,
      not_not.mp ((hguard _).not.mp hover)⟩

/-! ## Adding an entity -/

/-- The result of adding an entity.
SRC: world.cpp:143-175 -/
def addDecision (world : World) (entity : EntityState) : AddEntityResult :=
  if world.entities.contains entity.id then .duplicateId
  else if ¬ PositionWithin world.limits.maxAbsPosition entity.position then .positionOutOfRange
  else if ¬ VelocityWithin world.limits.maxAbsVelocity entity.velocity then .velocityOutOfRange
  else .added

/-- The world with a new entity at rest in its history: nothing executed, nothing queued. -/
def withEntity (world : World) (entity : EntityState) : World :=
  { world with
    entities := world.entities.insert entity.id { state := { entity with lastSequence := 0 } }
    highestSequence := world.highestSequence.insert entity.id 0
    latestTargetTick := world.latestTargetTick.insert entity.id world.clock.tickIndex }

/-- What an entity must be to be added. -/
theorem addDecision_eq_added {world : World} {entity : EntityState} :
    addDecision world entity = .added ↔ world.entities.contains entity.id = false ∧
      PositionWithin world.limits.maxAbsPosition entity.position ∧
      VelocityWithin world.limits.maxAbsVelocity entity.velocity := by
  unfold addDecision
  split_ifs with hdup hpos hvel <;> simp_all

/-- **Adding an entity** decides by `addDecision` and changes nothing when it refuses.
SRC: world.cpp:143-175 -/
theorem addEntity_eq {world : World} (h : ConfigOk world) (entity : EntityState) :
    World.addEntity entity world = .ok (addDecision world entity)
      (if addDecision world entity = .added then withEntity world entity else world) := by
  simp only [World.addEntity, Member.bind_apply, Member.ite_apply, Member.get_apply,
    positionIsValid_eq h.position_pos, velocityIsValid_eq h.velocity_pos, Member.lift_ok,
    Member.pure_apply, Member.set_apply, addDecision]
  by_cases hdup : world.entities.contains entity.id
  · simp [hdup]
  by_cases hpos : PositionWithin world.limits.maxAbsPosition entity.position
  · by_cases hvel : VelocityWithin world.limits.maxAbsVelocity entity.velocity
    · simp [hdup, hpos, hvel, withEntity, World.currentTick, FixedStepClock.currentTick]
    · simp [hdup, hpos, hvel]
  · simp [hdup, hpos]

/-! ## Queueing a command -/

/-- The highest sequence queued for an entity, zero when there is no such entity. -/
def highestOf (world : World) (id : EntityId) : UInt64 := (world.highestSequence.find? id).getD 0

/-- The latest target tick queued for an entity, zero when there is no such entity. -/
def latestOf (world : World) (id : EntityId) : UInt64 := (world.latestTargetTick.find? id).getD 0

/-- The result of queueing a command.
SRC: world.cpp:177-222 -/
def queueDecision (world : World) (command : VelocityCommand) : QueueCommandResult :=
  if command.targetTick ≤ world.clock.tickIndex then .staleTick
  else if ¬ world.entities.contains command.entityId then .unknownEntity
  else if command.sequence ≤ highestOf world command.entityId then .sequenceNotIncreasing
  else if command.targetTick < latestOf world command.entityId then .targetTickRegression
  else if ¬ VelocityWithin world.limits.maxAbsVelocity command.velocity then .velocityOutOfRange
  else .accepted

/-- The world with both marks of a command written. -/
def withMarks (world : World) (command : VelocityCommand) : World :=
  { world with
    highestSequence := world.highestSequence.insert command.entityId command.sequence
    latestTargetTick := world.latestTargetTick.insert command.entityId command.targetTick }

/-- The world with a command in its queue. -/
def withCommand (world : World) (command : VelocityCommand) : World :=
  { withMarks world command with
    pendingCommands := sortCommands (world.pendingCommands ++ [command]) }

/-- What a command must be to be queued. -/
theorem queueDecision_eq_accepted {world : World} {command : VelocityCommand} :
    queueDecision world command = .accepted ↔
      world.clock.tickIndex < command.targetTick ∧
      world.entities.contains command.entityId = true ∧
      highestOf world command.entityId < command.sequence ∧
      latestOf world command.entityId ≤ command.targetTick ∧
      VelocityWithin world.limits.maxAbsVelocity command.velocity := by
  unfold queueDecision
  split_ifs with hstale hknown hsequence hregress hvel <;>
    simp_all [UInt64.not_lt, UInt64.not_le]

/-- **Queueing a command** decides by `queueDecision` and changes nothing when it refuses.
SRC: world.cpp:177-222 -/
theorem queueVelocity_eq {world : World} (h : ConfigOk world) (hkeys : SameKeys world)
    (command : VelocityCommand) :
    World.queueVelocity command world =
      if queueDecision world command = .accepted then
        if world.pendingCommands.length < vectorMaxSize World.velocityCommandSize then
          .ok .accepted (withCommand world command)
        else .error (.lengthError "vector") (withMarks world command)
      else .ok (queueDecision world command) world := by
  simp only [World.queueVelocity, Member.bind_apply, Member.ite_apply, Member.get_apply,
    velocityIsValid_eq h.velocity_pos, Member.lift_ok, Member.pure_apply, Member.set_apply,
    queueDecision, World.currentTick, FixedStepClock.currentTick]
  by_cases hstale : command.targetTick ≤ world.clock.tickIndex
  · simp [hstale]
  by_cases hknown : world.entities.contains command.entityId
  · -- Equal key sets: neither `at()` can miss an entity that `contains` has found.
    obtain ⟨hh, hl⟩ := hkeys command.entityId
    obtain ⟨highest, hhighest⟩ := OrderedMap.contains_iff.mp (hh.trans hknown)
    obtain ⟨latest, hlatest⟩ := OrderedMap.contains_iff.mp (hl.trans hknown)
    simp only [mapAt, hhighest, hlatest, Member.lift_ok, highestOf, latestOf, Option.getD_some]
    by_cases hseq : command.sequence ≤ highest
    · simp [hstale, hknown, hseq]
    by_cases hregress : command.targetTick < latest
    · simp [hstale, hknown, hseq, hregress]
    by_cases hvel : VelocityWithin world.limits.maxAbsVelocity command.velocity
    · by_cases hroom : world.pendingCommands.length < vectorMaxSize World.velocityCommandSize
      · simp [hstale, hknown, hseq, hregress, hvel, hroom, pushBack, withCommand, withMarks]
      · simp [hstale, hknown, hseq, hregress, hvel, hroom, pushBack, withMarks]
    · simp [hstale, hknown, hseq, hregress, hvel]
  · simp [hstale, hknown]

/-! ## The parts of a tick -/

/-- The clock moves by one tick and one duration, or throws at the end of its index or of its
elapsed time and stays.
SRC: tick_clock.hpp:44-62 -/
theorem clockAdvance_eq (clock : FixedStepClock) (h : 0 < clock.tickDuration.count.toInt) :
    (∃ next, FixedStepClock.advance clock = .ok next.currentTick next ∧
      next.tickIndex.toNat = clock.tickIndex.toNat + 1 ∧
      next.elapsed.count.toInt = clock.elapsed.count.toInt + clock.tickDuration.count.toInt ∧
      next.tickDuration = clock.tickDuration) ∨
    (FixedStepClock.advance clock = .error (.overflowError "tick index overflow") clock ∧
      clock.tickIndex.toNat = 2 ^ 64 - 1) ∨
    FixedStepClock.advance clock =
        .error (.overflowError "simulation elapsed time overflow") clock ∧
      2 ^ 63 ≤ clock.elapsed.count.toInt + clock.tickDuration.count.toInt := by
  have hd := toInt_bounds clock.tickDuration.count
  have he := toInt_bounds clock.elapsed.count
  obtain ⟨bound, hbound, hval⟩ :=
    Signed.exact_eq (2 ^ 63 - 1 - clock.tickDuration.count.toInt) (by omega) (by omega)
  have hsub : Signed.sub int64Maximum clock.tickDuration.count = .ok bound := by
    rw [Signed.sub, int64Maximum_toInt]
    exact hbound
  have hguard : bound < clock.elapsed.count ↔
      2 ^ 63 ≤ clock.elapsed.count.toInt + clock.tickDuration.count.toInt := by
    rw [int64_lt_iff, hval]
    omega
  simp only [FixedStepClock.advance, Member.bind_apply, Member.ite_apply, Member.get_apply,
    Member.throw_apply, hsub, Member.lift_ok, hguard]
  by_cases hidx : clock.tickIndex = UInt64.ofNat (2 ^ 64 - 1)
  · exact Or.inr (Or.inl ⟨by rw [if_pos hidx], by rw [hidx]; rfl⟩)
  rw [if_neg hidx]
  by_cases hover : 2 ^ 63 ≤ clock.elapsed.count.toInt + clock.tickDuration.count.toInt
  · exact Or.inr (Or.inr ⟨by rw [if_pos hover], hover⟩)
  · obtain ⟨next, hnext, hnextVal⟩ := Signed.exact_eq
      (clock.elapsed.count.toInt + clock.tickDuration.count.toInt) (by omega) (by omega)
    have hadd : Signed.add clock.elapsed.count clock.tickDuration.count = .ok next := hnext
    refine Or.inl ⟨{ clock with tickIndex := clock.tickIndex + 1, elapsed := ⟨next⟩ }, ?_, ?_,
      hnextVal, rfl⟩
    · rw [if_neg hover]
      simp [hadd]
    · have hne : clock.tickIndex.toNat ≠ 2 ^ 64 - 1 := fun hn => hidx (UInt64.toNat_inj.mp hn)
      have hlt := clock.tickIndex.toNat_lt
      rw [UInt64.toNat_add]
      simp
      omega

/-- One entity after the integration of one tick. -/
structure Moved (world : World) (stored stored' : StoredEntity) : Prop where
  id : stored'.state.id = stored.state.id
  velocity : stored'.state.velocity = stored.state.velocity
  lastSequence : stored'.state.lastSequence = stored.state.lastSequence
  positionX : stored'.state.position.x.count.toInt = movedPosition stored.state.position.x.count
    stored.state.velocity.x.count stored.residualX world.clock.tickDuration.count
  positionY : stored'.state.position.y.count.toInt = movedPosition stored.state.position.y.count
    stored.state.velocity.y.count stored.residualY world.clock.tickDuration.count
  residualX : stored'.residualX.toInt = movedResidual stored.state.velocity.x.count
    stored.residualX world.clock.tickDuration.count
  residualY : stored'.residualY.toInt = movedResidual stored.state.velocity.y.count
    stored.residualY world.clock.tickDuration.count
  within : PositionWithin world.limits.maxAbsPosition stored'.state.position

/-- One tick takes an entity past the position limit on one of its axes. -/
def LeavesLimit (world : World) (stored : StoredEntity) : Prop :=
  world.limits.maxAbsPosition.count.toInt < |movedPosition stored.state.position.x.count
      stored.state.velocity.x.count stored.residualX world.clock.tickDuration.count| ∨
    world.limits.maxAbsPosition.count.toInt < |movedPosition stored.state.position.y.count
      stored.state.velocity.y.count stored.residualY world.clock.tickDuration.count|

/-- An entity inside the limits moves, or the integration throws because it leaves them.
SRC: world.cpp:254-279 -/
theorem integrateEntity_eq {world : World} (h : ConfigOk world) {stored : StoredEntity}
    (hv : VelocityWithin world.limits.maxAbsVelocity stored.state.velocity)
    (hx : ResidualOk stored.residualX) (hy : ResidualOk stored.residualY) :
    (∃ stored', World.integrateEntity world.clock.tickDuration.count
        world.limits.maxAbsPosition.count stored = .ok stored' ∧ Moved world stored stored') ∨
      ∃ what, World.integrateEntity world.clock.tickDuration.count
        world.limits.maxAbsPosition.count stored = .error (.overflowError what) ∧
        LeavesLimit world stored := by
  rcases integrateAxis_eq stored.state.position.x.count h.safe h.duration_pos
    h.position_pos hv.1 hx with ⟨outX, hrunX, hposX, hresX, hinX⟩ | ⟨what, hrunX, houtX⟩
  · rcases integrateAxis_eq stored.state.position.y.count h.safe h.duration_pos
      h.position_pos hv.2 hy with ⟨outY, hrunY, hposY, hresY, hinY⟩ | ⟨what, hrunY, houtY⟩
    · left
      refine ⟨_, by simp only [World.integrateEntity, hrunX, hrunY, bind, Except.bind]; rfl, ?_⟩
      exact ⟨rfl, rfl, rfl, hposX, hposY, hresX, hresY, hinX, hinY⟩
    · right
      refine ⟨what, by simp only [World.integrateEntity, hrunX, hrunY, bind, Except.bind], ?_⟩
      rw [← abs_le, not_le] at houtY
      exact Or.inr houtY
  · right
    refine ⟨what, by simp only [World.integrateEntity, hrunX, bind, Except.bind], ?_⟩
    rw [← abs_le, not_le] at houtX
    exact Or.inl houtX

end Tickline.Analysis
