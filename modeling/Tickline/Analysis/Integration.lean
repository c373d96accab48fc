import Tickline.Model.World
import Mathlib.Tactic.Linarith

/-!
# Limits and the integration of one axis

What the arithmetic helpers of the world compute, over unbounded integers.

* `withinSymmetricLimit_eq`: against a positive limit the check is total and decides
  `Within`.
* `checkedAdd_eq`: the guarded addition returns the sum or throws, and its guards are
  themselves in range.
* `integrateAxis_eq`: for a velocity and a residual inside the bounds that the world
  maintains, the integrated position and residual are the truncated quotient and
  remainder of the displacement, or the position left the limit and it throws.
-/

set_option autoImplicit false

namespace Tickline.Analysis

open Tickline.Model

theorem int64_lt_iff {a b : Int64} : a < b ↔ a.toInt < b.toInt := Int64.lt_iff_toInt_lt

theorem int64_le_iff {a b : Int64} : a ≤ b ↔ a.toInt ≤ b.toInt := Int64.le_iff_toInt_le

theorem toInt_zero : (0 : Int64).toInt = 0 := rfl

theorem int64Maximum_toInt : int64Maximum.toInt = 2 ^ 63 - 1 := by decide

theorem int64Minimum_toInt : int64Minimum.toInt = -2 ^ 63 := by decide

theorem microsecondsPerSecond_toInt : microsecondsPerSecond.toInt = 1000000 := by decide

/-- The bounds of a machine integer, in the form `omega` uses. -/
theorem toInt_bounds (a : Int64) : -2 ^ 63 ≤ a.toInt ∧ a.toInt < 2 ^ 63 :=
  ⟨a.le_toInt, a.toInt_lt⟩

/-! ## Symmetric limits -/

/-- A value is within a symmetric limit. -/
def Within (limit value : Int64) : Prop :=
  -limit.toInt ≤ value.toInt ∧ value.toInt ≤ limit.toInt

instance (limit value : Int64) : Decidable (Within limit value) := by
  unfold Within; infer_instance

/-- INTERNAL: against a positive limit the check does not overflow and decides `Within`.
SRC: world.cpp:14-19 -/
theorem withinSymmetricLimit_eq {limit : Int64} (h : 0 < limit.toInt) (value : Int64) :
    withinSymmetricLimit value limit = .ok (decide (Within limit value)) := by
  have hbounds := toInt_bounds limit
  obtain ⟨low, hlow, hval⟩ := Signed.exact_eq (-limit.toInt) (by omega) (by omega)
  have hneg : Signed.neg limit = .ok low := hlow
  have hsplit : (decide (low ≤ value) && decide (value ≤ limit)) = decide (Within limit value) := by
    rw [← Bool.decide_and]
    exact decide_eq_decide.mpr (by rw [int64_le_iff, int64_le_iff, hval, Within])
  simp only [withinSymmetricLimit, hneg, bind, Except.bind, pure, Except.pure, hsplit]

/-- Both components of a position are within a limit. -/
def PositionWithin (limit : Millimeters) (position : Position2) : Prop :=
  Within limit.count position.x.count ∧ Within limit.count position.y.count

instance (limit : Millimeters) (position : Position2) :
    Decidable (PositionWithin limit position) := by
  unfold PositionWithin; infer_instance

/-- Both components of a velocity are within a limit. -/
def VelocityWithin (limit : MillimetersPerSecond) (velocity : Velocity2) : Prop :=
  Within limit.count velocity.x.count ∧ Within limit.count velocity.y.count

instance (limit : MillimetersPerSecond) (velocity : Velocity2) :
    Decidable (VelocityWithin limit velocity) := by
  unfold VelocityWithin; infer_instance

/-- INTERNAL: the two-component check that three validity members share. -/
theorem within_both {limit : Int64} (h : 0 < limit.toInt) (x y : Int64) :
    (do
      if ← withinSymmetricLimit x limit then withinSymmetricLimit y limit
      else return false : Except Fault Bool) =
      .ok (decide (Within limit x ∧ Within limit y)) := by
  simp only [withinSymmetricLimit_eq h, bind, Except.bind]
  by_cases hx : Within limit x <;> simp [hx, pure, Except.pure]

/-- SRC: world.cpp:328-341 -/
theorem positionIsValid_eq {world : World} (h : 0 < world.limits.maxAbsPosition.count.toInt)
    (position : Position2) : world.positionIsValid position =
      .ok (decide (PositionWithin world.limits.maxAbsPosition position)) :=
  within_both h position.x.count position.y.count

/-- SRC: world.cpp:343-355 -/
theorem velocityIsValid_eq {world : World} (h : 0 < world.limits.maxAbsVelocity.count.toInt)
    (velocity : Velocity2) : world.velocityIsValid velocity =
      .ok (decide (VelocityWithin world.limits.maxAbsVelocity velocity)) :=
  within_both h velocity.x.count velocity.y.count

/-! ## Integration -/

/-- INTERNAL: the guards are in range, and they admit exactly the sums that are.
SRC: world.cpp:21-37 -/
theorem checkedAdd_eq (left right : Int64) :
    checkedAdd left right =
      if -2 ^ 63 ≤ left.toInt + right.toInt ∧ left.toInt + right.toInt < 2 ^ 63 then
        .ok (Int64.ofInt (left.toInt + right.toInt))
      else .error (.overflowError "signed position addition overflow") := by
  have hl := toInt_bounds left
  have hr := toInt_bounds right
  simp only [checkedAdd, Signed.sub, Signed.add, int64Maximum_toInt, int64Minimum_toInt,
    int64_lt_iff, toInt_zero]
  by_cases hpos : 0 < right.toInt
  · obtain ⟨bound, hbound, hval⟩ :=
      Signed.exact_eq (2 ^ 63 - 1 - right.toInt) (by omega) (by omega)
    have hneg : ¬ right.toInt < 0 := by omega
    simp only [hpos, hneg, ↓reduceIte, hbound, bind, Except.bind, hval]
    by_cases hover : 2 ^ 63 - 1 - right.toInt < left.toInt
    · rw [if_pos hover, if_neg (by omega)]
      rfl
    · rw [if_neg hover, if_pos (by omega)]
      exact Signed.exact_ok (by omega) (by omega)
  · by_cases hneg : right.toInt < 0
    · obtain ⟨bound, hbound, hval⟩ :=
        Signed.exact_eq (-2 ^ 63 - right.toInt) (by omega) (by omega)
      simp only [hpos, hneg, ↓reduceIte, hbound, bind, Except.bind, hval]
      by_cases hover : left.toInt < -2 ^ 63 - right.toInt
      · rw [if_pos hover, if_neg (by omega)]
        rfl
      · rw [if_neg hover, if_pos (by omega)]
        exact Signed.exact_ok (by omega) (by omega)
    · simp only [hpos, hneg, ↓reduceIte]
      rw [if_pos (by omega)]
      exact Signed.exact_ok (by omega) (by omega)

/-- What one tick moves an axis by, before it is split into millimeters and residual. -/
def displacement (velocity residual duration : Int64) : ℤ :=
  velocity.toInt * duration.toInt + residual.toInt

/-- The position one tick later, over unbounded integers. -/
def movedPosition (position velocity residual duration : Int64) : ℤ :=
  position.toInt + (displacement velocity residual duration).tdiv 1000000

/-- The remainder kept for the next tick. -/
def movedResidual (velocity residual duration : Int64) : ℤ :=
  (displacement velocity residual duration).tmod 1000000

/-- A residual is less than one millimeter. -/
def ResidualOk (residual : Int64) : Prop :=
  -1000000 < residual.toInt ∧ residual.toInt < 1000000

/-- The residual stays below one unit in absolute value. -/
theorem movedResidual_bounds (velocity residual duration : Int64) :
    -1000000 < movedResidual velocity residual duration ∧
      movedResidual velocity residual duration < 1000000 := by
  unfold movedResidual
  have hup := Int.tmod_lt_of_pos (displacement velocity residual duration)
    (b := 1000000) (by decide)
  have hdown := Int.tmod_lt_of_pos (-displacement velocity residual duration)
    (b := 1000000) (by decide)
  rw [Int.neg_tmod] at hdown
  omega

/-- **No displacement is lost**: what a tick adds to position and residual together is
the velocity times the duration. -/
theorem moved_conserves (position velocity residual duration : Int64) :
    1000000 * movedPosition position velocity residual duration +
        movedResidual velocity residual duration =
      1000000 * position.toInt + residual.toInt + velocity.toInt * duration.toInt := by
  have := Int.mul_tdiv_add_tmod (displacement velocity residual duration) 1000000
  unfold movedPosition movedResidual
  unfold displacement at *
  omega

/-- INTERNAL: a velocity within the limit that the constructor admits cannot overflow the
displacement. -/
theorem displacement_bounds {velocityLimit velocity residual duration : Int64}
    (hsafe : velocityLimit.toInt * duration.toInt + 999999 < 2 ^ 63)
    (hduration : 0 < duration.toInt) (hv : Within velocityLimit velocity)
    (hr : ResidualOk residual) :
    (-2 ^ 63 ≤ velocity.toInt * duration.toInt ∧ velocity.toInt * duration.toInt < 2 ^ 63) ∧
      -2 ^ 63 ≤ displacement velocity residual duration ∧
      displacement velocity residual duration < 2 ^ 63 := by
  obtain ⟨hlo, hhi⟩ := hv
  obtain ⟨hrlo, hrhi⟩ := hr
  have hup : velocity.toInt * duration.toInt ≤ velocityLimit.toInt * duration.toInt :=
    Int.mul_le_mul_of_nonneg_right hhi hduration.le
  have hdown : -(velocityLimit.toInt * duration.toInt) ≤ velocity.toInt * duration.toInt := by
    rw [← Int.neg_mul]
    exact Int.mul_le_mul_of_nonneg_right hlo hduration.le
  unfold displacement
  omega

/-- INTERNAL: the displacement and its two parts are computed exactly, so that integrating
an axis is adding the whole part and checking the limit.
SRC: world.cpp:51-61 -/
theorem integrateAxis_run {velocityLimit velocity residual duration : Int64}
    (position limit : Int64)
    (hsafe : velocityLimit.toInt * duration.toInt + 999999 < 2 ^ 63)
    (hduration : 0 < duration.toInt) (hv : Within velocityLimit velocity)
    (hr : ResidualOk residual) :
    ∃ whole rem : Int64,
      position.toInt + whole.toInt = movedPosition position velocity residual duration ∧
      rem.toInt = movedResidual velocity residual duration ∧
      integrateAxis position velocity residual duration limit = (do
        let nextPosition ← checkedAdd position whole
        if !(← withinSymmetricLimit nextPosition limit) then
          throw (.overflowError "integrated position exceeds configured world limit")
        return { position := nextPosition, residual := rem }) := by
  obtain ⟨⟨hplo, hphi⟩, hdlo, hdhi⟩ := displacement_bounds hsafe hduration hv hr
  have hresidual := movedResidual_bounds velocity residual duration
  have hquotient := Int.mul_tdiv_add_tmod (displacement velocity residual duration) 1000000
  unfold movedResidual at hresidual
  obtain ⟨product, hproduct, hproductVal⟩ := Signed.exact_eq _ hplo hphi
  obtain ⟨scaled, hscaled, hscaledVal⟩ := Signed.exact_eq _ hdlo hdhi
  obtain ⟨whole, hwhole, hwholeVal⟩ := Signed.exact_eq
    ((displacement velocity residual duration).tdiv 1000000) (by omega) (by omega)
  obtain ⟨rem, hrem, hremVal⟩ := Signed.exact_eq
    ((displacement velocity residual duration).tmod 1000000) (by omega) (by omega)
  have hadd : Signed.add product residual = .ok scaled := by
    rw [Signed.add, hproductVal]
    exact hscaled
  have hdiv : Signed.div scaled microsecondsPerSecond = .ok whole := by
    rw [Signed.div, if_neg (by decide), hscaledVal, microsecondsPerSecond_toInt]
    exact hwhole
  have hmod : Signed.mod scaled microsecondsPerSecond = .ok rem := by
    simp only [Signed.mod, hdiv, bind, Except.bind]
    rw [hscaledVal, microsecondsPerSecond_toInt]
    exact hrem
  refine ⟨whole, rem, ?_, hremVal, ?_⟩
  · rw [hwholeVal, movedPosition]
  · simp only [integrateAxis, Signed.mul, hproduct, hadd, hdiv, hmod, bind, Except.bind]

/-- **One axis, one tick.**  The integration returns the moved position and residual, or
throws because the position leaves the limit.
SRC: world.cpp:44-74 -/
theorem integrateAxis_eq {velocityLimit velocity residual duration limit : Int64} (position : Int64)
    (hsafe : velocityLimit.toInt * duration.toInt + 999999 < 2 ^ 63)
    (hduration : 0 < duration.toInt) (hlimit : 0 < limit.toInt)
    (hv : Within velocityLimit velocity) (hr : ResidualOk residual) :
    (∃ out, integrateAxis position velocity residual duration limit = .ok out ∧
      out.position.toInt = movedPosition position velocity residual duration ∧
      out.residual.toInt = movedResidual velocity residual duration ∧
      Within limit out.position) ∨
    ∃ what, integrateAxis position velocity residual duration limit =
        .error (.overflowError what) ∧
      ¬ (-limit.toInt ≤ movedPosition position velocity residual duration ∧
        movedPosition position velocity residual duration ≤ limit.toInt) := by
  obtain ⟨whole, rem, hmoved, hremVal, hrun⟩ :=
    integrateAxis_run position limit hsafe hduration hv hr
  have hlb := toInt_bounds limit
  rw [hrun, checkedAdd_eq, hmoved]
  by_cases hrange : -2 ^ 63 ≤ movedPosition position velocity residual duration ∧
      movedPosition position velocity residual duration < 2 ^ 63
  · have hval := Int64.toInt_ofInt_of_le hrange.1 hrange.2
    simp only [if_pos hrange, bind, Except.bind, withinSymmetricLimit_eq hlimit]
    by_cases hin : Within limit (Int64.ofInt (movedPosition position velocity residual duration))
    · left
      exact ⟨⟨_, rem⟩, by simp only [hin, decide_true]; rfl, hval, hremVal, hin⟩
    · right
      refine ⟨"integrated position exceeds configured world limit",
        by simp only [hin, decide_false]; rfl, ?_⟩
      rwa [Within, hval] at hin
  · right
    refine ⟨"signed position addition overflow", by simp only [if_neg hrange]; rfl, ?_⟩
    omega

end Tickline.Analysis
