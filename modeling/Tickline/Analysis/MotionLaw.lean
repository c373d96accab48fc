import Mathlib.Algebra.BigOperators.Intervals
import Mathlib.Tactic.Ring
import Tickline.Analysis.Marks
import Tickline.Library.Schedule

/-!
# The motion law

The exact law that the scheduler and the integrator implement together.  The commands
accepted for an entity since it was added form a schedule (`Library.inEffect`): at tick
`k` the entity moves with the velocity of the newest command whose target tick has come,
and with its initial velocity before the first.

`Follows` says that a world has followed that law up to its current tick.  Adding the
entity establishes it (`follows_added`), every call keeps it (`Follows.step`), and so it
holds after every run (`motion_law`).  The step that carries the argument is the tick:
the part of the queue that is due is exactly the part of the schedule with that target
tick (`Follows.due_eq`), and integration adds the new velocity without loss
(`moved_conserves`).
-/

set_option autoImplicit false

namespace Tickline.Analysis

open Tickline.Library Tickline.Model

/-! ## The law -/

/-- The accepted command with the greatest sequence among those whose target tick has come. -/
def governing (accepted : List VelocityCommand) (tick : ℕ) : Option VelocityCommand :=
  inEffect (fun command => command.sequence.toNat) (fun command => command.targetTick.toNat)
    accepted tick

/-- The velocity an entity moves with at a tick. -/
def velocityAt (initial : Velocity2) (accepted : List VelocityCommand) (tick : ℕ) : Velocity2 :=
  match governing accepted tick with
  | some command => command.velocity
  | none => initial

/-- The sequence of the command that governs a tick, zero before the first. -/
def sequenceAt (accepted : List VelocityCommand) (tick : ℕ) : UInt64 :=
  match governing accepted tick with
  | some command => command.sequence
  | none => 0

/-- A world has followed the law for an entity, from the tick at which it was added. -/
structure Follows (initial : EntityState) (start : ℕ) (accepted : List VelocityCommand)
    (world : World) (stored : StoredEntity) : Prop where
  stored_eq : world.entities.find? initial.id = some stored
  start_le : start ≤ world.clock.tickIndex.toNat
  own : ∀ command ∈ accepted, command.entityId = initial.id
  ordered : Ordered (fun command => command.sequence.toNat)
    (fun command => command.targetTick.toNat) accepted
  marks : ∀ command ∈ accepted, command.sequence ≤ highestOf world initial.id ∧
    command.targetTick ≤ latestOf world initial.id
  queue : queueOf world.pendingCommands initial.id =
    accepted.filter fun command => world.clock.tickIndex < command.targetTick
  velocity : stored.state.velocity =
    velocityAt initial.velocity accepted world.clock.tickIndex.toNat
  lastSequence : stored.state.lastSequence = sequenceAt accepted world.clock.tickIndex.toNat
  motionX : 1000000 * stored.state.position.x.count.toInt + stored.residualX.toInt =
    1000000 * initial.position.x.count.toInt + world.clock.tickDuration.count.toInt *
      ∑ k ∈ Finset.Ioc start world.clock.tickIndex.toNat,
        (velocityAt initial.velocity accepted k).x.count.toInt
  motionY : 1000000 * stored.state.position.y.count.toInt + stored.residualY.toInt =
    1000000 * initial.position.y.count.toInt + world.clock.tickDuration.count.toInt *
      ∑ k ∈ Finset.Ioc start world.clock.tickIndex.toNat,
        (velocityAt initial.velocity accepted k).y.count.toInt

/-! ## Adding the entity -/

/-- A new entity follows the law of the empty schedule. -/
theorem follows_added {world : World} (h : Invariant world) {entity : EntityState}
    (hadded : addDecision world entity = .added) :
    Follows entity world.clock.tickIndex.toNat [] (withEntity world entity)
      { state := { entity with lastSequence := 0 } } := by
  obtain ⟨hnew, -, -⟩ := addDecision_eq_added.mp hadded
  have hqueue : queueOf world.pendingCommands entity.id = [] := by
    apply List.filter_eq_nil_iff.mpr
    intro c hc
    simpa using h.entityId_ne hc hnew
  exact {
    stored_eq := OrderedMap.find?_insert_self _ _ _
    start_le := le_rfl
    own := by simp
    ordered := List.Pairwise.nil
    marks := by simp
    queue := hqueue
    velocity := rfl
    lastSequence := rfl
    motionX := by simp [withEntity]
    motionY := by simp [withEntity] }

/-! ## Calls other than the tick -/

section Calls

variable {initial : EntityState} {start : ℕ} {accepted : List VelocityCommand}
  {world world' : World} {stored : StoredEntity}

/-- INTERNAL: a call that keeps the clock, the entity and its part of the queue, and lowers
no mark, keeps the law. -/
theorem Follows.frame (hf : Follows initial start accepted world stored)
    (hclock : world'.clock = world.clock)
    (hstored : world'.entities.find? initial.id = world.entities.find? initial.id)
    (hhighest : highestOf world initial.id ≤ highestOf world' initial.id)
    (hlatest : latestOf world initial.id ≤ latestOf world' initial.id)
    (hqueue : queueOf world'.pendingCommands initial.id =
      queueOf world.pendingCommands initial.id) :
    Follows initial start accepted world' stored := by
  obtain ⟨h1, h2, h3, h4, h5, h6, h7, h8, h9, h10⟩ := hf
  refine ⟨hstored.trans h1, by rwa [hclock], h3, h4, fun c hc => ?_, ?_, by rwa [hclock],
    by rwa [hclock], by rwa [hclock], by rwa [hclock]⟩
  · exact ⟨UInt64.le_trans (h5 c hc).1 hhighest, UInt64.le_trans (h5 c hc).2 hlatest⟩
  · rw [hqueue, h6, hclock]

/-- A command that is queued for later ticks does not govern yet. -/
theorem governing_concat {command : VelocityCommand} {tick : ℕ}
    (hlater : tick < command.targetTick.toNat) :
    governing (accepted ++ [command]) tick = governing accepted tick :=
  inEffect_concat_of_lt hlater

/-- **An accepted command** joins the schedule and the entity's part of the queue alike. -/
theorem Follows.queued (h : Invariant world) (hf : Follows initial start accepted world stored)
    {command : VelocityCommand} (haccepted : queueDecision world command = .accepted)
    (hid : command.entityId = initial.id) :
    Follows initial start (accepted ++ [command]) (withCommand world command) stored := by
  obtain ⟨hfuture, -, hsequence, htarget, -⟩ := queueDecision_eq_accepted.mp haccepted
  rw [hid] at hsequence htarget
  have hlater := UInt64.lt_iff_toNat_lt.mp hfuture
  have hclock : (withCommand world command).clock = world.clock := rfl
  have hold : ∀ k ≤ world.clock.tickIndex.toNat,
      velocityAt initial.velocity (accepted ++ [command]) k =
        velocityAt initial.velocity accepted k :=
    fun k hk => by rw [velocityAt, governing_concat (hk.trans_lt hlater), velocityAt]
  refine ⟨hf.stored_eq, hf.start_le, ?_, hf.ordered.concat fun c hc => ?_, ?_, ?_, ?_, ?_, ?_, ?_⟩
  · intro c hc
    rcases List.mem_append.mp hc with hc | hc
    · exact hf.own c hc
    · rw [List.mem_singleton.mp hc, hid]
  · obtain ⟨hle, hle'⟩ := hf.marks c hc
    exact ⟨UInt64.lt_iff_toNat_lt.mp (UInt64.lt_of_le_of_lt hle hsequence),
      UInt64.le_iff_toNat_le.mp (UInt64.le_trans hle' htarget)⟩
  · intro c hc
    have hhighest : highestOf (withCommand world command) initial.id = command.sequence :=
      (highestOf_withMarks world command initial.id).trans (if_pos hid.symm)
    have hlatest : latestOf (withCommand world command) initial.id = command.targetTick :=
      (latestOf_withMarks world command initial.id).trans (if_pos hid.symm)
    rw [hhighest, hlatest]
    rcases List.mem_append.mp hc with hc | hc
    · obtain ⟨hle, hle'⟩ := hf.marks c hc
      exact ⟨UInt64.le_trans hle (UInt64.le_of_lt hsequence), UInt64.le_trans hle' htarget⟩
    · rw [List.mem_singleton.mp hc]
      exact ⟨UInt64.le_refl _, UInt64.le_refl _⟩
  · rw [h.queueOf_withCommand haccepted, if_pos hid, hf.queue, hclock, List.filter_append]
    simp [hfuture]
  · rw [hclock, hold _ le_rfl]
    exact hf.velocity
  · rw [hclock, sequenceAt, governing_concat hlater]
    exact hf.lastSequence
  · rw [hclock, Finset.sum_congr rfl fun k hk => by rw [hold k (Finset.mem_Ioc.mp hk).2]]
    exact hf.motionX
  · rw [hclock, Finset.sum_congr rfl fun k hk => by rw [hold k (Finset.mem_Ioc.mp hk).2]]
    exact hf.motionY

/-! ## The tick -/

/-- **What is due is what the schedule says**: nothing is lost, early or late. -/
theorem Follows.due_eq (hf : Follows initial start accepted world stored)
    (hadv : Advanced world world') :
    dueCommands world.pendingCommands world'.clock.tickIndex initial.id =
      accepted.filter fun command => command.targetTick.toNat = world'.clock.tickIndex.toNat := by
  have htick := hadv.tickIndex
  rw [dueCommands_eq, hf.queue, List.filter_filter]
  apply List.filter_congr
  intro c _
  rw [← Bool.decide_and]
  apply decide_eq_decide.mpr
  rw [UInt64.lt_iff_toNat_lt, ← UInt64.toNat_inj]
  omega

/-- The command that governs the new tick is the last one due, or the old one. -/
theorem Follows.governing_succ (hf : Follows initial start accepted world stored)
    (hadv : Advanced world world') :
    governing accepted world'.clock.tickIndex.toNat =
      (dueCommands world.pendingCommands world'.clock.tickIndex initial.id).getLast?.or
        (governing accepted world.clock.tickIndex.toNat) := by
  have htick := hadv.tickIndex
  rw [hf.due_eq hadv]
  exact inEffect_succ hf.ordered (by omega) (by omega)

/-- Executing what is due gives the entity the velocity and the sequence of the command
that governs the new tick. -/
theorem Follows.executed_eq (hf : Follows initial start accepted world stored)
    (hadv : Advanced world world') :
    (executed world world'.clock.tickIndex initial.id stored).state.velocity =
        velocityAt initial.velocity accepted world'.clock.tickIndex.toNat ∧
      (executed world world'.clock.tickIndex initial.id stored).state.lastSequence =
        sequenceAt accepted world'.clock.tickIndex.toNat := by
  rw [executed, foldl_applyCommand, velocityAt, sequenceAt, hf.governing_succ hadv]
  cases (dueCommands world.pendingCommands world'.clock.tickIndex initial.id).getLast? with
  | none => exact ⟨hf.velocity, hf.lastSequence⟩
  | some command => exact ⟨rfl, rfl⟩

/-- **A tick** moves the entity by the velocity that governs it, without loss. -/
theorem Follows.advanced (hf : Follows initial start accepted world stored)
    (hadv : Advanced world world') :
    ∃ stored', Follows initial start accepted world' stored' := by
  have htick := hadv.tickIndex
  rcases hadv.entities initial.id with ⟨hnone, -⟩ | ⟨was, stored', hwas, hstored', hmoved⟩
  · exact absurd (hnone.symm.trans hf.stored_eq) (by simp)
  obtain rfl : was = stored := Option.some.inj (hwas.symm.trans hf.stored_eq)
  obtain ⟨hvelocity, hsequence⟩ := hf.executed_eq hadv
  obtain ⟨-, hposition, hresidualX, hresidualY⟩ :=
    executed_frame world world'.clock.tickIndex initial.id was
  have hx := moved_conserves was.state.position.x.count
    (velocityAt initial.velocity accepted world'.clock.tickIndex.toNat).x.count was.residualX
    world.clock.tickDuration.count
  have hy := moved_conserves was.state.position.y.count
    (velocityAt initial.velocity accepted world'.clock.tickIndex.toNat).y.count was.residualY
    world.clock.tickDuration.count
  refine ⟨stored', hstored', by have := hf.start_le; omega, hf.own, hf.ordered, ?_, ?_, ?_, ?_,
    ?_, ?_⟩
  · intro c hc
    rw [hadv.highestOf, hadv.latestOf]
    exact hf.marks c hc
  · rw [hadv.pendingCommands, queueOf, List.filter_comm, ← queueOf, hf.queue, List.filter_filter]
    apply List.filter_congr
    intro c _
    rw [← Bool.decide_and]
    apply decide_eq_decide.mpr
    rw [UInt64.lt_iff_toNat_lt, UInt64.lt_iff_toNat_lt, ne_eq, ← UInt64.toNat_inj]
    omega
  · exact hmoved.velocity.trans hvelocity
  · exact hmoved.lastSequence.trans hsequence
  · rw [hmoved.positionX, hmoved.residualX, hvelocity, hposition, hresidualX, hadv.tickDuration,
      hx, hf.motionX, htick, Finset.sum_Ioc_succ_top hf.start_le]
    ring
  · rw [hmoved.positionY, hmoved.residualY, hvelocity, hposition, hresidualY, hadv.tickDuration,
      hy, hf.motionY, htick, Finset.sum_Ioc_succ_top hf.start_le]
    ring

/-! ## Runs -/

/-- **Every call keeps the law**, with the schedule grown by what the call had accepted. -/
theorem Follows.step (h : Invariant world) (hf : Follows initial start accepted world stored)
    {call : WorldCall} {answer : Answer} (hstep : WorldStep world call answer world') :
    ∃ stored', Follows initial start
      (accepted ++ acceptedCommands initial.id [(call, answer)]) world' stored' := by
  have hknown : world.entities.contains initial.id = true :=
    OrderedMap.contains_iff.mpr ⟨stored, hf.stored_eq⟩
  cases hstep with
  | added entity hadded =>
    have hne := known_ne_added hadded hknown
    refine ⟨stored, ?_⟩
    simp only [acceptedCommands, List.filterMap_cons, List.filterMap_nil, List.append_nil]
    refine hf.frame rfl (OrderedMap.find?_insert_of_ne _ _ hne) ?_ ?_ rfl
    · rw [highestOf_withEntity, if_neg hne]
      exact UInt64.le_refl _
    · rw [latestOf_withEntity, if_neg hne]
      exact UInt64.le_refl _
  | refusedEntity entity => exact ⟨stored, by simpa [acceptedCommands] using hf⟩
  | queued command haccepted =>
    by_cases hid : command.entityId = initial.id
    · exact ⟨stored, by simpa [acceptedCommands, hid] using hf.queued h haccepted hid⟩
    · refine ⟨stored, ?_⟩
      simp only [acceptedCommands, List.filterMap_cons, List.filterMap_nil, if_neg hid,
        List.append_nil]
      refine hf.frame rfl rfl (marks_le haccepted _).1 (marks_le haccepted _).2 ?_
      rw [h.queueOf_withCommand haccepted, if_neg hid]
  | queueFull command haccepted =>
    refine ⟨stored, ?_⟩
    simp only [acceptedCommands, List.filterMap_cons, List.filterMap_nil, List.append_nil]
    exact hf.frame rfl rfl (marks_le haccepted _).1 (marks_le haccepted _).2 rfl
  | refusedCommand command hrefused =>
    refine ⟨stored, ?_⟩
    cases hdecision : queueDecision world command <;> simp_all [acceptedCommands]
  | advanced _ hadv =>
    obtain ⟨stored', hf'⟩ := hf.advanced hadv
    exact ⟨stored', by simpa [acceptedCommands] using hf'⟩
  | advanceFailed => exact ⟨stored, by simpa [acceptedCommands] using hf⟩

end Calls

/-- The law holds after every run of calls on a world to which the entity was just added. -/
theorem follows_run {world : World} (h : Invariant world) {entity : EntityState}
    (hadded : addDecision world entity = .added) (calls : List WorldCall) :
    (∃ stored, Follows entity world.clock.tickIndex.toNat
      (acceptedCommands entity.id (World.machine.trace (withEntity world entity) calls))
      (World.machine.final (withEntity world entity) calls) stored) ∧
      (World.machine.final (withEntity world entity) calls).clock.tickDuration =
        world.clock.tickDuration := by
  have hrun := Machine.history (m := World.machine) (s := withEntity world entity)
    (J := fun trace world' => Invariant world' ∧
      (∃ stored, Follows entity world.clock.tickIndex.toNat (acceptedCommands entity.id trace)
        world' stored) ∧ world'.clock.tickDuration = world.clock.tickDuration)
    ⟨h.withEntity hadded, ⟨_, follows_added h hadded⟩, rfl⟩
    (fun trace call world' ⟨hworld', ⟨stored, hf⟩, hduration⟩ => by
      have hstep := worldStep hworld' call
      rw [acceptedCommands_append]
      exact ⟨hstep.invariant hworld', hf.step hworld' hstep, hstep.tickDuration.trans hduration⟩)
    calls
  exact hrun.2

/-- INTERNAL: what an answer that reports a new entity says of the world. -/
theorem added_eq {world : World} (h : Invariant world) {entity : EntityState}
    (hadded : World.machine.answer (.addEntity entity) world = .added .added) :
    addDecision world entity = .added ∧
      World.machine.next (.addEntity entity) world = withEntity world entity := by
  have hrun := addEntity_eq h.config entity
  simp only [Machine.answer, Machine.next, World.machine, Member.call, hrun,
    Answer.added.injEq] at hadded ⊢
  exact ⟨hadded, if_pos hadded⟩

/-- **The motion law.**  An entity is added to a reachable world at its current tick, and
any calls follow.  Then on each axis a million times the position, plus the residual, is a
million times the initial position plus the tick duration times the sum of the velocities
that governed the ticks since; and the last sequence is that of the governing command.
SRC: world.cpp:44-74, 177-294 -/
theorem motion_law {world : World} (hworld : world.Reachable) {entity : EntityState}
    (hadded : World.machine.answer (.addEntity entity) world = .added .added)
    (calls : List WorldCall) :
    let added := World.machine.next (.addEntity entity) world
    let final := World.machine.final added calls
    let accepted := acceptedCommands entity.id (World.machine.trace added calls)
    let ticks := Finset.Ioc world.currentTick.index.toNat final.currentTick.index.toNat
    ∃ stored, final.entities.find? entity.id = some stored ∧
      1000000 * stored.state.position.x.count.toInt + stored.residualX.toInt =
        1000000 * entity.position.x.count.toInt + world.tickDuration.count.toInt *
          ∑ k ∈ ticks, (velocityAt entity.velocity accepted k).x.count.toInt ∧
      1000000 * stored.state.position.y.count.toInt + stored.residualY.toInt =
        1000000 * entity.position.y.count.toInt + world.tickDuration.count.toInt *
          ∑ k ∈ ticks, (velocityAt entity.velocity accepted k).y.count.toInt ∧
      stored.state.velocity =
        velocityAt entity.velocity accepted final.currentTick.index.toNat ∧
      stored.state.lastSequence = sequenceAt accepted final.currentTick.index.toNat := by
  intro added final accepted ticks
  have h := (reachable_sound hworld).invariant
  obtain ⟨hdecision, hnext⟩ := added_eq h hadded
  obtain ⟨⟨stored, hf⟩, hduration⟩ := follows_run h hdecision calls
  rw [← hnext] at hf hduration
  have hx := hf.motionX
  have hy := hf.motionY
  rw [hduration] at hx hy
  exact ⟨stored, hf.stored_eq, hx, hy, hf.velocity, hf.lastSequence⟩

/-- The law for an entity at the origin of a world of hundred-millisecond ticks, with a
command for its second tick queued between the ticks. -/
theorem motion_law_two_ticks :
    let world := freshWorld ⟨100000⟩ {}
    let entity := originEntity ⟨1, by decide⟩ 1000
    let added := World.machine.next (.addEntity entity) world
    let calls : List WorldCall := [.advance, .queueVelocity
      { targetTick := 2, entityId := ⟨1, by decide⟩, sequence := 1, velocity := ⟨⟨-5⟩, ⟨7⟩⟩ },
      .advance]
    ∃ stored, (World.machine.final added calls).entities.find? entity.id = some stored ∧
      stored.state.lastSequence = sequenceAt
        (acceptedCommands entity.id (World.machine.trace added calls))
        (World.machine.final added calls).currentTick.index.toNat := by
  intro world entity added calls
  have hworld : world.Reachable := ⟨⟨100000⟩, {}, world, [], rfl, rfl⟩
  have hadded : World.machine.answer (.addEntity entity) world = .added .added := by decide +kernel
  obtain ⟨stored, hstored, -, -, -, hlast⟩ := motion_law hworld hadded calls
  exact ⟨stored, hstored, hlast⟩

end Tickline.Analysis
