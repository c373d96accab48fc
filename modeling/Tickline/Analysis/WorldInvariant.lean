import Tickline.Analysis.WorldSpec
import Tickline.Model.Runs

/-!
# The representation invariant of the world

`Invariant` ties the five containers of a world together.  A constructed world has it
(`make_sound`), every member keeps it, whether it accepts, refuses or throws, and so
it holds of every reachable world (`reachable_sound`).

The tick is the member that relies on it: `advance_eq` shows that on a world with the
invariant a tick either performs `Advanced` or throws an overflow error and leaves the
world as it was.  Its case of a stale command, its map lookups and the undefined cases of
its arithmetic do not arise.
-/

set_option autoImplicit false

namespace Tickline.Analysis

open Tickline.Library Tickline.Model

/-- What holds of a stored entity. -/
structure EntityOk (world : World) (id : EntityId) (stored : StoredEntity) : Prop where
  id_eq : stored.state.id = id
  position : PositionWithin world.limits.maxAbsPosition stored.state.position
  velocity : VelocityWithin world.limits.maxAbsVelocity stored.state.velocity
  residualX : ResidualOk stored.residualX
  residualY : ResidualOk stored.residualY
  lastSequence_le : stored.state.lastSequence ≤ highestOf world id

/-- What holds of a pending command. -/
structure PendingOk (world : World) (command : VelocityCommand) : Prop where
  future : world.clock.tickIndex < command.targetTick
  velocity : VelocityWithin world.limits.maxAbsVelocity command.velocity
  known : ∃ stored, world.entities.find? command.entityId = some stored ∧
    stored.state.lastSequence < command.sequence
  sequence_le : command.sequence ≤ highestOf world command.entityId
  target_le : command.targetTick ≤ latestOf world command.entityId

/-- The representation invariant. -/
structure Invariant (world : World) : Prop where
  config : ConfigOk world
  elapsed : world.clock.elapsed.count.toInt =
    world.clock.tickIndex.toNat * world.clock.tickDuration.count.toInt
  sameKeys : SameKeys world
  entities : ∀ id stored, world.entities.find? id = some stored → EntityOk world id stored
  sorted : world.pendingCommands.Pairwise CommandBefore
  pending : ∀ command ∈ world.pendingCommands, PendingOk world command
  monotone : ∀ a ∈ world.pendingCommands, ∀ b ∈ world.pendingCommands,
    a.entityId = b.entityId → a.sequence ≤ b.sequence → a.targetTick ≤ b.targetTick

/-- The queue is no longer than a vector can be. -/
def Fits (world : World) : Prop :=
  world.pendingCommands.length ≤ vectorMaxSize World.velocityCommandSize

/-- Both of these, as every run keeps them. -/
structure Sound (world : World) : Prop where
  invariant : Invariant world
  fits : Fits world

/-- Duration and limits are all that `ConfigOk` reads. -/
theorem ConfigOk.congr {world world' : World} (h : ConfigOk world)
    (hduration : world'.clock.tickDuration = world.clock.tickDuration)
    (hlimits : world'.limits = world.limits) : ConfigOk world' := by
  obtain ⟨hd, hp, hv, hs⟩ := h
  exact ⟨hduration ▸ hd, hlimits ▸ hp, hlimits ▸ hv, by rwa [hduration, hlimits]⟩

/-! ## The constructor -/

/-- A constructed world is the fresh one. -/
theorem make_eq_fresh {duration : Microseconds} {limits : WorldLimits} {world : World}
    (h : World.make duration limits = .ok world) :
    freshWorld duration limits = world ∧ ConfigOk (freshWorld duration limits) := by
  rcases make_eq duration limits with ⟨hmake, hconfig⟩ | ⟨⟨what, hmake⟩, -⟩
  · exact ⟨Except.ok.inj (hmake.symm.trans h), hconfig⟩
  · rw [hmake] at h
    cases h

/-- A constructed world has the invariant. -/
theorem make_sound {duration : Microseconds} {limits : WorldLimits} {world : World}
    (h : World.make duration limits = .ok world) : Sound world := by
  obtain ⟨rfl, hconfig⟩ := make_eq_fresh h
  refine ⟨?_, Nat.zero_le _⟩
  exact {
    config := hconfig
    elapsed := by simp [freshWorld]
    sameKeys := fun _ => ⟨rfl, rfl⟩
    entities := by simp [freshWorld]
    sorted := List.Pairwise.nil
    pending := by simp [freshWorld]
    monotone := by simp [freshWorld] }

/-! ## Adding an entity -/

theorem highestOf_withEntity (world : World) (entity : EntityState) (id : EntityId) :
    highestOf (withEntity world entity) id = if id = entity.id then 0 else highestOf world id := by
  simp only [highestOf, withEntity, OrderedMap.find?_insert]
  split_ifs <;> rfl

theorem latestOf_withEntity (world : World) (entity : EntityState) (id : EntityId) :
    latestOf (withEntity world entity) id =
      if id = entity.id then world.clock.tickIndex else latestOf world id := by
  simp only [latestOf, withEntity, OrderedMap.find?_insert]
  split_ifs <;> rfl

theorem contains_insert {α : Type} (m : OrderedMap EntityId α) (id j : EntityId) (v : α) :
    (m.insert id v).contains j = (decide (j = id) || m.contains j) := by
  rw [OrderedMap.contains, OrderedMap.find?_insert, OrderedMap.contains]
  by_cases h : j = id <;> simp [h]

/-- A pending command is not for an entity that is yet to be added. -/
theorem Invariant.entityId_ne {world : World} (h : Invariant world) {command : VelocityCommand}
    (hc : command ∈ world.pendingCommands) {id : EntityId}
    (hnew : world.entities.contains id = false) : command.entityId ≠ id := by
  rintro rfl
  obtain ⟨stored, hstored, -⟩ := (h.pending command hc).known
  simp [OrderedMap.contains, hstored] at hnew

/-- Adding an entity keeps the invariant. -/
theorem Invariant.withEntity {world : World} (h : Invariant world) {entity : EntityState}
    (hadded : addDecision world entity = .added) : Invariant (withEntity world entity) := by
  obtain ⟨hnew, hposition, hvelocity⟩ := addDecision_eq_added.mp hadded
  refine ⟨h.config.congr rfl rfl, h.elapsed, ?_, ?_, h.sorted, ?_, h.monotone⟩
  · intro id
    simp only [Analysis.withEntity, contains_insert, h.sameKeys id, and_self]
  · intro id stored hstored
    simp only [Analysis.withEntity, OrderedMap.find?_insert] at hstored
    split_ifs at hstored with hid
    · have hzero : ResidualOk 0 := ⟨by decide, by decide⟩
      cases hstored
      refine ⟨hid.symm, hposition, hvelocity, hzero, hzero, ?_⟩
      simp [highestOf_withEntity, hid]
    · obtain ⟨hold1, hold2, hold3, hold4, hold5, hold6⟩ := h.entities id stored hstored
      exact ⟨hold1, hold2, hold3, hold4, hold5, by rwa [highestOf_withEntity, if_neg hid]⟩
  · intro command hc
    have hne := h.entityId_ne hc hnew
    obtain ⟨hfuture, hvel, ⟨stored, hstored, hlast⟩, hseq, htarget⟩ := h.pending command hc
    refine ⟨hfuture, hvel, ⟨stored, ?_, hlast⟩, ?_, ?_⟩
    · simpa [Analysis.withEntity, OrderedMap.find?_insert, hne] using hstored
    · rwa [highestOf_withEntity, if_neg hne]
    · rwa [latestOf_withEntity, if_neg hne]

/-! ## Queueing a command -/

theorem highestOf_withMarks (world : World) (command : VelocityCommand) (id : EntityId) :
    highestOf (withMarks world command) id =
      if id = command.entityId then command.sequence else highestOf world id := by
  simp only [highestOf, withMarks, OrderedMap.find?_insert]
  split_ifs <;> rfl

theorem latestOf_withMarks (world : World) (command : VelocityCommand) (id : EntityId) :
    latestOf (withMarks world command) id =
      if id = command.entityId then command.targetTick else latestOf world id := by
  simp only [latestOf, withMarks, OrderedMap.find?_insert]
  split_ifs <;> rfl

/-- Marks only rise when a command is accepted. -/
theorem marks_le {world : World} {command : VelocityCommand}
    (haccepted : queueDecision world command = .accepted) (id : EntityId) :
    highestOf world id ≤ highestOf (withMarks world command) id ∧
      latestOf world id ≤ latestOf (withMarks world command) id := by
  obtain ⟨-, -, hsequence, htarget, -⟩ := queueDecision_eq_accepted.mp haccepted
  rw [highestOf_withMarks, latestOf_withMarks]
  split_ifs with hid
  · subst hid
    exact ⟨UInt64.le_of_lt hsequence, htarget⟩
  · exact ⟨UInt64.le_refl _, UInt64.le_refl _⟩

/-- Writing the marks of an accepted command, with the queue as it was. -/
theorem Invariant.withMarks {world : World} (h : Invariant world) {command : VelocityCommand}
    (haccepted : queueDecision world command = .accepted) :
    Invariant (withMarks world command) := by
  obtain ⟨-, hknown, -⟩ := queueDecision_eq_accepted.mp haccepted
  refine ⟨h.config.congr rfl rfl, h.elapsed, ?_, ?_, h.sorted, ?_, h.monotone⟩
  · intro id
    obtain ⟨hh, hl⟩ := h.sameKeys id
    simp only [Analysis.withMarks, contains_insert, hh, hl, and_self, Bool.or_eq_right_iff_imp,
      decide_eq_true_eq]
    rintro rfl
    exact hknown
  · intro id stored hstored
    obtain ⟨hold1, hold2, hold3, hold4, hold5, hold6⟩ := h.entities id stored hstored
    exact ⟨hold1, hold2, hold3, hold4, hold5, UInt64.le_trans hold6 (marks_le haccepted id).1⟩
  · intro c hc
    obtain ⟨hfuture, hvel, hstored, hseq, htarget⟩ := h.pending c hc
    obtain ⟨hhighest, hlatest⟩ := marks_le haccepted c.entityId
    exact ⟨hfuture, hvel, hstored, UInt64.le_trans hseq hhighest, UInt64.le_trans htarget hlatest⟩

/-- An accepted command is ahead of everything pending for its entity. -/
theorem Invariant.ahead {world : World} (h : Invariant world) {command c : VelocityCommand}
    (haccepted : queueDecision world command = .accepted) (hc : c ∈ world.pendingCommands)
    (hid : c.entityId = command.entityId) :
    c.sequence < command.sequence ∧ c.targetTick ≤ command.targetTick := by
  obtain ⟨-, -, hsequence, htarget, -⟩ := queueDecision_eq_accepted.mp haccepted
  have hok := h.pending c hc
  rw [← hid] at hsequence htarget
  exact ⟨UInt64.lt_of_le_of_lt hok.sequence_le hsequence, UInt64.le_trans hok.target_le htarget⟩

/-- INTERNAL: the queue has one more command. -/
theorem mem_withCommand {world : World} {command c : VelocityCommand} :
    c ∈ (withCommand world command).pendingCommands ↔
      c ∈ world.pendingCommands ∨ c = command := by
  rw [withCommand, (sortCommands_perm _).mem_iff, List.mem_append, List.mem_singleton]

/-- INTERNAL: the sort keeps the queue strictly sorted when a command is accepted. -/
theorem Invariant.enqueue_sorted {world : World} (h : Invariant world) {command : VelocityCommand}
    (haccepted : queueDecision world command = .accepted) :
    (Analysis.withCommand world command).pendingCommands.Pairwise CommandBefore := by
  apply Analysis.enqueue_sorted h.sorted
  intro c hc hslot
  have := (h.ahead haccepted hc hslot.2.1).1
  rw [hslot.2.2] at this
  exact UInt64.lt_irrefl _ this

/-- An accepted command goes to the end of its entity's part of the queue and leaves the
other parts alone. -/
theorem Invariant.queueOf_withCommand {world : World} (h : Invariant world)
    {command : VelocityCommand} (haccepted : queueDecision world command = .accepted)
    (id : EntityId) :
    queueOf (Analysis.withCommand world command).pendingCommands id =
      if command.entityId = id then queueOf world.pendingCommands id ++ [command]
      else queueOf world.pendingCommands id := by
  have hperm : (queueOf (Analysis.withCommand world command).pendingCommands id).Perm
      (queueOf (world.pendingCommands ++ [command]) id) := (sortCommands_perm _).filter _
  have hsorted : (queueOf (Analysis.withCommand world command).pendingCommands id).Pairwise
      CommandBefore := (h.enqueue_sorted haccepted).filter _
  have hold : (queueOf world.pendingCommands id).Pairwise CommandBefore := h.sorted.filter _
  split_ifs with hid
  · have happend : queueOf (world.pendingCommands ++ [command]) id =
        queueOf world.pendingCommands id ++ [command] := by simp [queueOf, hid]
    refine sorted_unique (happend ▸ hperm) hsorted (List.pairwise_append.mpr ⟨hold, by simp, ?_⟩)
    intro c hc d hd
    obtain rfl := List.mem_singleton.mp hd
    obtain ⟨hc, hcid⟩ := mem_queueOf.mp hc
    obtain ⟨hseq, htarget⟩ := h.ahead haccepted hc (hcid.trans hid.symm)
    rcases UInt64.lt_or_eq_of_le htarget with hlt | heq
    · exact Or.inl hlt
    · exact Or.inr ⟨heq, Or.inr ⟨hcid.trans hid.symm, hseq⟩⟩
  · have happend : queueOf (world.pendingCommands ++ [command]) id =
        queueOf world.pendingCommands id := by simp [queueOf, hid]
    exact sorted_unique (happend ▸ hperm) hsorted hold

/-- Queueing an accepted command keeps the invariant: the sort puts it in its place, and it
is ahead of everything pending for its entity. -/
theorem Invariant.withCommand {world : World} (h : Invariant world) {command : VelocityCommand}
    (haccepted : queueDecision world command = .accepted) :
    Invariant (withCommand world command) := by
  have hmarks := h.withMarks haccepted
  obtain ⟨hfuture, hknown, hsequence, htarget, hvelocity⟩ :=
    queueDecision_eq_accepted.mp haccepted
  refine ⟨h.config.congr rfl rfl, h.elapsed, hmarks.sameKeys, ?_, ?_, ?_, ?_⟩
  · intro id stored hstored
    obtain ⟨hold1, hold2, hold3, hold4, hold5, hold6⟩ := hmarks.entities id stored hstored
    exact ⟨hold1, hold2, hold3, hold4, hold5, hold6⟩
  · exact h.enqueue_sorted haccepted
  · intro c hc
    rcases mem_withCommand.mp hc with hc | rfl
    · obtain ⟨hpast, hvel, hstored, hseq, htgt⟩ := hmarks.pending c hc
      exact ⟨hpast, hvel, hstored, hseq, htgt⟩
    · obtain ⟨stored, hstored⟩ := OrderedMap.contains_iff.mp hknown
      have hlast := (h.entities _ stored hstored).lastSequence_le
      refine ⟨hfuture, hvelocity, ⟨stored, hstored, UInt64.lt_of_le_of_lt hlast hsequence⟩, ?_, ?_⟩
      · exact (highestOf_withMarks world c c.entityId).trans (if_pos rfl) ▸ UInt64.le_refl _
      · exact (latestOf_withMarks world c c.entityId).trans (if_pos rfl) ▸ UInt64.le_refl _
  · intro a hmema b hmemb hid hseq
    rcases mem_withCommand.mp hmema with ha | rfl <;>
      rcases mem_withCommand.mp hmemb with hb | rfl
    · exact h.monotone a ha b hb hid hseq
    · exact (h.ahead haccepted ha hid).2
    · exact absurd hseq (UInt64.not_le.mpr (h.ahead haccepted hb hid.symm).1)
    · exact UInt64.le_refl _

/-- INTERNAL: and is longer by one. -/
theorem length_withCommand (world : World) (command : VelocityCommand) :
    (withCommand world command).pendingCommands.length = world.pendingCommands.length + 1 := by
  rw [withCommand, (sortCommands_perm _).length_eq, List.length_append, List.length_singleton]

/-! ## The tick -/

/-- Of several commands applied in a row, the last one decides. -/
theorem foldl_applyCommand (commands : List VelocityCommand) (stored : StoredEntity) :
    commands.foldl applyCommand stored = match commands.getLast? with
      | none => stored
      | some command => applyCommand stored command := by
  induction commands using List.reverseRecOn with
  | nil => rfl
  | append_singleton commands command ih =>
    rw [List.foldl_append, ih, List.getLast?_concat]
    cases commands.getLast? <;> rfl

/-- A stored entity with the commands that are due at a tick applied. -/
def executed (world : World) (tick : UInt64) (id : EntityId) (stored : StoredEntity) :
    StoredEntity :=
  (dueCommands world.pendingCommands tick id).foldl applyCommand stored

/-- Executing what is due changes velocity and last sequence only, and does that as one of
the pending commands of this tick and entity says. -/
theorem executed_eq (world : World) (tick : UInt64) (id : EntityId) (stored : StoredEntity) :
    executed world tick id stored = stored ∨
      ∃ command ∈ world.pendingCommands, command.targetTick = tick ∧ command.entityId = id ∧
        executed world tick id stored = applyCommand stored command := by
  rw [executed, foldl_applyCommand]
  cases hlast : (dueCommands world.pendingCommands tick id).getLast? with
  | none => exact Or.inl rfl
  | some command =>
    have hmem := List.mem_filter.mp (List.mem_of_getLast? hlast)
    obtain ⟨htick, hid⟩ := of_decide_eq_true hmem.2
    exact Or.inr ⟨command, hmem.1, htick, hid, rfl⟩

/-- Executing what is due moves nothing. -/
theorem executed_frame (world : World) (tick : UInt64) (id : EntityId) (stored : StoredEntity) :
    (executed world tick id stored).state.id = stored.state.id ∧
      (executed world tick id stored).state.position = stored.state.position ∧
      (executed world tick id stored).residualX = stored.residualX ∧
      (executed world tick id stored).residualY = stored.residualY := by
  rcases executed_eq world tick id stored with heq | ⟨command, -, -, -, heq⟩ <;>
    · rw [heq]
      exact ⟨rfl, rfl, rfl, rfl⟩

/-- What a tick does: the clock moves, the commands due are executed and leave the queue,
and every entity is integrated once. -/
structure Advanced (world world' : World) : Prop where
  tickIndex : world'.clock.tickIndex.toNat = world.clock.tickIndex.toNat + 1
  elapsed : world'.clock.elapsed.count.toInt =
    world.clock.elapsed.count.toInt + world.clock.tickDuration.count.toInt
  tickDuration : world'.clock.tickDuration = world.clock.tickDuration
  limits : world'.limits = world.limits
  highestSequence : world'.highestSequence = world.highestSequence
  latestTargetTick : world'.latestTargetTick = world.latestTargetTick
  pendingCommands : world'.pendingCommands =
    world.pendingCommands.filter fun command => command.targetTick ≠ world'.clock.tickIndex
  entities : ∀ id, (world.entities.find? id = none ∧ world'.entities.find? id = none) ∨
    ∃ stored stored', world.entities.find? id = some stored ∧
      world'.entities.find? id = some stored' ∧
      Moved world (executed world world'.clock.tickIndex id stored) stored'

/-- INTERNAL: an entity is inside the limits of the integrator after its due commands. -/
theorem Invariant.executed_ok {world : World} (h : Invariant world) (tick : UInt64)
    {id : EntityId} {stored : StoredEntity} (hstored : world.entities.find? id = some stored) :
    VelocityWithin world.limits.maxAbsVelocity (executed world tick id stored).state.velocity ∧
      ResidualOk (executed world tick id stored).residualX ∧
      ResidualOk (executed world tick id stored).residualY := by
  have hok := h.entities id stored hstored
  obtain ⟨-, -, hx, hy⟩ := executed_frame world tick id stored
  refine ⟨?_, hx ▸ hok.residualX, hy ▸ hok.residualY⟩
  rcases executed_eq world tick id stored with heq | ⟨command, hc, -, -, heq⟩
  · rw [heq]
    exact hok.velocity
  · rw [heq]
    exact (h.pending command hc).velocity

/-- INTERNAL: nothing pending is stale and every pending command names an entity, so the
commands due are executed.
SRC: world.cpp:231-248 -/
theorem Invariant.executeDue_ok {world : World} (h : Invariant world) {tick : UInt64}
    (htick : tick.toNat = world.clock.tickIndex.toNat + 1) :
    ∃ due, World.executeDue tick world.pendingCommands world.entities = .ok due ∧
      ∀ id, due.find? id = (world.entities.find? id).map (executed world tick id) := by
  have hfuture : ∀ c ∈ world.pendingCommands, tick ≤ c.targetTick := by
    intro c hc
    have := UInt64.lt_iff_toNat_lt.mp (h.pending c hc).future
    rw [UInt64.le_iff_toNat_le]
    omega
  have hknown : ∀ c ∈ world.pendingCommands, world.entities.contains c.entityId = true := by
    intro c hc
    obtain ⟨stored, hstored, -⟩ := (h.pending c hc).known
    exact OrderedMap.contains_iff.mpr ⟨stored, hstored⟩
  exact executeDue_eq h.sorted hfuture hknown

/-- INTERNAL: every entity that a tick has executed is integrated, or the integration of one
of them leaves the range.
SRC: world.cpp:250-279 -/
theorem Invariant.integrate_due {world : World} (h : Invariant world) {tick : UInt64}
    {due : OrderedMap EntityId StoredEntity}
    (hfind : ∀ id, due.find? id = (world.entities.find? id).map (executed world tick id)) :
    (∃ moved, due.traverse (World.integrateEntity world.tickDuration.count
          world.limits.maxAbsPosition.count) = .ok moved ∧
        ∀ id, (world.entities.find? id = none ∧ moved.find? id = none) ∨
          ∃ stored stored', world.entities.find? id = some stored ∧
            moved.find? id = some stored' ∧ Moved world (executed world tick id stored) stored') ∨
      ∃ what, due.traverse (World.integrateEntity world.tickDuration.count
          world.limits.maxAbsPosition.count) = .error (.overflowError what) ∧
        ∃ id stored, world.entities.find? id = some stored ∧
          LeavesLimit world (executed world tick id stored) := by
  have hintegrate : ∀ id a, due.find? id = some a → ∃ stored,
      world.entities.find? id = some stored ∧ a = executed world tick id stored ∧
      ((∃ stored', World.integrateEntity world.tickDuration.count world.limits.maxAbsPosition.count
          a = .ok stored' ∧ Moved world a stored') ∨
        ∃ what, World.integrateEntity world.tickDuration.count world.limits.maxAbsPosition.count
          a = .error (.overflowError what) ∧ LeavesLimit world a) := by
    intro id a ha
    rw [hfind id, Option.map_eq_some_iff] at ha
    obtain ⟨stored, hstored, rfl⟩ := ha
    obtain ⟨hv, hx, hy⟩ := h.executed_ok tick hstored
    exact ⟨stored, hstored, rfl, integrateEntity_eq h.config hv hx hy⟩
  cases hmoved : due.traverse (World.integrateEntity world.tickDuration.count
      world.limits.maxAbsPosition.count) with
  | ok moved =>
    refine Or.inl ⟨moved, rfl, fun id => ?_⟩
    rcases OrderedMap.find?_traverse hmoved id with ⟨hnone, hnone'⟩ | ⟨a, b, ha, hb, hrun⟩
    · exact Or.inl ⟨by simpa [hfind id] using hnone, hnone'⟩
    · obtain ⟨stored, hstored, rfl, ⟨stored', hrun', hmove⟩ | ⟨what, hrun', -⟩⟩ :=
        hintegrate id a ha
      · obtain rfl : stored' = b := Except.ok.inj (hrun'.symm.trans hrun)
        exact Or.inr ⟨stored, stored', hstored, hb, hmove⟩
      · exact absurd (hrun'.symm.trans hrun) (by simp)
  | error fault =>
    obtain ⟨id, a, ha, hrun⟩ := OrderedMap.traverse_eq_error hmoved
    obtain ⟨stored, hstored, rfl, ⟨stored', hrun', -⟩ | ⟨what, hrun', hleaves⟩⟩ :=
      hintegrate id a ha
    · exact absurd (hrun'.symm.trans hrun) (by simp)
    · exact Or.inr ⟨what, congrArg Except.error (Except.error.inj (hrun.symm.trans hrun')),
        id, stored, hstored, hleaves⟩

/-- What the next tick cannot represent: the elapsed time after it, or the position of an
entity that moves with the velocity of its last due command. -/
def TickOverflows (world : World) : Prop :=
  2 ^ 63 - 1 < world.clock.elapsed.count.toInt + world.clock.tickDuration.count.toInt ∨
    ∃ id stored, world.entities.find? id = some stored ∧
      LeavesLimit world (executed world (world.clock.tickIndex + 1) id stored)

/-- Every tick counts at least one microsecond, so the index stays far from its end. -/
theorem Invariant.tickIndex_lt {world : World} (h : Invariant world) :
    world.clock.tickIndex.toNat < 2 ^ 63 := by
  have hduration := h.config.duration_pos
  have hbound := (toInt_bounds world.clock.elapsed.count).2
  have hle : (world.clock.tickIndex.toNat : ℤ) * 1 ≤
      world.clock.tickIndex.toNat * world.clock.tickDuration.count.toInt :=
    Int.mul_le_mul_of_nonneg_left hduration (Int.natCast_nonneg _)
  rw [h.elapsed] at hbound
  omega

/-- The index of the next tick, which does not wrap. -/
theorem Invariant.nextIndex {world : World} (h : Invariant world) {tick : UInt64}
    (htick : tick.toNat = world.clock.tickIndex.toNat + 1) : tick = world.clock.tickIndex + 1 := by
  have hlt := h.tickIndex_lt
  rw [← UInt64.toNat_inj, htick, UInt64.toNat_add]
  exact (Nat.mod_eq_of_lt (show world.clock.tickIndex.toNat + 1 < 2 ^ 64 by omega)).symm

/-- **A tick** of a world with the invariant is performed as a whole, or it throws an
overflow error and changes nothing.
SRC: world.cpp:224-294 -/
theorem advance_eq {world : World} (h : Invariant world) :
    (∃ world', World.advance world = .ok world'.currentTick world' ∧ Advanced world world') ∨
      ∃ what, World.advance world = .error (.overflowError what) world ∧
        TickOverflows world := by
  simp only [World.advance, Member.bind_apply, Member.get_apply, Member.onCopy]
  rcases clockAdvance_eq world.clock h.config.duration_pos with
    ⟨next, hclock, hindex, helapsed, hduration⟩ | ⟨-, hlast⟩ | ⟨hclock, hover⟩
  · obtain ⟨due, hdue, hfind⟩ := h.executeDue_ok hindex
    have hdue' : World.executeDue next.currentTick.index world.pendingCommands world.entities =
        .ok due := hdue
    rcases h.integrate_due hfind with ⟨moved, hmoved, hentities⟩ |
      ⟨what, hmoved, id, stored, hstored, hleaves⟩
    · refine Or.inl ⟨{ world with
        clock := next
        entities := moved
        pendingCommands := world.pendingCommands.filter fun command =>
          command.targetTick ≠ next.tickIndex }, ?_,
        hindex, helapsed, hduration, rfl, rfl, rfl, rfl, hentities⟩
      simp only [hclock, hdue', hmoved, Member.lift_ok]
      rfl
    · rw [h.nextIndex hindex] at hleaves
      refine Or.inr ⟨what, ?_, Or.inr ⟨id, stored, hstored, hleaves⟩⟩
      simp only [hclock, hdue', hmoved, Member.lift_ok]
      rfl
  · have := h.tickIndex_lt
    omega
  · refine Or.inr ⟨"simulation elapsed time overflow", ?_, Or.inl (by omega)⟩
    simp only [hclock]
    rfl

section Advanced

variable {world world' : World}

/-- A tick leaves the marks. -/
theorem Advanced.highestOf (hadv : Advanced world world') (id : EntityId) :
    highestOf world' id = highestOf world id := by
  rw [Analysis.highestOf, hadv.highestSequence, Analysis.highestOf]

theorem Advanced.latestOf (hadv : Advanced world world') (id : EntityId) :
    latestOf world' id = latestOf world id := by
  rw [Analysis.latestOf, hadv.latestTargetTick, Analysis.latestOf]

/-- A tick loses no entity and adds none. -/
theorem Advanced.contains (hadv : Advanced world world') (id : EntityId) :
    world'.entities.contains id = world.entities.contains id := by
  rw [OrderedMap.contains, OrderedMap.contains]
  rcases hadv.entities id with ⟨hnone, hnone'⟩ | ⟨stored, stored', hstored, hstored', -⟩
  · rw [hnone, hnone']
  · rw [hstored, hstored']
    rfl

/-- What a stored entity of the next world was before the tick. -/
theorem Advanced.stored (hadv : Advanced world world') {id : EntityId} {stored' : StoredEntity}
    (hstored' : world'.entities.find? id = some stored') :
    ∃ stored, world.entities.find? id = some stored ∧
      Moved world (executed world world'.clock.tickIndex id stored) stored' := by
  rcases hadv.entities id with ⟨-, hnone'⟩ | ⟨stored, moved, hstored, hmoved, hrel⟩
  · exact absurd (hnone'.symm.trans hstored') (by simp)
  · obtain rfl : moved = stored' := Option.some.inj (hmoved.symm.trans hstored')
    exact ⟨stored, hstored, hrel⟩

/-- The commands that stay in the queue are those that are later than the new tick. -/
theorem Advanced.mem_pending (h : Invariant world) (hadv : Advanced world world')
    {command : VelocityCommand} :
    command ∈ world'.pendingCommands ↔
      command ∈ world.pendingCommands ∧ world'.clock.tickIndex < command.targetTick := by
  rw [hadv.pendingCommands, List.mem_filter, decide_eq_true_eq]
  apply and_congr_right
  intro hc
  have hfuture := UInt64.lt_iff_toNat_lt.mp (h.pending command hc).future
  have htick := hadv.tickIndex
  rw [UInt64.lt_iff_toNat_lt, ne_eq, ← UInt64.toNat_inj]
  omega

/-- Executing what is due leaves a command that is later ahead of its entity. -/
theorem Invariant.executed_lt (h : Invariant world) {tick : UInt64} {command : VelocityCommand}
    (hc : command ∈ world.pendingCommands) (hlater : tick < command.targetTick)
    {stored : StoredEntity} (hlast : stored.state.lastSequence < command.sequence) :
    (executed world tick command.entityId stored).state.lastSequence < command.sequence := by
  rcases executed_eq world tick command.entityId stored with heq | ⟨d, hd, htick, hid, heq⟩
  · rwa [heq]
  · rw [heq]
    apply UInt64.not_le.mp
    intro hseq
    have := h.monotone command hc d hd hid.symm hseq
    rw [htick] at this
    exact UInt64.not_le.mpr hlater this

/-- **A tick keeps the invariant.** -/
theorem Advanced.invariant (h : Invariant world) (hadv : Advanced world world') :
    Invariant world' := by
  refine ⟨h.config.congr hadv.tickDuration hadv.limits, ?_, ?_, ?_, ?_, ?_, ?_⟩
  · rw [hadv.elapsed, h.elapsed, hadv.tickIndex, hadv.tickDuration]
    push_cast
    rw [Int.add_mul, Int.one_mul]
  · intro id
    rw [hadv.contains, hadv.highestSequence, hadv.latestTargetTick]
    exact h.sameKeys id
  · intro id stored' hstored'
    obtain ⟨stored, hstored, hmoved⟩ := hadv.stored hstored'
    have hok := h.entities id stored hstored
    obtain ⟨hvelocity, -, -⟩ := h.executed_ok world'.clock.tickIndex hstored
    refine ⟨?_, hadv.limits ▸ hmoved.within, ?_, ?_, ?_, ?_⟩
    · rw [hmoved.id, (executed_frame world world'.clock.tickIndex id stored).1, hok.id_eq]
    · rwa [hadv.limits, hmoved.velocity]
    · rw [ResidualOk, hmoved.residualX]
      exact movedResidual_bounds _ _ _
    · rw [ResidualOk, hmoved.residualY]
      exact movedResidual_bounds _ _ _
    · rw [hmoved.lastSequence, hadv.highestOf]
      rcases executed_eq world world'.clock.tickIndex id stored with heq | ⟨d, hd, -, hid, heq⟩
      · rw [heq]
        exact hok.lastSequence_le
      · rw [heq]
        exact hid ▸ (h.pending d hd).sequence_le
  · rw [hadv.pendingCommands]
    exact h.sorted.filter _
  · intro c hc
    obtain ⟨hc, hlater⟩ := (hadv.mem_pending h).mp hc
    obtain ⟨-, hvelocity, ⟨stored, hstored, hlast⟩, hsequence, htarget⟩ := h.pending c hc
    refine ⟨hlater, hadv.limits ▸ hvelocity, ?_, by rwa [hadv.highestOf], by rwa [hadv.latestOf]⟩
    rcases hadv.entities c.entityId with ⟨hnone, -⟩ | ⟨was, stored', hwas, hstored', hmoved⟩
    · exact absurd (hnone.symm.trans hstored) (by simp)
    · obtain rfl : was = stored := Option.some.inj (hwas.symm.trans hstored)
      refine ⟨stored', hstored', ?_⟩
      rw [hmoved.lastSequence]
      exact h.executed_lt hc hlater hlast
  · intro a ha b hb
    exact h.monotone a ((hadv.mem_pending h).mp ha).1 b ((hadv.mem_pending h).mp hb).1

end Advanced

/-! ## Runs -/

/-- How a world with the invariant answers one call, and what it becomes. -/
inductive WorldStep (world : World) : WorldCall → Answer → World → Prop
  | added (entity : EntityState) (h : addDecision world entity = .added) :
      WorldStep world (.addEntity entity) (.added .added) (withEntity world entity)
  | refusedEntity (entity : EntityState) (h : addDecision world entity ≠ .added) :
      WorldStep world (.addEntity entity) (.added (addDecision world entity)) world
  | queued (command : VelocityCommand) (h : queueDecision world command = .accepted)
      (room : world.pendingCommands.length < vectorMaxSize World.velocityCommandSize) :
      WorldStep world (.queueVelocity command) (.queued .accepted) (withCommand world command)
  | queueFull (command : VelocityCommand) (h : queueDecision world command = .accepted)
      (full : ¬ world.pendingCommands.length < vectorMaxSize World.velocityCommandSize) :
      WorldStep world (.queueVelocity command) (.threw (.lengthError "vector"))
        (withMarks world command)
  | refusedCommand (command : VelocityCommand) (h : queueDecision world command ≠ .accepted) :
      WorldStep world (.queueVelocity command) (.queued (queueDecision world command)) world
  | advanced (world' : World) (h : Advanced world world') :
      WorldStep world .advance (.advanced world'.currentTick) world'
  | advanceFailed (what : String) :
      WorldStep world .advance (.threw (.overflowError what)) world

/-- Every call of a world with the invariant is one of the steps. -/
theorem worldStep {world : World} (h : Invariant world) (call : WorldCall) :
    WorldStep world call (World.machine.answer call world) (World.machine.next call world) := by
  cases call with
  | addEntity entity =>
    by_cases hadded : addDecision world entity = .added
    · have hrun := addEntity_eq h.config entity
      rw [if_pos hadded, hadded] at hrun
      simp only [Machine.answer, Machine.next, World.machine, Member.call, hrun]
      exact .added entity hadded
    · have hrun := addEntity_eq h.config entity
      rw [if_neg hadded] at hrun
      simp only [Machine.answer, Machine.next, World.machine, Member.call, hrun]
      exact .refusedEntity entity hadded
  | queueVelocity command =>
    have hrun := queueVelocity_eq h.config h.sameKeys command
    by_cases haccepted : queueDecision world command = .accepted
    · by_cases hroom : world.pendingCommands.length < vectorMaxSize World.velocityCommandSize
      · rw [if_pos haccepted, if_pos hroom] at hrun
        simp only [Machine.answer, Machine.next, World.machine, Member.call, hrun]
        exact .queued command haccepted hroom
      · rw [if_pos haccepted, if_neg hroom] at hrun
        simp only [Machine.answer, Machine.next, World.machine, Member.call, hrun]
        exact .queueFull command haccepted hroom
    · rw [if_neg haccepted] at hrun
      simp only [Machine.answer, Machine.next, World.machine, Member.call, hrun]
      exact .refusedCommand command haccepted
  | advance =>
    rcases advance_eq h with ⟨world', hrun, hadv⟩ | ⟨what, hrun, -⟩
    · simp only [Machine.answer, Machine.next, World.machine, Member.call, hrun]
      exact .advanced world' hadv
    · simp only [Machine.answer, Machine.next, World.machine, Member.call, hrun]
      exact .advanceFailed what

/-- One step keeps the invariant. -/
theorem WorldStep.invariant {world world' : World} (h : Invariant world) {call : WorldCall}
    {answer : Answer} (hstep : WorldStep world call answer world') : Invariant world' := by
  cases hstep with
  | added entity hadded => exact h.withEntity hadded
  | refusedEntity => exact h
  | queued command haccepted => exact h.withCommand haccepted
  | queueFull command haccepted => exact h.withMarks haccepted
  | refusedCommand => exact h
  | advanced _ hadv => exact hadv.invariant h
  | advanceFailed => exact h

/-- No call makes the queue longer than a vector can be. -/
theorem WorldStep.fits {world world' : World} (h : Fits world) {call : WorldCall}
    {answer : Answer} (hstep : WorldStep world call answer world') : Fits world' := by
  cases hstep with
  | queued command _ hroom =>
    rw [Fits, length_withCommand]
    exact hroom
  | advanced _ hadv =>
    rw [Fits, hadv.pendingCommands]
    exact (List.length_filter_le _ _).trans h
  | _ => exact h

/-- No call changes the tick duration. -/
theorem WorldStep.tickDuration {world world' : World} {call : WorldCall} {answer : Answer}
    (hstep : WorldStep world call answer world') :
    world'.clock.tickDuration = world.clock.tickDuration := by
  cases hstep with
  | advanced _ hadv => exact hadv.tickDuration
  | _ => rfl

/-- One call keeps both. -/
theorem Sound.next {world : World} (call : WorldCall) (h : Sound world) :
    Sound (World.machine.next call world) :=
  ⟨(worldStep h.invariant call).invariant h.invariant, (worldStep h.invariant call).fits h.fits⟩

/-- A whole run keeps both. -/
theorem Sound.final {world : World} (h : Sound world) (calls : List WorldCall) :
    Sound (World.machine.final world calls) :=
  Machine.final_invariant (fun call _ => Sound.next call) h calls

/-- **Every reachable world has the invariant**, and a queue that fits. -/
theorem reachable_sound {world : World} (h : world.Reachable) : Sound world := by
  obtain ⟨duration, limits, start, calls, hmake, rfl⟩ := h
  exact (make_sound hmake).final calls

end Tickline.Analysis
