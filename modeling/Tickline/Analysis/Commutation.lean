import Tickline.Analysis.Representation

/-!
# Calls on different entities commute

Between two ticks every call reads and writes one entity's part of the world: its
entries in the three maps and its part of the queue (`EntityView`).  `entitySpec` is the
world without the bound on the queue, where this is exactly true (`entitySpec_local`),
and the general rule for local machines orders the calls of each entity only.

The bound is what the real world adds.  The two agree on every run whose calls return
(`run_eq_of_returned`) and on every run that ends with a queue that fits
(`run_eq_of_fits`), so a reordering of a run that returned returns as well.
-/

set_option autoImplicit false

namespace Tickline.Analysis

open Tickline.Library Tickline.Model

/-- What the calls that name an entity can see of the world. -/
structure EntityView where
  clock : FixedStepClock
  limits : WorldLimits
  stored : Option StoredEntity
  highestSequence : Option UInt64
  latestTargetTick : Option UInt64
  queue : List VelocityCommand

/-- One entity's view of a world. -/
def entityView (id : EntityId) (world : World) : EntityView where
  clock := world.clock
  limits := world.limits
  stored := world.entities.find? id
  highestSequence := world.highestSequence.find? id
  latestTargetTick := world.latestTargetTick.find? id
  queue := queueOf world.pendingCommands id

/-- **The views are all there is**: worlds with the same views are the same world. -/
theorem world_ext {world world' : World} (h : Invariant world) (h' : Invariant world')
    (hview : ∀ id, entityView id world = entityView id world') : world = world' := by
  have hparts := fun id => EntityView.mk.inj (hview id)
  have hclock := (hparts ⟨1, by decide⟩).1
  have hlimits := (hparts ⟨1, by decide⟩).2.1
  have hentities := OrderedMap.ext_find? fun id => (hparts id).2.2.1
  have hhighest := OrderedMap.ext_find? fun id => (hparts id).2.2.2.1
  have hlatest := OrderedMap.ext_find? fun id => (hparts id).2.2.2.2.1
  have hqueue := queue_ext h.sorted h'.sorted fun id => (hparts id).2.2.2.2.2
  cases world
  cases world'
  simp_all

/-! ## The world without the bound on its queue -/

/-- The specification of the calls between two ticks. -/
def entitySpec : Machine World EntityCall Answer where
  perform
    | .addEntity entity, world => (.added (addDecision world entity),
        if addDecision world entity = .added then withEntity world entity else world)
    | .queueVelocity command, world => (.queued (queueDecision world command),
        if queueDecision world command = .accepted then withCommand world command else world)

/-- The specification keeps the invariant. -/
theorem entitySpec_invariant (call : EntityCall) (world : World) (h : Invariant world) :
    Invariant (entitySpec.next call world) := by
  cases call with
  | addEntity entity =>
    simp only [Machine.next, entitySpec]
    split_ifs with hadded
    · exact h.withEntity hadded
    · exact h
  | queueVelocity command =>
    simp only [Machine.next, entitySpec]
    split_ifs with haccepted
    · exact h.withCommand haccepted
    · exact h

/-- The decisions depend on the view of the entity alone. -/
theorem addDecision_congr {world world' : World} {entity : EntityState}
    (hview : entityView entity.id world = entityView entity.id world') :
    addDecision world entity = addDecision world' entity := by
  obtain ⟨-, hlimits, hstored, -⟩ := EntityView.mk.inj hview
  rw [addDecision, addDecision, OrderedMap.contains, OrderedMap.contains, hstored, hlimits]

/-- INTERNAL: likewise for a command. -/
theorem queueDecision_congr {world world' : World} {command : VelocityCommand}
    (hview : entityView command.entityId world = entityView command.entityId world') :
    queueDecision world command = queueDecision world' command := by
  obtain ⟨hclock, hlimits, hstored, hhighest, hlatest, -⟩ := EntityView.mk.inj hview
  rw [queueDecision, queueDecision, OrderedMap.contains, OrderedMap.contains, highestOf, highestOf,
    latestOf, latestOf, hclock, hstored, hlimits, hhighest, hlatest]

/-- Adding an entity changes its own view only. -/
theorem entityView_withEntity (world : World) (entity : EntityState) (id : EntityId) :
    entityView id (withEntity world entity) =
      if id = entity.id then
        { entityView id world with
          stored := some { state := { entity with lastSequence := 0 } }
          highestSequence := some 0
          latestTargetTick := some world.clock.tickIndex }
      else entityView id world := by
  simp only [entityView, withEntity, OrderedMap.find?_insert]
  split_ifs <;> rfl

/-- An accepted command changes its own entity's view only. -/
theorem entityView_withCommand {world : World} (h : Invariant world) {command : VelocityCommand}
    (haccepted : queueDecision world command = .accepted) (id : EntityId) :
    entityView id (withCommand world command) =
      if id = command.entityId then
        { entityView id world with
          highestSequence := some command.sequence
          latestTargetTick := some command.targetTick
          queue := queueOf world.pendingCommands id ++ [command] }
      else entityView id world := by
  have hqueue := h.queueOf_withCommand haccepted id
  simp only [entityView, hqueue]
  simp only [withCommand, withMarks, OrderedMap.find?_insert, eq_comm (a := id)]
  split_ifs <;> rfl

/-- **Every call is local to the entity it names.** -/
theorem entitySpec_local :
    Machine.Local entitySpec Invariant EntityCall.entityId entityView where
  keeps := entitySpec_invariant
  answer_eq call world world' _ _ hview := by
    cases call with
    | addEntity entity => exact congrArg Answer.added (addDecision_congr hview)
    | queueVelocity command => exact congrArg Answer.queued (queueDecision_congr hview)
  next_eq call world world' h h' hview := by
    cases call with
    | addEntity entity =>
      have hdecision := addDecision_congr hview
      have hclock := (EntityView.mk.inj hview).1
      simp only [Machine.next, entitySpec, EntityCall.entityId] at hview ⊢
      rw [← hdecision]
      split_ifs
      · rw [entityView_withEntity, entityView_withEntity, hview, hclock]
      · exact hview
    | queueVelocity command =>
      have hdecision := queueDecision_congr hview
      have hqueue := (EntityView.mk.inj hview).2.2.2.2.2
      simp only [Machine.next, entitySpec, EntityCall.entityId] at hview hqueue ⊢
      rw [← hdecision]
      split_ifs with haccepted
      · rw [entityView_withCommand h haccepted,
          entityView_withCommand h' (hdecision ▸ haccepted), hview, hqueue]
      · exact hview
  next_other call world id h hne := by
    cases call with
    | addEntity entity =>
      simp only [Machine.next, entitySpec]
      split_ifs
      · exact (entityView_withEntity world entity id).trans (if_neg hne)
      · rfl
    | queueVelocity command =>
      simp only [Machine.next, entitySpec]
      split_ifs with haccepted
      · exact (entityView_withCommand h haccepted id).trans (if_neg hne)
      · rfl

/-! ## The bound on the queue -/

/-- A call does what its specification says, unless it must queue a command in a full
queue, where it throws. -/
theorem entity_step {world : World} (h : Invariant world) (call : EntityCall) :
    World.entityMachine.perform call world = entitySpec.perform call world ∨
      (World.entityMachine.answer call world).returned = false ∧
        vectorMaxSize World.velocityCommandSize ≤ world.pendingCommands.length ∧
        (entitySpec.next call world).pendingCommands.length =
          world.pendingCommands.length + 1 := by
  cases call with
  | addEntity entity =>
    left
    simp only [World.entityMachine, EntityCall.toWorldCall, World.machine, Member.call,
      addEntity_eq h.config entity, entitySpec]
  | queueVelocity command =>
    have hrun := queueVelocity_eq h.config h.sameKeys command
    by_cases haccepted : queueDecision world command = .accepted
    · by_cases hroom : world.pendingCommands.length < vectorMaxSize World.velocityCommandSize
      · left
        rw [if_pos haccepted, if_pos hroom] at hrun
        simp only [World.entityMachine, EntityCall.toWorldCall, World.machine, Member.call, hrun,
          entitySpec, haccepted, if_true]
      · right
        rw [if_pos haccepted, if_neg hroom] at hrun
        refine ⟨?_, Nat.le_of_not_lt hroom, ?_⟩
        · simp only [Machine.answer, World.entityMachine, EntityCall.toWorldCall, World.machine,
            Member.call, hrun]
          rfl
        · simp only [Machine.next, entitySpec, if_pos haccepted]
          exact length_withCommand world command
    · left
      rw [if_neg haccepted] at hrun
      simp only [World.entityMachine, EntityCall.toWorldCall, World.machine, Member.call, hrun,
        entitySpec, if_neg haccepted]

/-- A run whose calls all return is a run of the specification. -/
theorem run_eq_of_returned {world : World} (h : Invariant world) {calls : List EntityCall}
    (hreturned : ∀ e ∈ World.entityMachine.trace world calls, e.2.returned = true) :
    World.entityMachine.trace world calls = entitySpec.trace world calls ∧
      World.entityMachine.final world calls = entitySpec.final world calls := by
  induction calls generalizing world with
  | nil => exact ⟨rfl, rfl⟩
  | cons call calls ih =>
    rcases entity_step h call with heq | ⟨hthrew, -⟩
    · have hanswer : World.entityMachine.answer call world = entitySpec.answer call world :=
        congrArg Prod.fst heq
      have hnext : World.entityMachine.next call world = entitySpec.next call world :=
        congrArg Prod.snd heq
      rw [Machine.trace_cons, hnext] at hreturned
      obtain ⟨htrace, hfinal⟩ := ih (entitySpec_invariant call world h)
        fun e he => hreturned e (List.mem_cons_of_mem _ he)
      simp only [Machine.trace_cons, Machine.final_cons, hanswer, hnext, htrace, hfinal, and_self]
    · have := hreturned _ (List.mem_cons_self ..)
      rw [hthrew] at this
      cases this

/-- Between ticks the queue of the specification only grows. -/
theorem entitySpec_length_le (world : World) (calls : List EntityCall) :
    world.pendingCommands.length ≤ (entitySpec.final world calls).pendingCommands.length := by
  induction calls generalizing world with
  | nil => exact le_rfl
  | cons call calls ih =>
    refine le_trans ?_ (ih (entitySpec.next call world))
    cases call with
    | addEntity entity =>
      simp only [Machine.next, entitySpec]
      split_ifs <;> exact le_rfl
    | queueVelocity command =>
      simp only [Machine.next, entitySpec]
      split_ifs
      · rw [length_withCommand]
        omega
      · exact le_rfl

/-- A run of the specification whose last queue fits is a run of the world. -/
theorem run_eq_of_fits {world : World} (h : Invariant world) {calls : List EntityCall}
    (hfits : Fits (entitySpec.final world calls)) :
    World.entityMachine.trace world calls = entitySpec.trace world calls ∧
      World.entityMachine.final world calls = entitySpec.final world calls := by
  induction calls generalizing world with
  | nil => exact ⟨rfl, rfl⟩
  | cons call calls ih =>
    rcases entity_step h call with heq | ⟨-, hfull, hgrown⟩
    · have hanswer : World.entityMachine.answer call world = entitySpec.answer call world :=
        congrArg Prod.fst heq
      have hnext : World.entityMachine.next call world = entitySpec.next call world :=
        congrArg Prod.snd heq
      obtain ⟨htrace, hfinal⟩ := ih (entitySpec_invariant call world h) hfits
      simp only [Machine.trace_cons, Machine.final_cons, hanswer, hnext, htrace, hfinal, and_self]
    · have hle := entitySpec_length_le (entitySpec.next call world) calls
      rw [Fits, Machine.final_cons] at hfits
      omega

/-! ## Reordering -/

/-- Two orders of the same calls that agree on the calls of each entity. -/
structure Reordered (xs ys : List EntityCall) : Prop where
  perm : xs.Perm ys
  sameOrder : ∀ id, xs.filter (fun call => call.entityId = id) =
    ys.filter fun call => call.entityId = id

/-- **Calls on different entities commute.**  The calls of one order return from a
reachable world (one that does not has no memory left for the queue, see `threw_cases`).
Then in the other order each call, found by its place among the calls
that name its entity, gives the same answer; the final worlds are the same, and so are
their encodings.
SRC: world.cpp:143-222, canonical_state.cpp:64-120 -/
theorem entity_calls_commute {world : World} (hworld : world.Reachable) {xs ys : List EntityCall}
    (hreordered : Reordered xs ys)
    (hreturned : ∀ e ∈ World.entityMachine.trace world xs, e.2.returned = true) :
    (∀ id, (World.entityMachine.trace world xs).filter (fun e => e.1.entityId = id) =
        (World.entityMachine.trace world ys).filter fun e => e.1.entityId = id) ∧
      World.entityMachine.final world xs = World.entityMachine.final world ys ∧
      ∃ bytes, encodeWorldState (World.entityMachine.final world xs) = .ok bytes ∧
        encodeWorldState (World.entityMachine.final world ys) = .ok bytes := by
  have hsound := reachable_sound hworld
  have h := hsound.invariant
  obtain ⟨htrace, hfinal⟩ := run_eq_of_returned h hreturned
  have hend : Sound (World.entityMachine.final world xs) :=
    Machine.final_invariant (fun call _ => Sound.next call.toWorldCall) hsound xs
  have hxs := Machine.final_invariant entitySpec_invariant h xs
  have hys := Machine.final_invariant entitySpec_invariant h ys
  have hsame : entitySpec.final world xs = entitySpec.final world ys :=
    world_ext hxs hys fun id => entitySpec_local.view_final_eq h (hreordered.sameOrder id)
  have hfits : Fits (entitySpec.final world ys) := by
    rw [← hsame, ← hfinal]
    exact hend.fits
  obtain ⟨htrace', hfinal'⟩ := run_eq_of_fits h hfits
  have hworlds : World.entityMachine.final world xs = World.entityMachine.final world ys := by
    rw [hfinal, hfinal', hsame]
  refine ⟨fun id => ?_, hworlds, ?_⟩
  · rw [htrace, htrace']
    exact entitySpec_local.trace_filter_eq h (hreordered.sameOrder id)
  · obtain ⟨bytes, hbytes⟩ := encodeWorldState_ok hend
    exact ⟨bytes, hbytes, hworlds ▸ hbytes⟩

/-- Two entities and a command for the first, with the second entity added in between or
before. -/
theorem entity_calls_commute_two :
    let first := originEntity ⟨1, by decide⟩ 1000
    let second := originEntity ⟨2, by decide⟩ 500
    let command : VelocityCommand :=
      { targetTick := 3, entityId := ⟨1, by decide⟩, sequence := 1, velocity := ⟨⟨0⟩, ⟨0⟩⟩ }
    World.entityMachine.final (freshWorld ⟨100000⟩ {})
        [.addEntity first, .addEntity second, .queueVelocity command] =
      World.entityMachine.final (freshWorld ⟨100000⟩ {})
        [.addEntity second, .addEntity first, .queueVelocity command] := by
  intro first second command
  have hworld : (freshWorld ⟨100000⟩ {}).Reachable := ⟨⟨100000⟩, {}, _, [], rfl, rfl⟩
  refine (entity_calls_commute hworld ⟨List.Perm.swap _ _ _, fun id => ?_⟩
    (by decide +kernel)).2.1
  by_cases hfirst : first.id = id
  · have hsecond : second.id ≠ id := fun h => absurd (hfirst.trans h.symm) (by decide)
    simp [EntityCall.entityId, hfirst, hsecond]
  · simp [EntityCall.entityId, List.filter_cons, hfirst]

end Tickline.Analysis
