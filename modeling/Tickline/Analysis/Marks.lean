import Tickline.Analysis.Representation

/-!
# The high-water marks

A world keeps, for each entity, the highest sequence and the latest target tick that it has
queued.  No call lowers them (`WorldStep.rises`), and as long as no call runs out of memory
they are exactly the history they stand for: those of the command accepted last, which no
accepted command exceeds (`marks_of_run`).
-/

set_option autoImplicit false

namespace Tickline.Analysis

open Tickline.Library Tickline.Model

/-! ## Marks rise -/

/-- No entity is lost, and no mark of a known entity falls. -/
def Rises (world world' : World) : Prop :=
  ∀ id, world.entities.contains id = true →
    world'.entities.contains id = true ∧ highestOf world id ≤ highestOf world' id ∧
      latestOf world id ≤ latestOf world' id

theorem Rises.refl (world : World) : Rises world world := by
  intro id hknown
  exact ⟨hknown, UInt64.le_refl _, UInt64.le_refl _⟩

/-- An entity that is known is not the one that is added. -/
theorem known_ne_added {world : World} {entity : EntityState}
    (hadded : addDecision world entity = .added) {id : EntityId}
    (hknown : world.entities.contains id = true) : id ≠ entity.id := by
  intro heq
  have hnew := (addDecision_eq_added.mp hadded).1
  rw [← heq, hknown] at hnew
  cases hnew

/-- **No call lowers a mark.** -/
theorem WorldStep.rises {world world' : World} {call : WorldCall} {answer : Answer}
    (hstep : WorldStep world call answer world') : Rises world world' := by
  intro id hknown
  cases hstep with
  | added entity hadded =>
    have hne := known_ne_added hadded hknown
    rw [highestOf_withEntity, latestOf_withEntity, if_neg hne, if_neg hne]
    refine ⟨?_, UInt64.le_refl _, UInt64.le_refl _⟩
    simp only [withEntity, contains_insert, hknown, Bool.or_true]
  | queued command haccepted => exact ⟨hknown, marks_le haccepted id⟩
  | queueFull command haccepted => exact ⟨hknown, marks_le haccepted id⟩
  | advanced world' hadv =>
    rw [hadv.contains, hadv.highestOf, hadv.latestOf]
    exact ⟨hknown, UInt64.le_refl _, UInt64.le_refl _⟩
  | _ => exact Rises.refl world id hknown

/-! ## Marks are history -/

/-- The commands for an entity that a trace shows as accepted, in the order of the calls. -/
def acceptedCommands (id : EntityId) (trace : List (WorldCall × Answer)) : List VelocityCommand :=
  trace.filterMap fun
    | (.queueVelocity command, .queued .accepted) =>
      if command.entityId = id then some command else none
    | _ => none

/-- INTERNAL: a trace in two parts. -/
theorem acceptedCommands_append (id : EntityId) (trace trace' : List (WorldCall × Answer)) :
    acceptedCommands id (trace ++ trace') =
      acceptedCommands id trace ++ acceptedCommands id trace' := List.filterMap_append

/-- The marks of an entity are those of the last of its accepted commands, and at or above
all of them. -/
structure Marked (accepted : List VelocityCommand) (world : World) (id : EntityId) : Prop where
  known : accepted ≠ [] → world.entities.contains id = true
  below : ∀ command ∈ accepted,
    command.sequence ≤ highestOf world id ∧ command.targetTick ≤ latestOf world id
  highest : highestOf world id = (accepted.getLast?.map (·.sequence)).getD 0
  latest : ∀ command ∈ accepted.getLast?, latestOf world id = command.targetTick

section Marked

variable {accepted : List VelocityCommand} {world world' : World} {id : EntityId}

/-- INTERNAL: a call that keeps the entity and its marks. -/
theorem Marked.frame (h : Marked accepted world id)
    (hknown : world.entities.contains id = true → world'.entities.contains id = true)
    (hhighest : highestOf world' id = highestOf world id)
    (hlatest : latestOf world' id = latestOf world id) : Marked accepted world' id := by
  refine ⟨fun hne => hknown (h.known hne), ?_, hhighest.trans h.highest, ?_⟩
  · rw [hhighest, hlatest]
    exact h.below
  · rw [hlatest]
    exact h.latest

/-- INTERNAL: an accepted command becomes the last one. -/
theorem Marked.queued (h : Marked accepted world id) {command : VelocityCommand}
    (haccepted : queueDecision world command = .accepted) (hid : command.entityId = id) :
    Marked (accepted ++ [command]) (withCommand world command) id := by
  subst hid
  obtain ⟨-, hknown, -⟩ := queueDecision_eq_accepted.mp haccepted
  have hhighest : highestOf (withCommand world command) command.entityId = command.sequence :=
    (highestOf_withMarks world command _).trans (if_pos rfl)
  have hlatest : latestOf (withCommand world command) command.entityId = command.targetTick :=
    (latestOf_withMarks world command _).trans (if_pos rfl)
  obtain ⟨hraised, hraised'⟩ := marks_le haccepted command.entityId
  refine ⟨fun _ => hknown, ?_, ?_, ?_⟩
  · intro c hc
    rcases List.mem_append.mp hc with hc | hc
    · exact ⟨UInt64.le_trans (h.below c hc).1 hraised, UInt64.le_trans (h.below c hc).2 hraised'⟩
    · obtain rfl := List.mem_singleton.mp hc
      exact ⟨UInt64.le_of_eq hhighest.symm, UInt64.le_of_eq hlatest.symm⟩
  · rw [hhighest, List.getLast?_concat]
    rfl
  · intro c hc
    rw [List.getLast?_concat] at hc
    cases hc
    exact hlatest

/-- One call, when it does not run out of memory. -/
theorem Marked.step (h : Marked accepted world id) {call : WorldCall} {answer : Answer}
    (hstep : WorldStep world call answer world')
    (hmemory : ∀ what, answer ≠ .threw (.lengthError what)) :
    Marked (accepted ++ acceptedCommands id [(call, answer)]) world' id := by
  cases hstep with
  | added entity hadded =>
    simp only [acceptedCommands, List.filterMap_cons, List.filterMap_nil, List.append_nil]
    by_cases hid : id = entity.id
    · -- The entity is new, so nothing has been accepted for it.
      have hnone : accepted = [] := by
        by_contra hne
        exact known_ne_added hadded (h.known hne) hid
      subst hnone
      refine ⟨fun hne => absurd rfl hne, by simp, ?_, by simp⟩
      rw [highestOf_withEntity, if_pos hid]
      rfl
    · refine h.frame (fun hknown => ?_) ?_ ?_
      · simp only [withEntity, contains_insert, hknown, Bool.or_true]
      · rw [highestOf_withEntity, if_neg hid]
      · rw [latestOf_withEntity, if_neg hid]
  | refusedEntity entity => simpa [acceptedCommands] using h
  | queued command haccepted =>
    by_cases hid : command.entityId = id
    · simpa [acceptedCommands, hid] using h.queued haccepted hid
    · simp only [acceptedCommands, List.filterMap_cons, List.filterMap_nil, if_neg hid,
        List.append_nil]
      have hne : id ≠ command.entityId := Ne.symm hid
      refine h.frame (fun hknown => hknown) ?_ ?_
      · exact (highestOf_withMarks world command id).trans (if_neg hne)
      · exact (latestOf_withMarks world command id).trans (if_neg hne)
  | queueFull => exact absurd rfl (hmemory _)
  | refusedCommand command hrefused =>
    cases hdecision : queueDecision world command <;> simp_all [acceptedCommands]
  | advanced world' hadv =>
    simp only [acceptedCommands, List.filterMap_cons, List.filterMap_nil, List.append_nil]
    refine h.frame (fun hknown => ?_) (hadv.highestOf id) (hadv.latestOf id)
    rwa [hadv.contains]
  | advanceFailed => simpa [acceptedCommands] using h

end Marked

/-- **The marks of an entity are its history**: after every run of a constructed world in
which no call ran out of memory, they are those of the command accepted last for the
entity, and no accepted command exceeds them.
SRC: world.cpp:143-222 -/
theorem marks_of_run {duration : Microseconds} {limits : WorldLimits} {start : World}
    (hmake : World.make duration limits = .ok start) (calls : List WorldCall)
    (hmemory : ∀ entry ∈ World.machine.trace start calls,
      ∀ what, entry.2 ≠ .threw (.lengthError what)) (id : EntityId) :
    Marked (acceptedCommands id (World.machine.trace start calls))
      (World.machine.final start calls) id := by
  have hstart := make_sound hmake
  induction calls using List.reverseRecOn with
  | nil =>
    obtain ⟨rfl, -⟩ := make_eq_fresh hmake
    exact ⟨fun hne => absurd rfl hne, by simp [acceptedCommands], rfl, by simp [acceptedCommands]⟩
  | append_singleton calls call ih =>
    rw [Machine.trace_append] at hmemory ⊢
    rw [Machine.final_append, acceptedCommands_append]
    have hmarked := ih fun entry hentry => hmemory entry (List.mem_append_left _ hentry)
    exact hmarked.step (worldStep (hstart.final calls).invariant call)
      (hmemory _ (List.mem_append_right _ (List.mem_cons_self ..)))

end Tickline.Analysis
