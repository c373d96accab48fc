import Tickline.Model.World
import Mathlib.Data.List.Perm.Basic

/-!
# The queue of pending commands

* `CommandBefore` is the order that `commandOrder` decides: target tick, then entity,
  then sequence.  It is a strict order in which two commands are incomparable exactly
  when they share all three (`SameSlot`).
* A list that is strictly sorted by it is determined by its elements
  (`sorted_unique`), so on a queue without two commands in one slot every sorting
  algorithm, stable or not, gives the list `sortCommands` gives (`sortCommands_unique`).
* `executeDue_eq`: on a sorted queue with no stale command, the early exit of the
  execution loop is harmless: each entity receives exactly its own due commands, in
  ascending order of their sequences.
-/

set_option autoImplicit false

namespace Tickline.Analysis

open Tickline.Library Tickline.Model

/-- One command precedes another: by target tick, then entity, then sequence. -/
def CommandBefore (left right : VelocityCommand) : Prop :=
  left.targetTick < right.targetTick ∨
    left.targetTick = right.targetTick ∧
      (left.entityId < right.entityId ∨
        left.entityId = right.entityId ∧ left.sequence < right.sequence)

/-- Two commands agree on everything the order looks at. -/
def SameSlot (left right : VelocityCommand) : Prop :=
  left.targetTick = right.targetTick ∧ left.entityId = right.entityId ∧
    left.sequence = right.sequence

/-- SRC: world.cpp:76-89 -/
theorem commandOrder_iff (left right : VelocityCommand) :
    commandOrder left right = true ↔ CommandBefore left right := by
  unfold commandOrder CommandBefore
  split_ifs with htick hentity
  · simp [htick]
  · simp only [not_not] at htick
    simp [htick, hentity, UInt64.lt_irrefl]
  · simp only [not_not] at htick hentity
    simp [htick, hentity, UInt64.lt_irrefl]

theorem CommandBefore.irrefl (command : VelocityCommand) : ¬ CommandBefore command command := by
  simp [CommandBefore, UInt64.lt_irrefl]

theorem CommandBefore.trans {a b c : VelocityCommand} (hab : CommandBefore a b)
    (hbc : CommandBefore b c) : CommandBefore a c := by
  unfold CommandBefore at *
  grind

theorem CommandBefore.asymm {a b : VelocityCommand} (hab : CommandBefore a b) :
    ¬ CommandBefore b a :=
  fun hba => CommandBefore.irrefl a (hab.trans hba)

theorem CommandBefore.ne {a b : VelocityCommand} (hab : CommandBefore a b) : a ≠ b := by
  rintro rfl
  exact CommandBefore.irrefl a hab

/-- Any two commands are ordered or in one slot. -/
theorem CommandBefore.trichotomy (a b : VelocityCommand) :
    CommandBefore a b ∨ SameSlot a b ∨ CommandBefore b a := by
  unfold CommandBefore SameSlot
  grind

/-! ## Sorting -/

/-- INTERNAL: the relation that `std::sort` leaves between neighbours. -/
theorem not_commandOrder_iff (left right : VelocityCommand) :
    commandOrder right left = false ↔ CommandBefore left right ∨ SameSlot left right := by
  rw [← Bool.not_eq_true, commandOrder_iff]
  constructor
  · intro hnot
    rcases CommandBefore.trichotomy left right with h | h | h
    · exact Or.inl h
    · exact Or.inr h
    · exact absurd h hnot
  · rintro (h | ⟨htick, hentity, hsequence⟩) hback
    · exact h.asymm hback
    · simp [CommandBefore, htick, hentity, hsequence, UInt64.lt_irrefl] at hback

/-- Sorting keeps the commands. -/
theorem sortCommands_perm (commands : List VelocityCommand) :
    (sortCommands commands).Perm commands :=
  List.perm_insertionSort _ commands

/-- Two strictly sorted lists of the same commands are one list. -/
theorem sorted_unique {xs ys : List VelocityCommand} (hperm : xs.Perm ys)
    (hxs : xs.Pairwise CommandBefore) (hys : ys.Pairwise CommandBefore) : xs = ys :=
  hperm.eq_of_pairwise (fun _ _ _ _ hab hba => absurd hba hab.asymm) hxs hys

/-- Commands in pairwise different slots are sorted strictly. -/
theorem sortCommands_sorted {commands : List VelocityCommand}
    (hslots : commands.Pairwise fun a b => ¬ SameSlot a b) :
    (sortCommands commands).Pairwise CommandBefore := by
  let R : VelocityCommand → VelocityCommand → Prop :=
    fun left right => commandOrder right left = false
  have htotal : Std.Total R := ⟨fun a b => by
    simp only [R, not_commandOrder_iff]
    rcases CommandBefore.trichotomy a b with h | h | h
    · exact Or.inl (Or.inl h)
    · exact Or.inl (Or.inr h)
    · exact Or.inr (Or.inl h)⟩
  have htrans : IsTrans VelocityCommand R := ⟨fun a b c => by
    simp only [R, not_commandOrder_iff, CommandBefore, SameSlot]
    grind⟩
  have hsorted : (sortCommands commands).Pairwise R := List.pairwise_insertionSort R commands
  have hdistinct : (sortCommands commands).Pairwise fun a b => ¬ SameSlot a b :=
    (sortCommands_perm commands).symm.pairwise hslots fun h hs =>
      h ⟨hs.1.symm, hs.2.1.symm, hs.2.2.symm⟩
  exact (hsorted.and hdistinct).imp fun ⟨hR, hne⟩ =>
    ((not_commandOrder_iff _ _).mp hR).resolve_right hne

/-- **The choice of sorting algorithm does not show**: any strictly sorted arrangement of
commands in different slots is the one `sortCommands` computes. -/
theorem sortCommands_unique {commands sorted : List VelocityCommand}
    (hslots : commands.Pairwise fun a b => ¬ SameSlot a b) (hperm : sorted.Perm commands)
    (hsorted : sorted.Pairwise CommandBefore) : sortCommands commands = sorted :=
  sorted_unique ((sortCommands_perm commands).trans hperm.symm) (sortCommands_sorted hslots) hsorted

theorem CommandBefore.not_sameSlot {a b : VelocityCommand} (h : CommandBefore a b) :
    ¬ SameSlot a b := by
  rintro ⟨htick, hentity, hsequence⟩
  simp [CommandBefore, htick, hentity, hsequence, UInt64.lt_irrefl] at h

/-- A command in a slot of its own joins a sorted queue at the end of the sort. -/
theorem enqueue_sorted {queue : List VelocityCommand} {command : VelocityCommand}
    (hqueue : queue.Pairwise CommandBefore) (hslot : ∀ c ∈ queue, ¬ SameSlot c command) :
    (sortCommands (queue ++ [command])).Pairwise CommandBefore := by
  refine sortCommands_sorted (List.pairwise_append.mpr ⟨?_, by simp, ?_⟩)
  · exact hqueue.imp CommandBefore.not_sameSlot
  · simpa using hslot

/-! ## The commands of one entity -/

/-- The part of a queue that is for one entity. -/
def queueOf (queue : List VelocityCommand) (id : EntityId) : List VelocityCommand :=
  queue.filter fun command => command.entityId = id

theorem mem_queueOf {queue : List VelocityCommand} {id : EntityId} {command : VelocityCommand} :
    command ∈ queueOf queue id ↔ command ∈ queue ∧ command.entityId = id := by
  rw [queueOf, List.mem_filter, decide_eq_true_eq]

/-- Sorted queues with the same commands for every entity are the same queue. -/
theorem queue_ext {xs ys : List VelocityCommand} (hxs : xs.Pairwise CommandBefore)
    (hys : ys.Pairwise CommandBefore) (h : ∀ id, queueOf xs id = queueOf ys id) : xs = ys := by
  refine sorted_unique ((List.perm_ext_iff_of_nodup (hxs.imp CommandBefore.ne)
    (hys.imp CommandBefore.ne)).mpr fun command => ?_) hxs hys
  have hx : command ∈ queueOf xs command.entityId ↔ _ := mem_queueOf
  have hy : command ∈ queueOf ys command.entityId ↔ _ := mem_queueOf
  rw [h command.entityId] at hx
  simpa using hx.symm.trans hy

/-! ## Executing what is due -/

/-- What one due command does to its entity.
SRC: world.cpp:240-247 -/
def applyCommand (stored : StoredEntity) (command : VelocityCommand) : StoredEntity :=
  { stored with state := { stored.state with
      velocity := command.velocity
      lastSequence := command.sequence } }

/-- The commands of one entity for one tick, in queue order. -/
def dueCommands (queue : List VelocityCommand) (tick : UInt64) (id : EntityId) :
    List VelocityCommand :=
  queue.filter fun command => command.targetTick = tick ∧ command.entityId = id

theorem dueCommands_eq (queue : List VelocityCommand) (tick : UInt64) (id : EntityId) :
    dueCommands queue tick id =
      (queueOf queue id).filter fun command => command.targetTick = tick := by
  simp only [dueCommands, queueOf, List.filter_filter, Bool.decide_and]

/-- INTERNAL: the due commands of a longer queue. -/
theorem dueCommands_cons (command : VelocityCommand) (queue : List VelocityCommand)
    (tick : UInt64) (id : EntityId) :
    dueCommands (command :: queue) tick id =
      if command.targetTick = tick ∧ command.entityId = id then
        command :: dueCommands queue tick id
      else dueCommands queue tick id := by
  simp [dueCommands, List.filter_cons]

/-- Nothing is due once the first command is later. -/
theorem dueCommands_eq_nil {queue : List VelocityCommand} {tick : UInt64} (id : EntityId)
    (hlater : ∀ c ∈ queue, tick < c.targetTick) : dueCommands queue tick id = [] := by
  apply List.filter_eq_nil_iff.mpr
  intro c hc
  have hne : c.targetTick ≠ tick := (UInt64.ne_of_lt (hlater c hc)).symm
  simp [hne]

/-- **The execution loop.**  It never reports a stale command, and gives every entity its
due commands in queue order.
SRC: world.cpp:231-248 -/
theorem executeDue_eq {tick : UInt64} {queue : List VelocityCommand}
    {entities : OrderedMap EntityId StoredEntity} (hsorted : queue.Pairwise CommandBefore)
    (hfuture : ∀ c ∈ queue, tick ≤ c.targetTick)
    (hknown : ∀ c ∈ queue, entities.contains c.entityId = true) :
    ∃ due, World.executeDue tick queue entities = .ok due ∧ ∀ id,
      due.find? id = (entities.find? id).map fun stored =>
        (dueCommands queue tick id).foldl applyCommand stored := by
  induction queue generalizing entities with
  | nil => exact ⟨entities, rfl, fun id => by simp [dueCommands]⟩
  | cons command queue ih =>
    obtain ⟨hhead, htail⟩ := List.pairwise_cons.mp hsorted
    have hnotStale : ¬ command.targetTick < tick :=
      UInt64.not_lt.mpr (hfuture command (List.mem_cons_self ..))
    by_cases hlater : tick < command.targetTick
    · -- The early exit: what follows in the queue is at least as late.
      have hall : ∀ c ∈ command :: queue, tick < c.targetTick := by
        intro c hc
        rcases List.mem_cons.mp hc with rfl | hc
        · exact hlater
        · rcases hhead c hc with h | ⟨h, -⟩
          · exact UInt64.lt_trans hlater h
          · exact h ▸ hlater
      refine ⟨entities, ?_, fun id => by simp [dueCommands_eq_nil id hall]⟩
      simp [World.executeDue, hnotStale, hlater, pure, Except.pure]
    · have hdue : command.targetTick = tick :=
        UInt64.le_antisymm (UInt64.not_lt.mp hlater) (UInt64.not_lt.mp hnotStale)
      obtain ⟨stored, hstored⟩ :=
        OrderedMap.contains_iff.mp (hknown command (List.mem_cons_self ..))
      have hknown' : ∀ c ∈ queue,
          (entities.insert command.entityId (applyCommand stored command)).contains c.entityId =
            true := by
        intro c hc
        rw [OrderedMap.contains, OrderedMap.find?_insert]
        split_ifs
        · rfl
        · exact hknown c (List.mem_cons_of_mem _ hc)
      obtain ⟨due, hrun, hfind⟩ := ih htail
        (fun c hc => hfuture c (List.mem_cons_of_mem _ hc)) hknown'
      refine ⟨due, ?_, fun id => ?_⟩
      · simp only [World.executeDue, if_neg hnotStale, if_neg hlater, mapAt, hstored, bind,
          Except.bind]
        exact hrun
      · rw [hfind id, dueCommands_cons, OrderedMap.find?_insert]
        by_cases hid : id = command.entityId
        · subst hid
          simp [hdue, hstored]
        · simp [hid, Ne.symm hid]

end Tickline.Analysis
