import Mathlib.Data.List.Perm.Subperm
import Tickline.Analysis.WorldInvariant

/-!
# The canonical encoding never fails

A world with the representation invariant has a canonical encoding: its row writer looks
every entity up in both mark maps, and its two counts fit the field that carries them
(`encodeWorldState_ok`).  With it the representation invariant is stated once for a whole
run (`representation_invariant`): after any calls the invariant holds, none of the calls
left by a failed lookup or by the stale-command branch of the tick, and the world that
results can be encoded.
-/

set_option autoImplicit false

namespace Tickline.Analysis

open Tickline.Library Tickline.Model

/-- There are fewer identifiers than the count field can tell apart. -/
theorem size_lt {α : Type} (m : OrderedMap EntityId α) : m.size < 2 ^ 64 := by
  have hnodup : (m.entries.map fun e => e.1.value.toNat - 1).Nodup := by
    refine List.pairwise_map.mpr (m.ascending.imp fun {a b} hab => ?_)
    have hlt := EntityId.lt_iff.mp hab
    have hpos : a.1.value.toNat ≠ 0 := fun h => a.1.nonzero (UInt64.toNat_inj.mp h)
    omega
  have hrange : (m.entries.map fun e => e.1.value.toNat - 1) ⊆ List.range (2 ^ 64 - 1) := by
    intro n hn
    obtain ⟨e, -, rfl⟩ := List.mem_map.mp hn
    have hlt := e.1.value.toNat_lt
    have hpos : e.1.value.toNat ≠ 0 := fun h => e.1.nonzero (UInt64.toNat_inj.mp h)
    exact List.mem_range.mpr (by omega)
  have hle := (List.subperm_of_subset hnodup hrange).length_le
  rw [List.length_map, List.length_range] at hle
  exact Nat.lt_of_le_of_lt hle (by decide)

/-- INTERNAL: a vector has fewer elements than a `size_t` can count. -/
theorem vectorMaxSize_lt (elementSize : ℕ) : vectorMaxSize elementSize < 2 ^ 64 :=
  Nat.lt_of_le_of_lt (Nat.div_le_self _ _) (by decide)

/-- INTERNAL: every row is written, because every stored entity has both marks.
SRC: canonical_state.cpp:88-107 -/
theorem encodeEntities_ok {world : World} (hkeys : SameKeys world)
    {entries : List (EntityId × StoredEntity)}
    (hknown : ∀ e ∈ entries, world.entities.contains e.1 = true) :
    ∃ rows, encodeEntities world entries = .ok rows := by
  induction entries with
  | nil => exact ⟨[], rfl⟩
  | cons e entries ih =>
    obtain ⟨rows, hrows⟩ := ih fun e he => hknown e (List.mem_cons_of_mem _ he)
    have hmem := hknown e (List.mem_cons_self ..)
    obtain ⟨hh, hl⟩ := hkeys e.1
    obtain ⟨highest, hhighest⟩ := OrderedMap.contains_iff.mp (hh.trans hmem)
    obtain ⟨latest, hlatest⟩ := OrderedMap.contains_iff.mp (hl.trans hmem)
    simp only [encodeEntities, encodeEntity, mapAt, hhighest, hlatest, hrows, bind, Except.bind,
      pure, Except.pure]
    exact ⟨_, rfl⟩

/-- **A world with the invariant can be encoded.**
SRC: canonical_state.cpp:64-120 -/
theorem encodeWorldState_ok {world : World} (h : Sound world) :
    ∃ bytes, encodeWorldState world = .ok bytes := by
  have hknown : ∀ e ∈ world.entities.entries, world.entities.contains e.1 = true :=
    fun e he => OrderedMap.contains_iff.mpr ⟨e.2, OrderedMap.find?_eq_some_iff.mpr he⟩
  obtain ⟨rows, hrows⟩ := encodeEntities_ok h.invariant.sameKeys hknown
  have hsize := size_lt world.entities
  have hpending := Nat.lt_of_le_of_lt h.fits (vectorMaxSize_lt _)
  simp only [encodeWorldState, checkedSize, if_pos hsize, if_pos hpending, hrows, bind,
    Except.bind, pure, Except.pure]
  exact ⟨_, rfl⟩

/-- The fingerprint of a world with the invariant can be computed. -/
theorem fingerprintWorldState_ok {world : World} (h : Sound world) :
    ∃ fingerprint, fingerprintWorldState world = .ok fingerprint := by
  obtain ⟨bytes, hbytes⟩ := encodeWorldState_ok h
  exact ⟨fingerprintBytes bytes, by simp only [fingerprintWorldState, hbytes]; rfl⟩

/-- A call of a world with the invariant throws for exhausted ranges and memory only. -/
theorem threw_cases {world : World} (h : Invariant world) {call : WorldCall} {fault : Fault}
    (hthrew : World.machine.answer call world = .threw fault) :
    (∃ what, fault = .overflowError what) ∨ fault = .lengthError "vector" := by
  have hstep := worldStep h call
  rw [hthrew] at hstep
  generalize World.machine.next call world = world' at hstep
  cases hstep with
  | queueFull => exact Or.inr rfl
  | advanceFailed what => exact Or.inl ⟨what, rfl⟩

/-- **The representation invariant of the world.**  After any sequence of calls on a
constructed world the invariant holds; no call, whether it succeeded, was refused or
threw, ended in a failed map lookup or found a stale command; and the encoding, which
looks every entity up again, succeeds.
SRC: world.cpp:93-294, world.hpp:85-107 -/
theorem representation_invariant {duration : Microseconds} {limits : WorldLimits} {start : World}
    (hmake : World.make duration limits = .ok start) (calls : List WorldCall) :
    Invariant (World.machine.final start calls) ∧
      (∀ entry ∈ World.machine.trace start calls, ∀ fault, entry.2 = .threw fault →
        fault ≠ .outOfRange ∧ ∀ what, fault ≠ .logicError what) ∧
      ∃ bytes, encodeWorldState (World.machine.final start calls) = .ok bytes := by
  have hstart := make_sound hmake
  have hend := hstart.final calls
  refine ⟨hend.invariant, ?_, encodeWorldState_ok hend⟩
  have hanswer : ∀ call world, Sound world → ∀ fault,
      World.machine.answer call world = .threw fault →
        fault ≠ .outOfRange ∧ ∀ what, fault ≠ .logicError what := by
    intro call world h fault hthrew
    rcases threw_cases h.invariant hthrew with ⟨what, rfl⟩ | rfl <;> simp
  exact Machine.trace_invariant
    (P := fun _ answer => ∀ fault, answer = .threw fault →
      fault ≠ .outOfRange ∧ ∀ what, fault ≠ .logicError what)
    (fun call _ => Sound.next call) hanswer hstart calls

/-- An entity at the origin with the given velocity on both axes. -/
def originEntity (id : EntityId) (velocity : Int64) : EntityState where
  id := id
  position := ⟨⟨0⟩, ⟨0⟩⟩
  velocity := ⟨⟨velocity⟩, ⟨velocity⟩⟩

/-- A world of hundred-millisecond ticks with one moving entity, ticked once. -/
theorem representation_invariant_moving :
    Invariant (World.machine.final (freshWorld ⟨100000⟩ {})
      [.addEntity (originEntity ⟨1, by decide⟩ 1000), .advance]) :=
  (representation_invariant (show World.make ⟨100000⟩ {} = .ok (freshWorld ⟨100000⟩ {}) from rfl)
    _).1

end Tickline.Analysis
