import Mathlib.Data.List.Basic

/-!
# Bounded channels

A channel holds at most so many items and gives them out in the order in which they were put in.
A full channel takes nothing and an empty one gives nothing, so whoever sends or receives waits.

* `send?_items` and `receive?_items` say what the two operations do to the items.
* `send?_isSome_iff` and `receive?_isSome_iff` say when nobody has to wait.
-/

set_option autoImplicit false

namespace Tickline.Library

/-- A channel with room for `capacity` items. -/
structure Channel (α : Type) (capacity : ℕ) where
  items : List α
  fits : items.length ≤ capacity

namespace Channel

variable {α : Type} {capacity : ℕ}

/-- The channel that nothing was sent to. -/
def empty : Channel α capacity := ⟨[], Nat.zero_le _⟩

/-- Put an item behind the others, if there is room. -/
def send? (channel : Channel α capacity) (a : α) : Option (Channel α capacity) :=
  if h : channel.items.length < capacity then
    some ⟨channel.items ++ [a], by rw [List.length_append]; exact h⟩
  else none

/-- Take the first item out, if there is one. -/
def receive? : Channel α capacity → Option (α × Channel α capacity)
  | ⟨[], _⟩ => none
  | ⟨a :: rest, h⟩ => some (a, ⟨rest, Nat.le_of_succ_le h⟩)

@[simp] theorem items_empty : (empty : Channel α capacity).items = [] := rfl

theorem send?_items {channel after : Channel α capacity} {a : α}
    (h : channel.send? a = some after) : after.items = channel.items ++ [a] := by
  unfold send? at h
  split_ifs at h
  exact Option.some.inj h ▸ rfl

theorem receive?_items {channel after : Channel α capacity} {a : α}
    (h : channel.receive? = some (a, after)) : channel.items = a :: after.items := by
  obtain ⟨items, hfits⟩ := channel
  cases items with
  | nil => cases h
  | cons b rest =>
    obtain ⟨rfl, rfl⟩ := Prod.mk.inj (Option.some.inj h)
    rfl

/-- Whoever sends waits only for room. -/
theorem send?_isSome_iff {channel : Channel α capacity} {a : α} :
    (channel.send? a).isSome ↔ channel.items.length < capacity := by
  unfold send?
  split_ifs with h <;> simp [h]

/-- Whoever receives waits only for an item. -/
theorem receive?_isSome_iff {channel : Channel α capacity} :
    channel.receive?.isSome ↔ channel.items ≠ [] := by
  obtain ⟨items, hfits⟩ := channel
  cases items <;> simp [receive?]

end Channel

end Tickline.Library
