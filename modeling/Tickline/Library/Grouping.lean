import Mathlib.Algebra.BigOperators.Group.List.Basic
import Mathlib.Algebra.GroupWithZero.Nat
import Mathlib.Algebra.Order.Group.Nat
import Mathlib.Data.List.Induction
import Mathlib.Data.List.Sort
import Mathlib.Order.Bounds.Basic

/-!
# Grouping and sorting by a key

`group` appends every item of a list to the group of its key, and makes the group where there is
none, as a dictionary of lists that keeps the order of insertion does.  A group is what filtering by
its key gives (`grouped_group`), so that counts over all groups add up (`sum_countP`).

`sortOn` sorts by a key.  Where the keys of the items differ, it depends on the items only and not on
their order (`sortOn_eq_of_perm`).
-/

set_option autoImplicit false

namespace Tickline.Library.Grouping

variable {α κ : Type} [DecidableEq κ]

/-! ## Groups -/

/-- Append an item to the group of its key. -/
def append (key : κ) (item : α) : List (κ × List α) → List (κ × List α)
  | [] => [(key, [item])]
  | (other, items) :: groups =>
    if other = key then (other, items ++ [item]) :: groups
    else (other, items) :: append key item groups

/-- The groups of a list. -/
def group (key : α → κ) (items : List α) : List (κ × List α) :=
  items.foldl (fun groups item => append (key item) item groups) []

/-- The group of a key, which is empty where there is none. -/
def groupOf (groups : List (κ × List α)) (key : κ) : List α := (groups.lookup key).getD []

/-- Every group is what filtering by its key gives, and every item is in one. -/
structure Grouped (key : α → κ) (items : List α) (groups : List (κ × List α)) : Prop where
  nodup : (groups.map Prod.fst).Nodup
  group : ∀ entry ∈ groups, entry.2 = items.filter (key · = entry.1)
  mem : ∀ k, k ∈ groups.map Prod.fst ↔ ∃ item ∈ items, key item = k

/-- INTERNAL: the keys behind an item. -/
theorem append_keys (k : κ) (item : α) (groups : List (κ × List α)) :
    (append k item groups).map Prod.fst =
      if k ∈ groups.map Prod.fst then groups.map Prod.fst else groups.map Prod.fst ++ [k] := by
  induction groups with
  | nil => simp [append]
  | cons entry groups ih =>
    obtain ⟨other, items⟩ := entry
    by_cases hk : other = k
    · simp [append, hk]
    · rw [append, if_neg hk, List.map_cons, ih, List.map_cons]
      by_cases hmem : k ∈ groups.map Prod.fst
      · rw [if_pos hmem, if_pos (List.mem_cons_of_mem _ hmem)]
      · rw [if_neg hmem, if_neg (by
          rw [List.mem_cons, not_or]
          exact ⟨fun h => hk h.symm, hmem⟩), List.cons_append]

/-- INTERNAL: the groups behind an item. -/
theorem mem_append {k : κ} {item : α} {groups : List (κ × List α)}
    (hnodup : (groups.map Prod.fst).Nodup) {entry : κ × List α}
    (hentry : entry ∈ append k item groups) :
    (entry.1 ≠ k ∧ entry ∈ groups) ∨ (entry.1 = k ∧ entry.2 = groupOf groups k ++ [item]) := by
  induction groups with
  | nil =>
    obtain rfl := List.mem_singleton.mp hentry
    exact .inr ⟨rfl, rfl⟩
  | cons first groups ih =>
    obtain ⟨other, items⟩ := first
    rw [List.map_cons, List.nodup_cons] at hnodup
    by_cases hk : other = k
    · subst hk
      rw [append, if_pos rfl] at hentry
      rcases List.mem_cons.mp hentry with rfl | hmem
      · exact .inr ⟨rfl, by simp [groupOf]⟩
      · refine .inl ⟨fun heq => hnodup.1 ?_, List.mem_cons_of_mem _ hmem⟩
        exact List.mem_map.mpr ⟨entry, hmem, heq⟩
    · have hlookup : groupOf ((other, items) :: groups) k = groupOf groups k := by
        rw [groupOf, List.lookup_cons, groupOf]
        have hbeq : (k == other) = false := by simpa using fun h : k = other => hk h.symm
        rw [hbeq]
      rw [append, if_neg hk] at hentry
      rcases List.mem_cons.mp hentry with rfl | hmem
      · exact .inl ⟨hk, List.mem_cons_self⟩
      · rcases ih hnodup.2 hmem with ⟨hne, hold⟩ | ⟨heq, hgroup⟩
        · exact .inl ⟨hne, List.mem_cons_of_mem _ hold⟩
        · exact .inr ⟨heq, by rw [hgroup, hlookup]⟩

namespace Grouped

variable {key : α → κ} {items : List α} {groups : List (κ × List α)}

/-- **The group of a key** is what filtering by it gives. -/
theorem groupOf_eq (h : Grouped key items groups) (k : κ) :
    groupOf groups k = items.filter (key · = k) := by
  unfold groupOf
  cases hlookup : groups.lookup k with
  | some found =>
    obtain ⟨before, after, hsplit, -⟩ := List.lookup_eq_some_iff.mp hlookup
    exact h.group (k, found) (by simp [hsplit])
  | none =>
    rw [List.lookup_eq_none_iff] at hlookup
    symm
    rw [Option.getD_none, List.filter_eq_nil_iff]
    intro item hitem hkey
    obtain ⟨entry, hentry, heq⟩ := List.mem_map.mp ((h.mem k).mpr ⟨item, hitem, by simpa using hkey⟩)
    have hne := hlookup entry hentry
    simp [heq] at hne

/-- INTERNAL: one more item. -/
theorem append (h : Grouped key items groups) (item : α) :
    Grouped key (items ++ [item]) (append (key item) item groups) where
  nodup := by
    rw [append_keys]
    split
    · exact h.nodup
    · next hnew =>
      rw [List.nodup_append]
      refine ⟨h.nodup, List.nodup_singleton _, fun a ha b hb heq => hnew ?_⟩
      rw [← List.mem_singleton.mp hb, ← heq]
      exact ha
  group entry hentry := by
    rw [List.filter_append]
    rcases mem_append h.nodup hentry with ⟨hne, hold⟩ | ⟨heq, hgroup⟩
    · rw [h.group entry hold, List.filter_cons_of_neg (by simpa using Ne.symm hne), List.filter_nil,
        List.append_nil]
    · rw [hgroup, h.groupOf_eq, heq, List.filter_cons_of_pos (by simp), List.filter_nil]
  mem k := by
    rw [append_keys]
    split
    · next hold =>
      rw [h.mem]
      constructor
      · rintro ⟨other, hother, heq⟩
        exact ⟨other, List.mem_append_left _ hother, heq⟩
      · rintro ⟨other, hother, heq⟩
        rcases List.mem_append.mp hother with hother | hother
        · exact ⟨other, hother, heq⟩
        · rw [List.mem_singleton.mp hother] at heq
          exact (h.mem k).mp (heq ▸ hold)
    · rw [List.mem_append, h.mem, List.mem_singleton]
      constructor
      · rintro (⟨other, hother, heq⟩ | rfl)
        · exact ⟨other, List.mem_append_left _ hother, heq⟩
        · exact ⟨item, by simp, rfl⟩
      · rintro ⟨other, hother, heq⟩
        rcases List.mem_append.mp hother with hother | hother
        · exact .inl ⟨other, hother, heq⟩
        · rw [List.mem_singleton.mp hother] at heq
          exact .inr heq.symm

end Grouped

/-- **Grouping a list** gives its groups. -/
theorem grouped_group (key : α → κ) (items : List α) : Grouped key items (group key items) := by
  induction items using List.reverseRecOn with
  | nil => exact ⟨List.nodup_nil, by simp [group], by simp [group]⟩
  | append_singleton items item ih =>
    rw [group, List.foldl_append]
    exact ih.append item

/-- INTERNAL: one item is in the group of one key. -/
theorem sum_single {keys : List κ} (hkeys : keys.Nodup) {k : κ} (hk : k ∈ keys) (n : ℕ) :
    (keys.map fun other => if k = other then n else 0).sum = n := by
  induction keys with
  | nil => cases hk
  | cons first keys ih =>
    obtain ⟨hfirst, hrest⟩ := List.nodup_cons.mp hkeys
    rw [List.map_cons, List.sum_cons]
    rcases List.mem_cons.mp hk with rfl | hk
    · rw [if_pos rfl, List.sum_eq_zero, Nat.add_zero]
      intro m hm
      obtain ⟨other, hother, rfl⟩ := List.mem_map.mp hm
      exact if_neg (show ¬ k = other from fun heq => hfirst (heq ▸ hother))
    · rw [if_neg (show ¬ k = first from fun heq => hfirst (heq ▸ hk)), Nat.zero_add, ih hrest hk]

/-- **Counts over groups add up** to the count over the list. -/
theorem sum_countP {key : α → κ} {keys : List κ} (hkeys : keys.Nodup) {items : List α}
    (hcover : ∀ item ∈ items, key item ∈ keys) (p : α → Bool) :
    (keys.map fun k => (items.filter (key · = k)).countP p).sum = items.countP p := by
  induction items with
  | nil => simp
  | cons item items ih =>
    obtain ⟨hitem, hrest⟩ := List.forall_mem_cons.mp hcover
    have hsplit : ∀ k, ((item :: items).filter (key · = k)).countP p =
        (items.filter (key · = k)).countP p +
          if key item = k then (if p item then 1 else 0) else 0 := by
      intro k
      by_cases hk : key item = k
      · rw [List.filter_cons_of_pos (by simpa using hk), List.countP_cons, if_pos hk]
      · rw [List.filter_cons_of_neg (by simpa using hk), if_neg hk, Nat.add_zero]
    simp only [hsplit]
    rw [List.sum_map_add, ih hrest, sum_single hkeys hitem, List.countP_cons]

/-! ## Sorting -/

section Sorting

variable {ρ : Type} [LinearOrder ρ]

/-- Sorted by a key. -/
def sortOn (key : α → ρ) (items : List α) : List α :=
  items.insertionSort fun left right => key left ≤ key right

theorem sortOn_perm (key : α → ρ) (items : List α) : (sortOn key items).Perm items :=
  List.perm_insertionSort _ items

theorem mem_sortOn {key : α → ρ} {items : List α} {item : α} :
    item ∈ sortOn key items ↔ item ∈ items := (sortOn_perm key items).mem_iff

/-- **What is sorted ascends.** -/
theorem sortOn_pairwise (key : α → ρ) (items : List α) :
    (sortOn key items).Pairwise fun left right => key left ≤ key right := by
  have htotal : Std.Total fun left right : α => key left ≤ key right :=
    ⟨fun left right => le_total (key left) (key right)⟩
  have htrans : IsTrans α fun left right => key left ≤ key right :=
    ⟨fun _ _ _ => le_trans⟩
  exact List.pairwise_insertionSort _ items

/-- INTERNAL: where the keys differ it strictly ascends. -/
theorem sortOn_pairwise_lt {key : α → ρ} {items : List α} (hkeys : (items.map key).Nodup) :
    (sortOn key items).Pairwise fun left right => key left < key right := by
  have hnodup : ((sortOn key items).map key).Nodup :=
    ((sortOn_perm key items).map key).nodup_iff.mpr hkeys
  have hne := List.pairwise_map.mp hnodup
  exact (sortOn_pairwise key items).imp₂ (fun _ _ hle hne => lt_of_le_of_ne hle hne) hne

/-- **Sorting forgets the order** of items whose keys differ. -/
theorem sortOn_eq_of_perm {key : α → ρ} {items others : List α} (hperm : items.Perm others)
    (hkeys : (items.map key).Nodup) : sortOn key items = sortOn key others := by
  have hboth : (sortOn key items).Perm (sortOn key others) :=
    ((sortOn_perm key items).trans hperm).trans (sortOn_perm key others).symm
  refine hboth.eq_of_pairwise (fun left right hleft hright hle hge => ?_)
    (sortOn_pairwise key items) (sortOn_pairwise key others)
  exact List.inj_on_of_nodup_map hkeys (mem_sortOn.mp hleft)
    (hperm.mem_iff.mpr (mem_sortOn.mp hright)) (le_antisymm hle hge)

/-- The first of what ascends is the least. -/
theorem head?_eq_some_iff {items : List ρ} (h : items.Pairwise (· ≤ ·)) {item : ρ} :
    items.head? = some item ↔ IsLeast {other | other ∈ items} item := by
  cases items with
  | nil => simp [IsLeast]
  | cons first items =>
    have hleast : IsLeast {other | other ∈ first :: items} first := by
      refine ⟨List.mem_cons_self, fun other hother => ?_⟩
      rcases List.mem_cons.mp hother with rfl | hother
      · exact le_rfl
      · exact (List.pairwise_cons.mp h).1 other hother
    rw [List.head?_cons, Option.some.injEq]
    constructor
    · rintro rfl
      exact hleast
    · exact fun hitem => hleast.unique hitem

/-- The last of what ascends is the greatest. -/
theorem getLast?_eq_some_iff {items : List ρ} (h : items.Pairwise (· ≤ ·)) {item : ρ} :
    items.getLast? = some item ↔ IsGreatest {other | other ∈ items} item := by
  have hdual : (items.reverse.map OrderDual.toDual).Pairwise (· ≤ ·) := by
    rw [List.pairwise_map, List.pairwise_reverse]
    exact h
  have hhead : (items.reverse.map OrderDual.toDual).head? = some (OrderDual.toDual item) ↔ _ :=
    head?_eq_some_iff hdual
  rw [List.head?_map, List.head?_reverse] at hhead
  simpa [IsLeast, IsGreatest, lowerBounds, upperBounds] using hhead

end Sorting

end Tickline.Library.Grouping
