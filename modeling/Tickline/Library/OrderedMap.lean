import Mathlib.Order.Lattice
import Mathlib.Tactic.SplitIfs
import Mathlib.Data.List.Pairwise

/-!
# Finite maps kept in ascending key order

`OrderedMap κ α` is the list of a finite map's entries together with the proof that
the keys ascend strictly, so a map with a repeated or misplaced key cannot be built.
Two maps with the same lookups are the same map (`OrderedMap.ext_find?`), which is
what lets a whole-map equality be proved key by key.

`insert` adds or replaces one entry, and `traverse` rewrites every value in key order
with an action that may fail, leaving the keys alone.
-/

set_option autoImplicit false

namespace Tickline.Library

/-- A finite map as its list of entries in strictly ascending key order. -/
@[ext] structure OrderedMap (κ α : Type) [LinearOrder κ] where
  entries : List (κ × α)
  ascending : entries.Pairwise fun a b => a.1 < b.1
  deriving DecidableEq

namespace OrderedMap

variable {κ α β ε : Type} [LinearOrder κ]

/-- The map with no entries. -/
def empty : OrderedMap κ α := ⟨[], List.Pairwise.nil⟩

/-- The first value stored under a key in a list of entries. -/
def lookupEntry (k : κ) : List (κ × α) → Option α
  | [] => none
  | (j, w) :: rest => if j = k then some w else lookupEntry k rest

/-- The value stored under a key, if there is one. -/
def find? (m : OrderedMap κ α) (k : κ) : Option α := lookupEntry k m.entries

/-- Whether a key has an entry. -/
def contains (m : OrderedMap κ α) (k : κ) : Bool := (m.find? k).isSome

/-- The number of entries. -/
def size (m : OrderedMap κ α) : ℕ := m.entries.length

/-- Put an entry at its place in an ascending list, replacing an entry with its key. -/
def insertEntry (k : κ) (v : α) : List (κ × α) → List (κ × α)
  | [] => [(k, v)]
  | (j, w) :: rest =>
    if k < j then (k, v) :: (j, w) :: rest
    else if k = j then (k, v) :: rest
    else (j, w) :: insertEntry k v rest

/-- INTERNAL: inserting brings in no entry but its own. -/
theorem mem_insertEntry {k : κ} {v : α} {e : κ × α} {l : List (κ × α)}
    (h : e ∈ insertEntry k v l) : e = (k, v) ∨ e ∈ l := by
  induction l with
  | nil => simpa [insertEntry] using h
  | cons head rest ih =>
    obtain ⟨j, w⟩ := head
    rw [insertEntry] at h
    split_ifs at h <;> grind

/-- INTERNAL: inserting keeps the keys ascending. -/
theorem insertEntry_ascending (k : κ) (v : α) {l : List (κ × α)}
    (h : l.Pairwise fun a b => a.1 < b.1) :
    (insertEntry k v l).Pairwise fun a b => a.1 < b.1 := by
  induction l with
  | nil => simp [insertEntry]
  | cons head rest ih =>
    obtain ⟨j, w⟩ := head
    obtain ⟨hhead, hrest⟩ := List.pairwise_cons.mp h
    rw [insertEntry]
    split_ifs with hlt heq
    · refine List.pairwise_cons.mpr ⟨?_, h⟩
      intro e he
      rcases List.mem_cons.mp he with rfl | he
      · exact hlt
      · exact hlt.trans (hhead e he)
    · subst heq
      exact List.pairwise_cons.mpr ⟨hhead, hrest⟩
    · refine List.pairwise_cons.mpr ⟨?_, ih hrest⟩
      intro e he
      rcases mem_insertEntry he with rfl | he
      · exact lt_of_le_of_ne (not_lt.mp hlt) (Ne.symm heq)
      · exact hhead e he

/-- Add an entry, or replace the value of an existing one. -/
def insert (m : OrderedMap κ α) (k : κ) (v : α) : OrderedMap κ α :=
  ⟨insertEntry k v m.entries, insertEntry_ascending k v m.ascending⟩

/-! ## Lookups -/

@[simp] theorem find?_empty (k : κ) : (empty : OrderedMap κ α).find? k = none := rfl

/-- Lookups find exactly the entries. -/
theorem find?_eq_some_iff {m : OrderedMap κ α} {k : κ} {v : α} :
    m.find? k = some v ↔ (k, v) ∈ m.entries := by
  obtain ⟨l, h⟩ := m
  simp only [find?]
  induction l with
  | nil => simp [lookupEntry]
  | cons head rest ih =>
    obtain ⟨j, w⟩ := head
    obtain ⟨hhead, hrest⟩ := List.pairwise_cons.mp h
    rw [lookupEntry, List.mem_cons, Prod.mk.injEq]
    split_ifs with hj
    · subst hj
      have hnot : (j, v) ∉ rest := fun hv => lt_irrefl j (hhead (j, v) hv)
      simp [hnot, eq_comm]
    · simp only [Ne.symm hj, false_and, false_or]
      exact ih hrest

theorem contains_iff {m : OrderedMap κ α} {k : κ} :
    m.contains k = true ↔ ∃ v, m.find? k = some v := by
  rw [contains, Option.isSome_iff_exists]

/-- Looking a key up after an insertion. -/
theorem find?_insert (m : OrderedMap κ α) (k j : κ) (v : α) :
    (m.insert k v).find? j = if j = k then some v else m.find? j := by
  obtain ⟨l, h⟩ := m
  simp only [insert, find?]
  clear h
  induction l with
  | nil => simp [insertEntry, lookupEntry, eq_comm]
  | cons head rest ih =>
    obtain ⟨i, w⟩ := head
    rw [insertEntry]
    split_ifs <;> grind [lookupEntry]

@[simp] theorem find?_insert_self (m : OrderedMap κ α) (k : κ) (v : α) :
    (m.insert k v).find? k = some v := by
  rw [find?_insert, if_pos rfl]

theorem find?_insert_of_ne (m : OrderedMap κ α) {k j : κ} (v : α) (h : j ≠ k) :
    (m.insert k v).find? j = m.find? j := by
  rw [find?_insert, if_neg h]

/-- **Extensionality**: maps with the same lookups have the same entries. -/
theorem ext_find? {m n : OrderedMap κ α} (h : ∀ k, m.find? k = n.find? k) : m = n := by
  have hmem : ∀ e, e ∈ m.entries ↔ e ∈ n.entries := by
    rintro ⟨k, v⟩
    rw [← find?_eq_some_iff, ← find?_eq_some_iff, h]
  have hperm : m.entries.Perm n.entries := by
    have nodup : ∀ l : List (κ × α), (l.Pairwise fun a b => a.1 < b.1) → l.Nodup :=
      fun l hl => hl.imp fun hab heq => absurd (heq ▸ hab) (lt_irrefl _)
    exact (List.perm_ext_iff_of_nodup (nodup _ m.ascending) (nodup _ n.ascending)).mpr hmem
  exact OrderedMap.ext (hperm.eq_of_pairwise
    (fun a b _ _ hab hba => absurd hab (not_lt.mpr hba.le)) m.ascending n.ascending)

/-! ## Keys -/

/-- The keys, in order. -/
def keys (m : OrderedMap κ α) : List κ := m.entries.map Prod.fst

theorem keys_ascending (m : OrderedMap κ α) : m.keys.Pairwise (· < ·) :=
  List.pairwise_map.mpr m.ascending

theorem mem_keys {m : OrderedMap κ α} {k : κ} : k ∈ m.keys ↔ (m.find? k).isSome = true := by
  rw [Option.isSome_iff_exists, keys, List.mem_map]
  constructor
  · rintro ⟨⟨k, v⟩, hmem, rfl⟩
    exact ⟨v, find?_eq_some_iff.mpr hmem⟩
  · rintro ⟨v, hv⟩
    exact ⟨(k, v), find?_eq_some_iff.mp hv, rfl⟩

/-- Maps that have values for the same keys have the same keys in order. -/
theorem keys_eq {m : OrderedMap κ α} {n : OrderedMap κ β}
    (h : ∀ k, (m.find? k).isSome = (n.find? k).isSome) : m.keys = n.keys := by
  have hperm : m.keys.Perm n.keys := by
    refine (List.perm_ext_iff_of_nodup (m.keys_ascending.imp ne_of_lt)
      (n.keys_ascending.imp ne_of_lt)).mpr fun k => ?_
    rw [mem_keys, mem_keys, h]
  exact hperm.eq_of_pairwise (fun a b _ _ hab hba => absurd hab (not_lt.mpr hba.le))
    m.keys_ascending n.keys_ascending

/-- **Grouping**: when each record is folded into the value of its key, the value of a key is the
fold of the key's own records. -/
theorem find?_foldl_insert (key : β → κ) (step : Option α → β → α) (records : List β)
    (m : OrderedMap κ α) (k : κ) [DecidablePred fun b => key b = k] :
    (records.foldl (fun m b => m.insert (key b) (step (m.find? (key b)) b)) m).find? k =
      (records.filter (key · = k)).foldl (fun value b => some (step value b)) (m.find? k) := by
  induction records generalizing m with
  | nil => rfl
  | cons b records ih =>
    rw [List.foldl_cons, ih, find?_insert, List.filter_cons]
    by_cases hk : key b = k
    · subst hk
      simp
    · simp [hk, Ne.symm hk]

/-! ## Rewriting every value -/

/-- Apply a fallible action to every value of an entry list, first entry first. -/
def traverseEntries (f : α → Except ε β) : List (κ × α) → Except ε (List (κ × β))
  | [] => .ok []
  | (k, v) :: rest => do
    let w ← f v
    let rest' ← traverseEntries f rest
    return (k, w) :: rest'

omit [LinearOrder κ] in
/-- INTERNAL: a traversal leaves the keys. -/
theorem traverseEntries_keys {f : α → Except ε β} {l : List (κ × α)} {l' : List (κ × β)}
    (h : traverseEntries f l = .ok l') : l'.map Prod.fst = l.map Prod.fst := by
  induction l generalizing l' with
  | nil => cases h; rfl
  | cons head rest ih =>
    obtain ⟨k, v⟩ := head
    simp only [traverseEntries, bind, Except.bind, pure, Except.pure] at h
    cases hv : f v with
    | error e => simp [hv] at h
    | ok w =>
      cases hr : traverseEntries f rest with
      | error e => simp [hv, hr] at h
      | ok rest' =>
        simp only [hv, hr, Except.ok.injEq] at h
        subst h
        simp [ih hr]

theorem ascending_of_keys {l : List (κ × α)} {l' : List (κ × β)}
    (h : l'.map Prod.fst = l.map Prod.fst) (hl : l.Pairwise fun a b => a.1 < b.1) :
    l'.Pairwise fun a b => a.1 < b.1 := by
  have : (l'.map Prod.fst).Pairwise (· < ·) := by
    rw [h]
    exact List.pairwise_map.mpr hl
  exact List.pairwise_map.mp this

/-- Apply a fallible action to every value in ascending key order; the first failure
is the result. -/
def traverse (m : OrderedMap κ α) (f : α → Except ε β) : Except ε (OrderedMap κ β) :=
  match h : traverseEntries f m.entries with
  | .ok l => .ok ⟨l, ascending_of_keys (traverseEntries_keys h) m.ascending⟩
  | .error e => .error e

/-- INTERNAL: a traversal that succeeds is one of the entries. -/
theorem traverse_eq_ok {m : OrderedMap κ α} {f : α → Except ε β} {n : OrderedMap κ β}
    (h : m.traverse f = .ok n) : traverseEntries f m.entries = .ok n.entries := by
  unfold traverse at h
  split at h
  · cases h
    assumption
  · cases h

/-- INTERNAL: what a successful traversal stores under each key. -/
theorem traverseEntries_lookup {f : α → Except ε β} {l : List (κ × α)} {l' : List (κ × β)}
    (h : traverseEntries f l = .ok l') (k : κ) :
    (lookupEntry k l = none ∧ lookupEntry k l' = none) ∨
      ∃ a b, lookupEntry k l = some a ∧ lookupEntry k l' = some b ∧ f a = .ok b := by
  induction l generalizing l' with
  | nil => cases h; exact Or.inl ⟨rfl, rfl⟩
  | cons head rest ih =>
    obtain ⟨j, v⟩ := head
    simp only [traverseEntries, bind, Except.bind, pure, Except.pure] at h
    cases hv : f v with
    | error e => simp [hv] at h
    | ok w =>
      cases hr : traverseEntries f rest with
      | error e => simp [hv, hr] at h
      | ok rest' =>
        simp only [hv, hr, Except.ok.injEq] at h
        subst h
        simp only [lookupEntry]
        split_ifs with hj
        · exact Or.inr ⟨v, w, rfl, rfl, hv⟩
        · exact ih hr

/-- A successful traversal has the same keys, and stores what the action returned. -/
theorem find?_traverse {m : OrderedMap κ α} {f : α → Except ε β} {n : OrderedMap κ β}
    (h : m.traverse f = .ok n) (k : κ) :
    (m.find? k = none ∧ n.find? k = none) ∨
      ∃ a b, m.find? k = some a ∧ n.find? k = some b ∧ f a = .ok b :=
  traverseEntries_lookup (traverse_eq_ok h) k

omit [LinearOrder κ] in
/-- INTERNAL: a traversal's failure is the action's failure on one of the entries. -/
theorem traverseEntries_eq_error {f : α → Except ε β} {l : List (κ × α)} {e : ε}
    (h : traverseEntries f l = .error e) : ∃ x ∈ l, f x.2 = .error e := by
  induction l with
  | nil => cases h
  | cons head rest ih =>
    obtain ⟨j, v⟩ := head
    simp only [traverseEntries, bind, Except.bind, pure, Except.pure] at h
    cases hv : f v with
    | error e' =>
      simp only [hv, Except.error.injEq] at h
      exact ⟨(j, v), by simp, h ▸ hv⟩
    | ok w =>
      cases hr : traverseEntries f rest with
      | error e' =>
        simp only [hv, hr, Except.error.injEq] at h
        obtain ⟨x, hx, hfx⟩ := ih (h ▸ hr)
        exact ⟨x, List.mem_cons_of_mem _ hx, hfx⟩
      | ok rest' => simp [hv, hr] at h

/-- A traversal fails only with a failure of the action on one of the values. -/
theorem traverse_eq_error {m : OrderedMap κ α} {f : α → Except ε β} {e : ε}
    (h : m.traverse f = .error e) : ∃ k a, m.find? k = some a ∧ f a = .error e := by
  have hl : traverseEntries f m.entries = .error e := by
    unfold traverse at h
    split at h <;> simp_all
  obtain ⟨x, hx, hfx⟩ := traverseEntries_eq_error hl
  exact ⟨x.1, x.2, find?_eq_some_iff.mpr hx, hfx⟩

end OrderedMap

end Tickline.Library
