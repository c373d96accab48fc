import Mathlib.Data.List.Basic
import Mathlib.Tactic.SplitIfs

/-!
# Cutting a stream into items

A `Framer` looks at the front of a stream and says whether it holds a whole item, cannot
become one, or is too short to tell.  Its verdicts are final: an item is decided by its own
elements, and what is bad stays bad whatever follows.

* `split` cuts a stream greedily: the items, what is left, and the error that stopped it.
  `split_append` is its induction rule, one stream behind another.
* `delivered` is what a reader gets who pushes the stream in chunks into a parser that
  answers a push with its items **or** with an error.  A push that meets the error answers
  with it alone, so the items complete in that chunk are lost;
  `delivered_eq_iff` says exactly when none is.
-/

set_option autoImplicit false

namespace Tickline.Library

/-- What the front of a stream is. -/
inductive Verdict (α ε : Type)
  | more
  | bad (e : ε)
  | item (size : ℕ) (a : α)

/-- A reader of the front of a stream whose verdicts are final. -/
structure Framer (β α ε : Type) where
  next : List β → Verdict α ε
  bad_append : ∀ {s e} (t), next s = .bad e → next (s ++ t) = .bad e
  item_local : ∀ {s n a} (t), next s = .item n a → next (s.take n ++ t) = .item n a
  item_size : ∀ {s n a}, next s = .item n a → 0 < n ∧ n ≤ s.length

/-- A stream cut into items. -/
structure Split (β α ε : Type) where
  items : List α
  rest : List β
  failure : Option ε

namespace Framer

variable {β α ε : Type} (F : Framer β α ε)

/-- Cut items off a stream as long as there are whole ones. -/
def split (s : List β) : Split β α ε :=
  match _h : F.next s with
  | .more => ⟨[], s, none⟩
  | .bad e => ⟨[], s, some e⟩
  | .item n a =>
    let tail := split (s.drop n)
    { tail with items := a :: tail.items }
termination_by s.length
decreasing_by
  have hsize := F.item_size _h
  rw [List.length_drop]
  omega

variable {F}

/-! ## One step -/

theorem split_more {s : List β} (h : F.next s = .more) : F.split s = ⟨[], s, none⟩ := by
  rw [split]
  split <;> simp_all

theorem split_bad {s : List β} {e : ε} (h : F.next s = .bad e) :
    F.split s = ⟨[], s, some e⟩ := by
  rw [split]
  split <;> simp_all

theorem split_item {s : List β} {n : ℕ} {a : α} (h : F.next s = .item n a) :
    F.split s = { F.split (s.drop n) with items := a :: (F.split (s.drop n)).items } := by
  rw [split]
  split
  · simp_all
  · simp_all
  · rename_i n' a' h'
    obtain ⟨rfl, rfl⟩ : n = n' ∧ a = a' := by simpa [h] using h'
    rfl

/-- A whole item is seen in every longer stream. -/
theorem item_append {s : List β} {n : ℕ} {a : α} (t : List β) (h : F.next s = .item n a) :
    F.next (s ++ t) = .item n a := by
  have htake := F.item_local (s.drop n ++ t) h
  rwa [← List.append_assoc, List.take_append_drop] at htake

/-- An item that a longer stream completes was not complete before. -/
theorem item_exceeds {s t : List β} {n : ℕ} {a : α} (h : F.next s = .more)
    (hitem : F.next (s ++ t) = .item n a) : s.length < n := by
  by_contra hle
  have htake := F.item_local (s.drop n) hitem
  rw [List.take_append_of_le_length (by omega), List.take_append_drop] at htake
  rw [htake] at h
  cases h

/-! ## The induction rule -/

/-- What is left of a clean cut is too short to tell. -/
theorem next_rest {s : List β} (h : (F.split s).failure = none) :
    F.next (F.split s).rest = .more := by
  induction s using split.induct F with
  | case1 s hmore => rwa [split_more hmore]
  | case2 s e hbad =>
    rw [split_bad hbad] at h
    cases h
  | case3 s n a hitem ih =>
    rw [split_item hitem] at h ⊢
    exact ih h

/-- What is left of a failed cut starts with the error. -/
theorem next_rest_bad {s : List β} {e : ε} (h : (F.split s).failure = some e) :
    F.next (F.split s).rest = .bad e := by
  induction s using split.induct F with
  | case1 s hmore =>
    rw [split_more hmore] at h
    cases h
  | case2 s e' hbad =>
    rw [split_bad hbad] at h ⊢
    cases h
    exact hbad
  | case3 s n a hitem ih =>
    rw [split_item hitem] at h ⊢
    exact ih h

/-- **A stream behind another**: cut the first, then go on with its rest. -/
theorem split_append (s t : List β) :
    F.split (s ++ t) = match (F.split s).failure with
      | some e => ⟨(F.split s).items, (F.split s).rest ++ t, some e⟩
      | none =>
        { F.split ((F.split s).rest ++ t) with
          items := (F.split s).items ++ (F.split ((F.split s).rest ++ t)).items } := by
  induction s using split.induct F with
  | case1 s hmore => simp [split_more hmore]
  | case2 s e hbad => simp [split_bad hbad, split_bad (F.bad_append t hbad)]
  | case3 s n a hitem ih =>
    have hsize := (F.item_size hitem).2
    rw [split_item hitem, split_item (item_append t hitem), List.drop_append_of_le_length hsize, ih]
    cases (F.split (s.drop n)).failure <;> rfl

/-- The rule for a clean first stream. -/
theorem split_append_clean {s : List β} (t : List β) (h : (F.split s).failure = none) :
    F.split (s ++ t) =
      { F.split ((F.split s).rest ++ t) with
        items := (F.split s).items ++ (F.split ((F.split s).rest ++ t)).items } := by
  rw [split_append, h]

/-- The rule for a failed first stream. -/
theorem split_append_failed {s : List β} {e : ε} (t : List β) (h : (F.split s).failure = some e) :
    F.split (s ++ t) = ⟨(F.split s).items, (F.split s).rest ++ t, some e⟩ := by
  rw [split_append, h]

/-- A list of whole items in front of a stream. -/
theorem split_items {parts : List (List β)} {items : List α}
    (h : List.Forall₂ (fun part a => F.next part = .item part.length a) parts items)
    (t : List β) :
    F.split (parts.flatten ++ t) = { F.split t with items := items ++ (F.split t).items } := by
  induction h with
  | nil => rfl
  | cons hitem _ ih =>
    rw [List.flatten_cons, List.append_assoc, split_item (item_append _ hitem),
      List.drop_left, ih]
    rfl

/-- A cut stream is its items and the rest, one behind the other. -/
theorem exists_parts (s : List β) :
    ∃ parts, List.Forall₂ (fun part a => F.next part = .item part.length a) parts
      (F.split s).items ∧ s = parts.flatten ++ (F.split s).rest := by
  induction s using split.induct F with
  | case1 s hmore => exact ⟨[], by simp [split_more hmore], by simp [split_more hmore]⟩
  | case2 s e hbad => exact ⟨[], by simp [split_bad hbad], by simp [split_bad hbad]⟩
  | case3 s n a hitem ih =>
    obtain ⟨parts, hparts, hs⟩ := ih
    have hlen : (s.take n).length = n := by
      rw [List.length_take]
      exact Nat.min_eq_left (F.item_size hitem).2
    have htake := F.item_local [] hitem
    rw [List.append_nil] at htake
    rw [split_item hitem]
    refine ⟨s.take n :: parts, List.Forall₂.cons (htake.trans (by rw [hlen])) hparts, ?_⟩
    · rw [List.flatten_cons, List.append_assoc, ← hs, List.take_append_drop]

/-- What a stream leaves behind a prefix that has yielded all its items: the rest of the
prefix and what follows it. -/
theorem rest_of_prefix {s t : List β} (hclean : (F.split s).failure = none)
    (hitems : (F.split s).items = (F.split (s ++ t)).items) :
    (F.split (s ++ t)).rest = (F.split s).rest ++ t := by
  rw [split_append_clean t hclean] at hitems ⊢
  have hnil : (F.split ((F.split s).rest ++ t)).items = [] := by
    simpa using hitems.symm
  cases hnext : F.next ((F.split s).rest ++ t) with
  | more => simp only [split_more hnext]
  | bad e' => simp only [split_bad hnext]
  | item n a =>
    rw [split_item hnext] at hnil
    cases hnil

/-! ## Reading in chunks -/

variable (F)

/-- What a reader gets who pushes chunks behind a buffer: the items of every push, up to
the push that meets an error, which returns none. -/
def delivered : List β → List (List β) → List α
  | _, [] => []
  | buffer, chunk :: chunks =>
    match (F.split (buffer ++ chunk)).failure with
    | some _ => []
    | none => (F.split (buffer ++ chunk)).items ++
        delivered (F.split (buffer ++ chunk)).rest chunks

variable {F}

/-- A clean stream is delivered whole, however it is cut. -/
theorem delivered_clean {buffer : List β} (hbuffer : F.next buffer = .more)
    {chunks : List (List β)} (h : (F.split (buffer ++ chunks.flatten)).failure = none) :
    F.delivered buffer chunks = (F.split (buffer ++ chunks.flatten)).items := by
  induction chunks generalizing buffer with
  | nil =>
    rw [List.flatten_nil, List.append_nil, split_more hbuffer]
    rfl
  | cons chunk chunks ih =>
    rw [List.flatten_cons, ← List.append_assoc] at h ⊢
    unfold delivered
    cases hchunk : (F.split (buffer ++ chunk)).failure with
    | some e =>
      rw [split_append_failed _ hchunk] at h
      cases h
    | none =>
      rw [split_append_clean _ hchunk] at h ⊢
      rw [ih (next_rest hchunk) h]

/-- **When a stream with an error in it is delivered up to the error**: it has no item at
all, or some chunk ends behind the last item and before the error shows. -/
theorem delivered_eq_iff {buffer : List β} (hbuffer : F.next buffer = .more)
    {chunks : List (List β)} {e : ε}
    (h : (F.split (buffer ++ chunks.flatten)).failure = some e) :
    F.delivered buffer chunks = (F.split (buffer ++ chunks.flatten)).items ↔
      (F.split (buffer ++ chunks.flatten)).items = [] ∨
        ∃ k, (F.split (buffer ++ (chunks.take k).flatten)).failure = none ∧
          (F.split (buffer ++ (chunks.take k).flatten)).items =
            (F.split (buffer ++ chunks.flatten)).items := by
  induction chunks generalizing buffer with
  | nil =>
    rw [List.flatten_nil, List.append_nil, split_more hbuffer] at h
    cases h
  | cons chunk chunks ih =>
    rw [List.flatten_cons, ← List.append_assoc] at h ⊢
    unfold delivered
    cases hchunk : (F.split (buffer ++ chunk)).failure with
    | some e' =>
      constructor
      · intro hnil
        exact Or.inl hnil.symm
      · rintro (hnil | ⟨k, hclean, hitems⟩)
        · exact hnil.symm
        · -- only the empty prefix of the chunks is still clean
          cases k with
          | zero =>
            rw [List.take_zero, List.flatten_nil, List.append_nil, split_more hbuffer] at hitems
            exact hitems
          | succ k =>
            rw [List.take_succ_cons, List.flatten_cons, ← List.append_assoc,
              split_append_failed _ hchunk] at hclean
            cases hclean
    | none =>
      have hstep := ih (next_rest hchunk)
      rw [split_append_clean _ hchunk] at h ⊢
      simp only [List.append_cancel_left_eq]
      rw [hstep h]
      constructor
      · rintro (hnil | ⟨k, hclean, hitems⟩)
        · refine Or.inr ⟨1, ?_⟩
          rw [List.take_succ_cons, List.take_zero, List.flatten_singleton, hnil, List.append_nil]
          exact ⟨hchunk, rfl⟩
        · refine Or.inr ⟨k + 1, ?_⟩
          rw [List.take_succ_cons, List.flatten_cons, ← List.append_assoc,
            split_append_clean _ hchunk]
          exact ⟨hclean, congrArg _ hitems⟩
      · rintro (hnil | ⟨k, hclean, hitems⟩)
        · exact Or.inl (List.append_eq_nil_iff.mp hnil).2
        · cases k with
          | zero =>
            rw [List.take_zero, List.flatten_nil, List.append_nil, split_more hbuffer] at hitems
            exact Or.inl (List.append_eq_nil_iff.mp hitems.symm).2
          | succ k =>
            rw [List.take_succ_cons, List.flatten_cons, ← List.append_assoc,
              split_append_clean _ hchunk] at hclean hitems
            exact Or.inr ⟨k, hclean, List.append_cancel_left hitems⟩

end Framer

end Tickline.Library
