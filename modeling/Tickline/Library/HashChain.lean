import Mathlib.Data.List.Induction

/-!
# Hash chains

A hash chain is a list of records in which each record carries its own position and
the digest of the encoding of the record before it; the first carries a genesis
digest.  `Linked` says that a list continues a chain, and names the digest it ends at.

The head of a chain binds all of it (`Linked.binding`), where encodings tell the records
apart: two chains with one head are equal, or two different encodings in them have one
digest, or some encoding's digest is the genesis digest.  The induction runs backwards
from the head, and the last case is where one chain ends before the other.
-/

set_option autoImplicit false

namespace Tickline.Library

/-- What a hash chain is made of: how records are encoded and hashed, and the two
fields by which a record names its place. -/
structure HashChain (R B D : Type) where
  encode : R → B
  hash : B → D
  ordinal : R → ℕ
  previous : R → D

namespace HashChain

variable {R B D : Type} (C : HashChain R B D)

/-- The digest of one record. -/
def digest (r : R) : D := C.hash (C.encode r)

/-- `rs` continues a chain at position `i` behind digest `p`, and ends at digest `h`. -/
def Linked : ℕ → D → List R → D → Prop
  | _, p, [], h => p = h
  | i, p, r :: rs, h => C.ordinal r = i ∧ C.previous r = p ∧ Linked (i + 1) (C.digest r) rs h

variable {C}

/-- A chain in two parts meets at some digest. -/
theorem linked_append {i : ℕ} {p h : D} {rs ss : List R} :
    C.Linked i p (rs ++ ss) h ↔ ∃ q, C.Linked i p rs q ∧ C.Linked (i + rs.length) q ss h := by
  induction rs generalizing i p with
  | nil => simp [Linked]
  | cons r rs ih =>
    have hidx : i + 1 + rs.length = i + (rs.length + 1) := by omega
    simp only [List.cons_append, Linked, ih, List.length_cons, hidx]
    constructor
    · rintro ⟨ho, hp, q, hq, hs⟩
      exact ⟨q, ⟨ho, hp, hq⟩, hs⟩
    · rintro ⟨q, ⟨ho, hp, hq⟩, hs⟩
      exact ⟨ho, hp, q, hq, hs⟩

/-- The last record of a chain: its place, and the head it gives. -/
theorem linked_concat {i : ℕ} {p h : D} {rs : List R} {r : R} :
    C.Linked i p (rs ++ [r]) h ↔
      C.ordinal r = i + rs.length ∧ C.Linked i p rs (C.previous r) ∧ C.digest r = h := by
  rw [linked_append]
  constructor
  · rintro ⟨q, hq, ho, hp, hd⟩
    exact ⟨ho, hp ▸ hq, hd⟩
  · rintro ⟨ho, hq, hd⟩
    exact ⟨C.previous r, hq, ho, rfl, hd⟩

/-- The records of a chain are numbered one after the other. -/
theorem Linked.ordinals {i : ℕ} {p h : D} {rs : List R} (hlinked : C.Linked i p rs h) :
    rs.map C.ordinal = List.range' i rs.length := by
  induction rs generalizing i p with
  | nil => rfl
  | cons r rs ih =>
    obtain ⟨hordinal, -, hrest⟩ := hlinked
    rw [List.map_cons, hordinal, ih hrest, List.length_cons, List.range'_succ]

/-- The numbers of a chain's records ascend. -/
theorem Linked.ascending {i : ℕ} {p h : D} {rs : List R} (hlinked : C.Linked i p rs h) :
    rs.Pairwise fun r s => C.ordinal r < C.ordinal s := by
  rw [← List.pairwise_map, hlinked.ordinals]
  exact List.pairwise_lt_range'

/-- Two chains break the hash: two different encodings, one from each, have one
digest, or an encoding's digest is the genesis digest. -/
def Break (C : HashChain R B D) (genesis : D) (rs ss : List R) : Prop :=
  (∃ r ∈ rs, ∃ s ∈ ss, C.encode r ≠ C.encode s ∧ C.digest r = C.digest s) ∨
    ∃ r ∈ rs ++ ss, C.digest r = genesis

/-- A break in a part of two chains is a break in the chains. -/
theorem Break.mono {genesis : D} {rs ss rs' ss' : List R} (hr : rs ⊆ rs') (hs : ss ⊆ ss')
    (h : C.Break genesis rs ss) : C.Break genesis rs' ss' := by
  rcases h with ⟨r, hr', s, hs', hne, hd⟩ | ⟨r, hmem, hd⟩
  · exact Or.inl ⟨r, hr hr', s, hs hs', hne, hd⟩
  · refine Or.inr ⟨r, ?_, hd⟩
    rcases List.mem_append.mp hmem with h | h
    · exact List.mem_append_left _ (hr h)
    · exact List.mem_append_right _ (hs h)

/-- **A head binds its chain**: chains from one genesis to one head are equal, or they
exhibit a break of the hash. -/
theorem Linked.binding {i : ℕ} {genesis h : D} {rs ss : List R}
    (hinj : ∀ r ∈ rs, ∀ s ∈ ss, C.encode r = C.encode s → r = s)
    (hr : C.Linked i genesis rs h) (hs : C.Linked i genesis ss h) :
    rs = ss ∨ C.Break genesis rs ss := by
  -- Backward from the shared head: the last records agree, then what precedes them does.
  induction rs using List.reverseRecOn generalizing ss h with
  | nil =>
    rcases List.eq_nil_or_concat ss with rfl | ⟨ss, s, rfl⟩
    · exact Or.inl rfl
    · rw [List.concat_eq_append] at hs
      obtain ⟨-, -, hd⟩ := linked_concat.mp hs
      exact Or.inr (Or.inr ⟨s, by simp, hd.trans hr.symm⟩)
  | append_singleton rs r ih =>
    obtain ⟨-, hr', hdr⟩ := linked_concat.mp hr
    rcases List.eq_nil_or_concat ss with rfl | ⟨ss, s, rfl⟩
    · exact Or.inr (Or.inr ⟨r, by simp, hdr.trans hs.symm⟩)
    · rw [List.concat_eq_append] at hs hinj ⊢
      obtain ⟨-, hs', hds⟩ := linked_concat.mp hs
      by_cases henc : C.encode r = C.encode s
      · obtain rfl := hinj r (by simp) s (by simp) henc
        have hinj' : ∀ r ∈ rs, ∀ s ∈ ss, C.encode r = C.encode s → r = s :=
          fun r hr s hs => hinj r (List.mem_append_left _ hr) s (List.mem_append_left _ hs)
        rcases ih hinj' hr' hs' with rfl | hbreak
        · exact Or.inl rfl
        · exact Or.inr (hbreak.mono (List.subset_append_left _ _) (List.subset_append_left _ _))
      · exact Or.inr (Or.inl ⟨r, by simp, s, by simp, henc, hdr.trans hds.symm⟩)

end HashChain

end Tickline.Library
