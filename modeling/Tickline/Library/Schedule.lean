import Mathlib.Data.List.MinMax
import Mathlib.Order.Defs.LinearOrder

/-!
# Scheduled writes

A schedule is a list of writes, in the order they were accepted; every write has a key
that says which of two writes is newer and a time from which it is in effect.
`inEffect` is the newest write in effect at a time.

A schedule is `Ordered` when later entries have greater keys and no earlier times.  Then
the newest write is simply the last one (`inEffect_eq_getLast?`), a write that is still
to come changes nothing before its time (`inEffect_concat_of_lt`), and from one time to
the next only the writes of that time matter (`inEffect_succ`).
-/

set_option autoImplicit false

namespace Tickline.Library

variable {α κ τ : Type} [LinearOrder κ] [LinearOrder τ]

/-- The write with the greatest key among those in effect at a time. -/
def inEffect (key : α → κ) (time : α → τ) (writes : List α) (t : τ) : Option α :=
  (writes.filter fun w => time w ≤ t).argmax key

/-- Keys ascend strictly and times never go back. -/
def Ordered (key : α → κ) (time : α → τ) (writes : List α) : Prop :=
  writes.Pairwise fun a b => key a < key b ∧ time a ≤ time b

omit [LinearOrder τ] in
/-- INTERNAL: the greatest of a strictly ascending list is its last element. -/
theorem argmax_eq_getLast? (key : α → κ) {l : List α} (h : l.Pairwise fun a b => key a < key b) :
    l.argmax key = l.getLast? := by
  induction l using List.reverseRecOn with
  | nil => rfl
  | append_singleton l a ih =>
    obtain ⟨hl, -, hlast⟩ := List.pairwise_append.mp h
    rw [List.argmax_concat, ih hl, List.getLast?_concat]
    cases hlast? : l.getLast? with
    | none => rfl
    | some b => simp [hlast b (List.mem_of_getLast? hlast?) a (by simp)]

variable {key : α → κ} {time : α → τ} {writes : List α}

/-- In an ordered schedule the write in effect is the last one whose time has come. -/
theorem inEffect_eq_getLast? (h : Ordered key time writes) (t : τ) :
    inEffect key time writes t = (writes.filter fun w => time w ≤ t).getLast? :=
  argmax_eq_getLast? key ((h.imp And.left).filter _)

/-- A write of a later time is not in effect yet. -/
theorem inEffect_concat_of_lt {w : α} {t : τ} (hw : t < time w) :
    inEffect key time (writes ++ [w]) t = inEffect key time writes t := by
  simp [inEffect, List.filter_append, not_le.mpr hw]

/-- INTERNAL: in an ordered schedule the writes of one time come behind the earlier ones. -/
theorem filter_le_eq_append (h : writes.Pairwise fun a b => time a ≤ time b) {s t : τ}
    (hst : ∀ r, r ≤ t ↔ r ≤ s ∨ r = t) (hlt : s < t) :
    writes.filter (fun w => time w ≤ t) =
      writes.filter (fun w => time w ≤ s) ++ writes.filter fun w => time w = t := by
  induction writes with
  | nil => rfl
  | cons w writes ih =>
    obtain ⟨hw, htail⟩ := List.pairwise_cons.mp h
    by_cases hs : time w ≤ s
    · have hne : time w ≠ t := fun heq => absurd (heq ▸ hs) (not_le.mpr hlt)
      simp [hs, hne, (hst (time w)).mpr (Or.inl hs), ih htail]
    · by_cases heq : time w = t
      · -- Everything behind this write is of this time or later.
        have hnone : writes.filter (fun v => decide (time v ≤ s)) = [] := by
          apply List.filter_eq_nil_iff.mpr
          intro v hv
          have hle := hw v hv
          rw [heq] at hle
          simpa using hlt.trans_le hle
        simp [heq, not_le.mpr hlt, ih htail, hnone]
      · have hnot : ¬ time w ≤ t := fun hle => ((hst _).mp hle).elim hs heq
        simp [hs, heq, hnot, ih htail]

/-- **From one time to the next** the last write of the new time takes over, if there is
one. -/
theorem inEffect_succ (h : Ordered key time writes) {s t : τ}
    (hst : ∀ r, r ≤ t ↔ r ≤ s ∨ r = t) (hlt : s < t) :
    inEffect key time writes t =
      ((writes.filter fun w => time w = t).getLast?).or (inEffect key time writes s) := by
  rw [inEffect_eq_getLast? h, inEffect_eq_getLast? h,
    filter_le_eq_append (h.imp And.right) hst hlt, List.getLast?_append]

/-- A write joins an ordered schedule when nothing in it is newer or later. -/
theorem Ordered.concat (h : Ordered key time writes) {w : α}
    (hw : ∀ v ∈ writes, key v < key w ∧ time v ≤ time w) : Ordered key time (writes ++ [w]) :=
  List.pairwise_append.mpr ⟨h, by simp, by simpa using hw⟩

end Tickline.Library
