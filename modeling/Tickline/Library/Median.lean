import Mathlib.Algebra.Order.Field.Basic
import Mathlib.Data.List.Sort

/-!
# Medians

The median of a list over an ordered field: the value in the middle of the sorted list, or the mean
of the two there.  It does not depend on the order of the list (`median?_perm`), and at most half of
the values are greater (`countP_median_lt`).
-/

set_option autoImplicit false

namespace Tickline.Library

variable {𝕜 : Type} [LinearOrder 𝕜]

/-- The values in ascending order. -/
def ascending (values : List 𝕜) : List 𝕜 := values.insertionSort (· ≤ ·)

theorem ascending_perm (values : List 𝕜) : (ascending values).Perm values :=
  List.perm_insertionSort _ values

theorem ascending_pairwise (values : List 𝕜) : (ascending values).Pairwise (· ≤ ·) :=
  List.pairwise_insertionSort _ values

/-- INTERNAL: of an ascending list, at most what is behind a place is greater than what is there. -/
theorem countP_lt_of_place {sorted : List 𝕜} (hsorted : sorted.Pairwise (· ≤ ·)) {place : ℕ}
    {value : 𝕜} (hplace : sorted[place]? = some value) {bound : 𝕜} (hbound : value ≤ bound) :
    sorted.countP (bound < ·) ≤ sorted.length - (place + 1) := by
  obtain ⟨hlt, hget⟩ := List.getElem?_eq_some_iff.mp hplace
  have hfront : (sorted.take (place + 1)).countP (bound < ·) = 0 := by
    rw [List.countP_eq_zero]
    intro item hitem
    obtain ⟨i, hi, rfl⟩ := List.mem_iff_getElem.mp hitem
    rw [List.length_take] at hi
    rw [List.getElem_take]
    simp only [decide_eq_true_eq, not_lt]
    refine le_trans ?_ hbound
    rw [← hget]
    rcases Nat.lt_or_ge i place with hless | hge
    · exact List.pairwise_iff_getElem.mp hsorted i place (by omega) hlt hless
    · exact le_of_eq (by congr 1; omega)
  calc sorted.countP (bound < ·)
      = (sorted.take (place + 1)).countP (bound < ·) +
          (sorted.drop (place + 1)).countP (bound < ·) := by
        rw [← List.countP_append, List.take_append_drop]
    _ ≤ 0 + (sorted.drop (place + 1)).length := by
        rw [hfront]
        exact Nat.add_le_add_left List.countP_le_length 0
    _ = sorted.length - (place + 1) := by rw [Nat.zero_add, List.length_drop]

variable [Field 𝕜]

/-- The median of a list, if it is not empty. -/
def median? (values : List 𝕜) : Option 𝕜 :=
  let sorted := ascending values
  let half := sorted.length / 2
  if sorted.length % 2 = 1 then sorted[half]?
  else if half = 0 then none
  else do
    let left ← sorted[half - 1]?
    let right ← sorted[half]?
    return (left + right) / 2

/-- **The median forgets the order** of the values. -/
theorem median?_perm {values others : List 𝕜} (h : values.Perm others) :
    median? values = median? others := by
  have hsame : ascending values = ascending others :=
    (((ascending_perm values).trans h).trans (ascending_perm others).symm).eq_of_pairwise'
      (ascending_pairwise values) (ascending_pairwise others)
  unfold median?
  rw [hsame]

/-- A list that is not empty has a median. -/
theorem exists_median {values : List 𝕜} (h : values ≠ []) : ∃ m, median? values = some m := by
  have hlength : 0 < (ascending values).length := by
    rw [(ascending_perm values).length_eq]
    exact List.length_pos_iff.mpr h
  unfold median?
  dsimp only
  split
  · exact ⟨_, List.getElem?_eq_getElem (by omega)⟩
  · rw [if_neg (by omega), List.getElem?_eq_getElem (i := (ascending values).length / 2 - 1) (by omega),
      List.getElem?_eq_getElem (i := (ascending values).length / 2) (by omega)]
    exact ⟨_, rfl⟩

variable [IsStrictOrderedRing 𝕜]

/-- **At most half of the values are greater than their median.** -/
theorem countP_median_lt {values : List 𝕜} {m : 𝕜} (h : median? values = some m) :
    2 * values.countP (m < ·) ≤ values.length := by
  have hperm := ascending_perm values
  have hsorted := ascending_pairwise values
  rw [← hperm.countP_eq, ← hperm.length_eq]
  unfold median? at h
  dsimp only at h
  split at h
  · have hcount := countP_lt_of_place hsorted h le_rfl
    omega
  · split at h
    · cases h
    · obtain ⟨left, hleft, h⟩ := Option.bind_eq_some_iff.mp h
      obtain ⟨right, hright, h⟩ := Option.bind_eq_some_iff.mp h
      have hmiddle : (left + right) / 2 = m := Option.some.inj h
      have hle : left ≤ right := by
        obtain ⟨hi, rfl⟩ := List.getElem?_eq_some_iff.mp hleft
        obtain ⟨hj, rfl⟩ := List.getElem?_eq_some_iff.mp hright
        exact List.pairwise_iff_getElem.mp hsorted _ _ hi hj (by omega)
      have hbound : left ≤ m := by
        rw [← hmiddle, le_div_iff₀ two_pos, mul_two]
        exact add_le_add_right hle left
      have hcount := countP_lt_of_place hsorted hleft hbound
      omega

/-- **At most half of the values are farther from a point** than the median of the distances to
it. -/
theorem countP_farther_le {values : List 𝕜} {center deviation : 𝕜}
    (h : median? (values.map fun value => |value - center|) = some deviation) :
    2 * values.countP (fun value => deviation < |value - center|) ≤ values.length := by
  have hcount := countP_median_lt h
  rwa [List.countP_map, List.length_map] at hcount

end Tickline.Library
