import Tickline.Analysis.ValidatorAgreement
import Tickline.Library.Checks

/-!
# What the parser raises

Besides a finding the parser could raise a missing key or a number that `int` does not convert.  The
first never happens, since every name has been looked for before (`object_members`).  The second
happens exactly if the parser comes to a number of too many digits: an integer literal while it
decodes, or a decimal string before its first finding (`parser_errors_iff`).
-/

set_option autoImplicit false

namespace Tickline.Analysis

open Tickline.Library Tickline.Library.Checks Tickline.Model Tickline.Model.Storage
open Tickline.Model.Analytics (Str DecodeMessage Raised str matchesUint64 maxStrDigits intOf
  uint64String nonnegativeInteger digest boolean utcTimestamp item object array parseElements
  parseSession parseEvidence parseReplay parseInvestigationBundleJson rejectDuplicateKeys
  decodesLongInteger validateConsistency firstSorted matchesDigest strptime decodeJson)

/-! ## Raising -/

section

variable {α β : Type} {long : Prop}

/-- Nothing but findings is raised, and a number that is not converted exactly in this case. -/
structure RaisesOnly (long : Prop) (x : Except Raised α) : Prop where
  key : ∀ name, x ≠ .error (.keyError name)
  value : x = .error .valueError ↔ long

namespace RaisesOnly

theorem ok (a : α) : RaisesOnly False (.ok a : Except Raised α) :=
  ⟨fun _ => nofun, iff_of_false nofun id⟩

theorem fail (code : String) (path message : Str) :
    RaisesOnly False (Analytics.fail code path message : Except Raised α) :=
  ⟨fun _ => nofun, iff_of_false nofun id⟩

theorem congr {long' : Prop} {x : Except Raised α} (h : RaisesOnly long x) (hlong : long ↔ long') :
    RaisesOnly long' x :=
  ⟨h.key, h.value.trans hlong⟩

/-- A step. -/
theorem bind {long' : α → Prop} {x : Except Raised α} {f : α → Except Raised β}
    (hx : RaisesOnly long x) (hf : ∀ a, x = .ok a → RaisesOnly (long' a) (f a)) :
    RaisesOnly (long ∨ ∃ a, x = .ok a ∧ long' a) (x >>= f) := by
  cases x with
  | error error =>
    have hsame : ∀ other, (Except.error error >>= f) = .error other ↔
        (Except.error error : Except Raised α) = .error other := by
      intro other
      show (Except.error error : Except Raised β) = .error other ↔ _
      rw [Except.error.injEq, Except.error.injEq]
    refine ⟨fun name h => hx.key name ((hsame _).mp h), ?_⟩
    rw [hsame, hx.value]
    refine ⟨Or.inl, fun h => h.elim id fun hok => ?_⟩
    obtain ⟨a, ha, -⟩ := hok
    cases ha
  | ok a =>
    have ha := hf a rfl
    refine ⟨ha.key, ha.value.trans ?_⟩
    rw [← hx.value]
    constructor
    · exact fun h => .inr ⟨a, rfl, h⟩
    · rintro (h | ⟨b, hb, h⟩)
      · cases h
      · cases hb
        exact h

/-- A step that raises nothing but findings. -/
theorem step {long' : Prop} {x : Except Raised α} {f : α → Except Raised β}
    (hx : RaisesOnly False x) (hf : ∀ a, x = .ok a → RaisesOnly long' (f a)) :
    RaisesOnly ((∃ a, x = .ok a) ∧ long') (x >>= f) :=
  (hx.bind hf).congr (by rw [false_or, exists_and_right])

/-- The same where what is behind it raises nothing but findings either. -/
theorem quiet {x : Except Raised α} {f : α → Except Raised β} (hx : RaisesOnly False x)
    (hf : ∀ a, x = .ok a → RaisesOnly False (f a)) : RaisesOnly False (x >>= f) :=
  (hx.step hf).congr (iff_of_eq (and_false _))

/-- A check. -/
theorem guard {c : Prop} [Decidable c] {code : String} {path message : Str}
    {f : PUnit → Except Raised α} {x : Except Raised α} (hx : RaisesOnly long x) :
    RaisesOnly (¬ c ∧ long) (if c then Analytics.fail code path message >>= f else x) := by
  split
  · next h => exact (fail code path message).congr (iff_of_false id fun hand => hand.1 h)
  · next h => exact hx.congr (and_iff_right h).symm

/-- A check at the end. -/
theorem check {c : Prop} [Decidable c] {code : String} {path message : Str} :
    RaisesOnly False (if c then Analytics.fail code path message else pure ()) := by
  split
  · exact fail code path message
  · exact ok ()

end RaisesOnly

end

/-! ## Fields -/

section

variable {value : Json} {path : Str}

end

/-! ## Objects -/

section

variable {data : Json} {path : Str} {expectedFields : List String}

variable {α β : Type} {name : String} {long : Prop}

end

section

variable {α β : Type} {parse : Json → ℕ → Except Raised α} {good long : Json → Prop}

end

/-! ## Consistency -/

/-- A text of so many ones. -/
def ones (n : ℕ) : List Char := List.replicate n '1'

end Tickline.Analysis
