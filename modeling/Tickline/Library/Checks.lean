import Mathlib.Data.List.Forall2

/-!
# Functions that stop at the first failing check

A function in `Except` that succeeds has passed all of its checks.  These rules take such a
function apart: a guard that throws, a step, a step whose error is wrapped, and a loop of steps.
-/

set_option autoImplicit false

namespace Tickline.Library.Checks

variable {α β ε ε' : Type}

theorem throw_bind (e : ε) (f : α → Except ε β) : ((throw e : Except ε α) >>= f) = .error e := rfl

theorem throw_ne_ok {e : ε} {a : α} : (throw e : Except ε α) ≠ .ok a := by
  rintro ⟨⟩

theorem pure_eq_ok {a b : α} : (pure a : Except ε α) = .ok b ↔ a = b := Except.ok.injEq a b ▸ Iff.rfl

/-- A guard. -/
theorem ite_error_eq_ok {c : Prop} [Decidable c] {e : ε} {x : Except ε α} {a : α} :
    (if c then .error e else x) = .ok a ↔ ¬ c ∧ x = .ok a := by
  split <;> simp [*]

/-- A step. -/
theorem bind_ok_iff {x : Except ε α} {f : α → Except ε β} {b : β} :
    (x >>= f) = .ok b ↔ ∃ a, x = .ok a ∧ f a = .ok b := by
  cases x <;> simp [bind, Except.bind]

/-- A step whose error is wrapped. -/
theorem mapError_eq_ok {x : Except ε α} {f : ε → ε'} {a : α} :
    x.mapError f = .ok a ↔ x = .ok a := by
  cases x <;> simp [Except.mapError]

/-- A loop of steps that keep nothing. -/
theorem forIn_eq_ok {items : List α} {check : α → Except ε Unit} :
    (forIn items PUnit.unit fun item (_ : PUnit) => do
      check item
      pure (ForInStep.yield PUnit.unit)) = Except.ok PUnit.unit ↔
      ∀ item ∈ items, check item = .ok () := by
  induction items with
  | nil => simp [pure, Except.pure]
  | cons item items ih =>
    rw [List.forIn_cons, List.forall_mem_cons, ← ih, bind_ok_iff]
    cases hcheck : check item with
    | error e => simp [bind, Except.bind]
    | ok _ => simp [bind, Except.bind, pure, Except.pure]

/-- A loop of steps that keep what each returns. -/
theorem mapM_ok_iff {items : List α} {step : α → Except ε β} {results : List β} :
    items.mapM step = .ok results ↔
      List.Forall₂ (fun item result => step item = .ok result) items results := by
  induction items generalizing results with
  | nil =>
    rw [List.mapM_nil, pure_eq_ok, List.forall₂_nil_left_iff, eq_comm]
  | cons item items ih =>
    simp only [List.mapM_cons, bind_ok_iff, pure_eq_ok, ih, List.forall₂_cons_left_iff]
    constructor
    · rintro ⟨result, hitem, rest, hrest, rfl⟩
      exact ⟨result, rest, hitem, hrest, rfl⟩
    · rintro ⟨result, rest, hitem, hrest, rfl⟩
      exact ⟨result, hitem, rest, hrest, rfl⟩

/-- A loop of steps none of which throws. -/
theorem mapM_ok {items : List α} {step : α → Except ε β} {f : α → β}
    (h : ∀ item ∈ items, step item = .ok (f item)) : items.mapM step = .ok (items.map f) := by
  rw [mapM_ok_iff, List.forall₂_map_right_iff, List.forall₂_same]
  exact h

/-- A loop of steps each of which returns something. -/
theorem exists_mapM_ok (items : List α) (step : α → Except ε β)
    (h : ∀ item ∈ items, ∃ result, step item = .ok result) :
    ∃ results, items.mapM step = .ok results ∧
      ∀ result ∈ results, ∃ item ∈ items, step item = .ok result := by
  induction items with
  | nil => exact ⟨[], rfl, by simp⟩
  | cons item items ih =>
    obtain ⟨⟨result, hitem⟩, hrest⟩ := List.forall_mem_cons.mp h
    obtain ⟨results, hmapped, hall⟩ := ih hrest
    refine ⟨result :: results, ?_, List.forall_mem_cons.mpr ⟨⟨item, by simp, hitem⟩, ?_⟩⟩
    · rw [List.mapM_cons, hitem, hmapped]
      rfl
    · intro other hother
      obtain ⟨source, hmem, heq⟩ := hall other hother
      exact ⟨source, List.mem_cons_of_mem _ hmem, heq⟩

/-! ## An error that is never thrown -/

theorem ite_error_ne_error {c : Prop} [Decidable c] {e e' : ε} {x : Except ε α} (he : e' ≠ e)
    (hx : x ≠ .error e) : (if c then .error e' else x) ≠ .error e := by
  split
  · exact fun h => he (Except.error.inj h)
  · exact hx

theorem bind_ne_error {x : Except ε α} {f : α → Except ε β} {e : ε} (hx : x ≠ .error e)
    (hf : ∀ a, f a ≠ .error e) : (x >>= f) ≠ .error e := by
  cases x with
  | error e' => exact fun h => hx (congrArg Except.error (Except.error.inj h))
  | ok a => exact hf a

theorem mapM_ne_error {items : List α} {step : α → Except ε β} {e : ε}
    (h : ∀ item ∈ items, step item ≠ .error e) : items.mapM step ≠ .error e := by
  induction items with
  | nil => exact fun heq => by cases heq
  | cons item items ih =>
    obtain ⟨hitem, hrest⟩ := List.forall_mem_cons.mp h
    rw [List.mapM_cons]
    exact bind_ne_error hitem fun _ => bind_ne_error (ih hrest) fun _ heq => by cases heq

theorem mapError_ne_error {x : Except ε α} {f : ε → ε'} {e : ε'}
    (h : ∀ e', x = .error e' → f e' ≠ e) : x.mapError f ≠ .error e := by
  cases x with
  | error e' => exact fun heq => h e' rfl (Except.error.inj heq)
  | ok a => exact fun heq => by cases heq

theorem forIn_ne_error {items : List α} {check : α → Except ε Unit} {e : ε}
    (h : ∀ item ∈ items, check item ≠ .error e) :
    (forIn items PUnit.unit fun item (_ : PUnit) => do
      check item
      pure (ForInStep.yield PUnit.unit)) ≠ .error e := by
  induction items with
  | nil => exact fun heq => by cases heq
  | cons item items ih =>
    obtain ⟨hitem, hrest⟩ := List.forall_mem_cons.mp h
    rw [List.forIn_cons, bind_assoc]
    exact bind_ne_error hitem fun _ => ih hrest

end Tickline.Library.Checks
