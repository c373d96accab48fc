import Mathlib.Data.List.Induction

/-!
# Runs of a partial step function

Actions that a state is not ready for have no next state.  A run over a list of actions has an end
where every action was taken in turn.

* `run_append` splits a run.
* `run_history` is the induction rule: an invariant that relates the actions so far to the state
  holds at the end of every run where every step extends it.  `run_invariant` is its case without
  the actions, and `run_later` says what a run makes of the state it starts from.
* Where some of the actions take something off a measure, they come to rest: `run_length_le` bounds
  how many of them follow each other, and `exists_run_to_rest` leads to a state that is at rest.
-/

set_option autoImplicit false

namespace Tickline.Library.Transitions

variable {σ α : Type} (step : σ → α → Option σ)

/-- The state behind a list of actions, the first action first. -/
def run : σ → List α → Option σ
  | s, [] => some s
  | s, a :: actions => (step s a).bind fun next => run next actions

@[simp] theorem run_nil (s : σ) : run step s [] = some s := rfl

theorem run_cons_eq_some {s t : σ} {a : α} {actions : List α} :
    run step s (a :: actions) = some t ↔
      ∃ next, step s a = some next ∧ run step next actions = some t :=
  Option.bind_eq_some_iff

/-- **A run in two parts.** -/
theorem run_append {s t : σ} {front back : List α} :
    run step s (front ++ back) = some t ↔
      ∃ middle, run step s front = some middle ∧ run step middle back = some t := by
  induction front generalizing s with
  | nil => simp
  | cons a front ih =>
    rw [List.cons_append, run_cons_eq_some]
    constructor
    · rintro ⟨next, hstep, hrest⟩
      obtain ⟨middle, hfront, hback⟩ := ih.mp hrest
      exact ⟨middle, (run_cons_eq_some step).mpr ⟨next, hstep, hfront⟩, hback⟩
    · rintro ⟨middle, hfront, hback⟩
      obtain ⟨next, hstep, hfront⟩ := (run_cons_eq_some step).mp hfront
      exact ⟨next, hstep, ih.mpr ⟨middle, hfront, hback⟩⟩

theorem run_concat {s t : σ} {front : List α} {a : α} :
    run step s (front ++ [a]) = some t ↔
      ∃ middle, run step s front = some middle ∧ step middle a = some t := by
  rw [run_append]
  refine exists_congr fun middle => and_congr_right fun _ => ?_
  rw [run_cons_eq_some]
  simp

variable {step}

/-- **What every step extends holds of every run.** -/
theorem run_history {J : List α → σ → Prop} {start : σ} (hstart : J [] start)
    (hstep : ∀ front s a t, run step start front = some s → J front s → step s a = some t →
      J (front ++ [a]) t) {actions : List α} {s : σ} (h : run step start actions = some s) :
    J actions s := by
  induction actions using List.reverseRecOn generalizing s with
  | nil => exact Option.some.inj h ▸ hstart
  | append_singleton front a ih =>
    obtain ⟨middle, hfront, hlast⟩ := (run_concat step).mp h
    exact hstep front middle a s hfront (ih hfront) hlast

theorem run_invariant {I : σ → Prop} {start : σ} (hstart : I start)
    (hstep : ∀ s a t, I s → step s a = some t → I t) {actions : List α} {s : σ}
    (h : run step start actions = some s) : I s :=
  run_history (J := fun _ => I) hstart (fun _ s a t _ hs hnext => hstep s a t hs hnext) h

/-- What holds of a state and of the states that every step leads to from there. -/
theorem run_later {R : σ → σ → Prop} (hrefl : ∀ s, R s s)
    (hstep : ∀ s a t u, step s a = some t → R t u → R s u) {actions : List α} {s t : σ}
    (h : run step s actions = some t) : R s t := by
  induction actions generalizing s with
  | nil => exact Option.some.inj h ▸ hrefl s
  | cons a actions ih =>
    obtain ⟨next, hnext, hrest⟩ := (run_cons_eq_some step).mp h
    exact hstep s a next t hnext (ih hrest)

/-! ## Coming to rest -/

section Rest

variable {P : α → Prop} {I : σ → Prop} {measure : σ → ℕ}

/-- **Actions that take something off a measure follow each other no more often than it says.** -/
theorem run_length_le
    (hstep : ∀ s a t, I s → P a → step s a = some t → I t ∧ measure t < measure s)
    {actions : List α} {s t : σ} (hs : I s) (hactions : ∀ a ∈ actions, P a)
    (h : run step s actions = some t) : actions.length ≤ measure s := by
  induction actions generalizing s with
  | nil => exact Nat.zero_le _
  | cons a actions ih =>
    obtain ⟨next, hnext, hrest⟩ := (run_cons_eq_some step).mp h
    obtain ⟨hkept, hless⟩ := hstep s a next hs (hactions a List.mem_cons_self) hnext
    have hlength := ih hkept (fun b hb => hactions b (List.mem_cons_of_mem _ hb)) hrest
    exact Nat.succ_le_of_lt (Nat.lt_of_le_of_lt hlength hless)

/-- **They lead to a state at rest**, where one of them is possible in every other state. -/
theorem exists_run_to_rest
    (hstep : ∀ s a t, I s → P a → step s a = some t → I t ∧ measure t < measure s)
    {rest : σ → Prop} (hmove : ∀ s, I s → ¬ rest s → ∃ a t, P a ∧ step s a = some t)
    {s : σ} (hs : I s) :
    ∃ actions t, (∀ a ∈ actions, P a) ∧ run step s actions = some t ∧ I t ∧ rest t := by
  induction hm : measure s using Nat.strongRecOn generalizing s with
  | ind m ih =>
    by_cases hrest : rest s
    · exact ⟨[], s, by simp, rfl, hs, hrest⟩
    · obtain ⟨a, next, ha, hnext⟩ := hmove s hs hrest
      obtain ⟨hkept, hless⟩ := hstep s a next hs ha hnext
      obtain ⟨actions, t, hactions, hrun, ht, hdone⟩ := ih _ (hm ▸ hless) hkept rfl
      refine ⟨a :: actions, t, List.forall_mem_cons.mpr ⟨ha, hactions⟩, ?_, ht, hdone⟩
      exact (run_cons_eq_some step).mpr ⟨next, hnext, hrun⟩

end Rest

end Tickline.Library.Transitions
