import Mathlib.Data.List.Induction

/-!
# Machines that answer calls

A `Machine` answers every call in every state and moves to a next state; a call that
fails is a call whose answer says so.  A run from a state over a list of calls has a
final state and a `trace` that pairs each call with its answer.

* `final_invariant`, `trace_invariant` and `history` are the induction rules: what one
  call preserves holds after every run, what holds of one answer holds of a whole
  trace, and an invariant may speak about the trace so far.  `trace_pairwise` is the case
  of events that a run produces in order, such as what a high-water mark lets through.
* `Local` says that each call works on one part of the state, named by a key.  Then two
  runs that agree on the calls of every key agree on every part and on every answer
  (`Local.view_final_eq`, `Local.trace_filter_eq`), however the keys interleave.
-/

set_option autoImplicit false

namespace Tickline.Library

/-- States `σ`, calls `γ`, answers `ω`. -/
structure Machine (σ γ ω : Type) where
  perform : γ → σ → ω × σ

namespace Machine

variable {σ γ ω κ ν : Type} (m : Machine σ γ ω)

/-- The answer to one call. -/
def answer (c : γ) (s : σ) : ω := (m.perform c s).1

/-- The state after one call. -/
def next (c : γ) (s : σ) : σ := (m.perform c s).2

/-- The state after a list of calls, the first call first. -/
def final : σ → List γ → σ
  | s, [] => s
  | s, c :: cs => final (m.next c s) cs

/-- The calls of a run with their answers. -/
def trace : σ → List γ → List (γ × ω)
  | _, [] => []
  | s, c :: cs => (c, m.answer c s) :: trace (m.next c s) cs

@[simp] theorem final_nil (s : σ) : m.final s [] = s := rfl

@[simp] theorem trace_nil (s : σ) : m.trace s [] = [] := rfl

@[simp] theorem final_cons (s : σ) (c : γ) (cs : List γ) :
    m.final s (c :: cs) = m.final (m.next c s) cs := rfl

@[simp] theorem trace_cons (s : σ) (c : γ) (cs : List γ) :
    m.trace s (c :: cs) = (c, m.answer c s) :: m.trace (m.next c s) cs := rfl

/-- A run in two parts. -/
theorem final_append (s : σ) (cs ds : List γ) :
    m.final s (cs ++ ds) = m.final (m.final s cs) ds := by
  induction cs generalizing s with
  | nil => rfl
  | cons c cs ih => exact ih (m.next c s)

/-- The trace of a run in two parts. -/
theorem trace_append (s : σ) (cs ds : List γ) :
    m.trace s (cs ++ ds) = m.trace s cs ++ m.trace (m.final s cs) ds := by
  induction cs generalizing s with
  | nil => rfl
  | cons c cs ih => simp [ih]

variable {m}

/-! ## Induction rules -/

/-- What every call preserves holds at the end of a run. -/
theorem final_invariant {I : σ → Prop} (hstep : ∀ c s, I s → I (m.next c s)) {s : σ} (hs : I s)
    (cs : List γ) : I (m.final s cs) := by
  induction cs generalizing s with
  | nil => exact hs
  | cons c cs ih => exact ih (hstep c s hs)

/-- What holds of every answer given in a state with the invariant holds of a trace. -/
theorem trace_invariant {I : σ → Prop} {P : γ → ω → Prop} (hstep : ∀ c s, I s → I (m.next c s))
    (hanswer : ∀ c s, I s → P c (m.answer c s)) {s : σ} (hs : I s) (cs : List γ) :
    ∀ e ∈ m.trace s cs, P e.1 e.2 := by
  induction cs generalizing s with
  | nil => simp
  | cons c cs ih =>
    intro e he
    rcases List.mem_cons.mp he with rfl | he
    · exact hanswer c s hs
    · exact ih (hstep c s hs) e he

/-- An invariant that relates the trace so far to the state: it holds of the empty
trace, and every call extends it. -/
theorem history {J : List (γ × ω) → σ → Prop} {s : σ} (hstart : J [] s)
    (hstep : ∀ h c t, J h t → J (h ++ [(c, m.answer c t)]) (m.next c t)) (cs : List γ) :
    J (m.trace s cs) (m.final s cs) := by
  induction cs using List.reverseRecOn with
  | nil => exact hstart
  | append_singleton cs c ih =>
    rw [trace_append, final_append]
    exact hstep _ c _ ih

/-- Events of a run are related in order when the state keeps covering (`C`) the events
so far and a new event is related to all that the state covers. -/
theorem trace_pairwise {ε : Type} {I : σ → Prop} {C : σ → ε → Prop} {R : ε → ε → Prop}
    {event : γ × ω → Option ε} (hstep : ∀ c s, I s → I (m.next c s))
    (hkeep : ∀ c s e, I s → C s e → C (m.next c s) e)
    (hnew : ∀ c s e, I s → event (c, m.answer c s) = some e →
      C (m.next c s) e ∧ ∀ e', C s e' → R e' e)
    {s : σ} (hs : I s) (cs : List γ) : ((m.trace s cs).filterMap event).Pairwise R := by
  have hrun := history (m := m) (s := s)
    (J := fun h t => I t ∧ (∀ e ∈ h.filterMap event, C t e) ∧ (h.filterMap event).Pairwise R)
    ⟨hs, by simp, List.Pairwise.nil⟩ ?_ cs
  · exact hrun.2.2
  rintro h c t ⟨ht, hcovers, hpair⟩
  refine ⟨hstep c t ht, ?_, ?_⟩
  · intro e he
    rw [List.filterMap_append, List.mem_append] at he
    rcases he with he | he
    · exact hkeep c t e ht (hcovers e he)
    · obtain ⟨x, hx, hevent⟩ := List.mem_filterMap.mp he
      obtain rfl := List.mem_singleton.mp hx
      exact (hnew c t e ht hevent).1
  · rw [List.filterMap_append, List.pairwise_append]
    refine ⟨hpair, ?_, ?_⟩
    · rw [List.filterMap_cons]
      cases event (c, m.answer c t) <;> simp
    · intro e' he' e he
      obtain ⟨x, hx, hevent⟩ := List.mem_filterMap.mp he
      obtain rfl := List.mem_singleton.mp hx
      exact (hnew c t e ht hevent).2 e' (hcovers e' he')

/-! ## Locality -/

/-- Every call reads and writes one part of the state: the view of its own key. -/
structure Local (m : Machine σ γ ω) (I : σ → Prop) (key : γ → κ) (view : κ → σ → ν) : Prop where
  keeps : ∀ c s, I s → I (m.next c s)
  answer_eq : ∀ c s t, I s → I t → view (key c) s = view (key c) t → m.answer c s = m.answer c t
  next_eq : ∀ c s t, I s → I t → view (key c) s = view (key c) t →
    view (key c) (m.next c s) = view (key c) (m.next c t)
  next_other : ∀ c s k, I s → k ≠ key c → view k (m.next c s) = view k s

namespace Local

variable [DecidableEq κ] {I : σ → Prop} {key : γ → κ} {view : κ → σ → ν}

/-- INTERNAL: from two states with one view of a key, a run and its calls of that key
leave one view of the key and answer those calls alike. -/
theorem filter_run (h : Local m I key view) (k : κ) (cs : List γ) {s t : σ} (hs : I s) (ht : I t)
    (hview : view k s = view k t) :
    view k (m.final s cs) = view k (m.final t (cs.filter fun c => key c = k)) ∧
      (m.trace s cs).filter (fun e => key e.1 = k) =
        m.trace t (cs.filter fun c => key c = k) := by
  induction cs generalizing s t with
  | nil => exact ⟨hview, rfl⟩
  | cons c cs ih =>
    by_cases hk : key c = k
    · subst hk
      have hnext := h.next_eq c s t hs ht hview
      obtain ⟨hfinal, htrace⟩ := ih (h.keeps c s hs) (h.keeps c t ht) hnext
      refine ⟨by simpa using hfinal, ?_⟩
      simp [htrace, h.answer_eq c s t hs ht hview]
    · have hnext := (h.next_other c s k hs (Ne.symm hk)).trans hview
      obtain ⟨hfinal, htrace⟩ := ih (h.keeps c s hs) ht hnext
      refine ⟨by simpa [hk] using hfinal, ?_⟩
      simp [hk, htrace]

variable {cs ds : List γ} {s : σ}

/-- **Runs that agree key by key leave the same views.** -/
theorem view_final_eq (h : Local m I key view) (hs : I s) {k : κ}
    (hcalls : cs.filter (fun c => key c = k) = ds.filter fun c => key c = k) :
    view k (m.final s cs) = view k (m.final s ds) := by
  rw [(h.filter_run k cs hs hs rfl).1, (h.filter_run k ds hs hs rfl).1, hcalls]

/-- **Runs that agree key by key give each call the same answer.** -/
theorem trace_filter_eq (h : Local m I key view) (hs : I s) {k : κ}
    (hcalls : cs.filter (fun c => key c = k) = ds.filter fun c => key c = k) :
    (m.trace s cs).filter (fun e => key e.1 = k) =
      (m.trace s ds).filter fun e => key e.1 = k := by
  rw [(h.filter_run k cs hs hs rfl).2, (h.filter_run k ds hs hs rfl).2, hcalls]

end Local

end Machine

end Tickline.Library
