import Mathlib.Tactic.SplitIfs

/-!
# Transactions over a connection whose statements may fail

A `Connection` has the committed contents of a database, the contents that an open
transaction sees, and a schedule that says which of the statements to come fail, and how.
A statement that fails changes nothing itself; it may also end the transaction.

`transaction` begins, runs a body and commits, and rolls back when any of these throws.
`Works body R` says what a body does to the open transaction's contents, whatever the schedule,
and has one rule for each way to build a body; `atomic_transaction` turns it into what a
transaction does to the committed contents: `R`, or nothing (`Atomic`).

Without failures a body has one outcome (`Settles`), again with a rule for each way to build
it, and so has the transaction around it (`transaction_settles`).
-/

set_option autoImplicit false

namespace Tickline.Library

/-- How a statement fails: the engine's message, and whether the open transaction ends. -/
structure Failure where
  message : String
  endsTransaction : Bool
  deriving DecidableEq

/-- A connection to a database with contents `σ`. -/
structure Connection (σ : Type) where
  committed : σ
  working : Option σ := none
  failures : List (Option Failure) := []
  deriving DecidableEq

namespace Connection

variable {σ ε α β : Type}

/-- The contents that statements see. -/
def view (c : Connection σ) : σ := c.working.getD c.committed

/-- Replace the contents that statements see. -/
def write (s : σ) (c : Connection σ) : Connection σ :=
  if c.working.isSome then { c with working := some s } else { c with committed := s }

/-- End the open transaction and drop what it did. -/
def rollback (c : Connection σ) : Connection σ := { c with working := none }

/-- One call of the engine, which fails when the schedule says so. -/
def attempt (report : String → ε) : EStateM ε (Connection σ) Unit := fun c =>
  match c.failures with
  | [] => .ok () c
  | none :: failures => .ok () { c with failures }
  | some failure :: failures => .error (report failure.message)
      { c with failures, working := if failure.endsTransaction then none else c.working }

/-- Run a statement, which the engine may refuse with a message. -/
def execute (report : String → ε) (statement : σ → Except String (α × σ)) :
    EStateM ε (Connection σ) α := fun c =>
  match attempt report c with
  | .error e c => .error e c
  | .ok _ c =>
    match statement c.view with
    | .ok (a, s) => .ok a (c.write s)
    | .error message => .error (report message) c

/-- Begin a transaction; there are no nested ones. -/
def begin (report : String → ε) : EStateM ε (Connection σ) Unit := fun c =>
  match attempt report c with
  | .error e c => .error e c
  | .ok _ c =>
    if c.working.isSome then .error (report "cannot start a transaction within a transaction") c
    else .ok () { c with working := some c.committed }

/-- Make what the open transaction did the contents of the database. -/
def commit (report : String → ε) : EStateM ε (Connection σ) Unit := fun c =>
  match attempt report c with
  | .error e c => .error e c
  | .ok _ c =>
    match c.working with
    | some s => .ok () { c with committed := s, working := none }
    | none => .error (report "cannot commit - no transaction is active") c

/-- A body between `begin` and `commit`, rolled back when any part throws. -/
def transaction (reportBegin reportCommit : String → ε) (body : EStateM ε (Connection σ) α) :
    EStateM ε (Connection σ) α := fun c =>
  match begin reportBegin c with
  | .error e c => .error e c
  | .ok _ c =>
    match (do let a ← body; commit reportCommit; return a) c with
    | .error e c => .error e c.rollback
    | .ok a c => .ok a c

/-- A computation that does not touch the connection. -/
def ofExcept (x : Except ε α) : EStateM ε (Connection σ) α := fun c =>
  match x with
  | .ok a => .ok a c
  | .error e => .error e c

instance : MonadLift (Except ε) (EStateM ε (Connection σ)) where
  monadLift := ofExcept

/-- Sequencing, case by case. -/
theorem bind_apply (x : EStateM ε (Connection σ) α) (f : α → EStateM ε (Connection σ) β)
    (c : Connection σ) : (x >>= f) c = match x c with
      | .ok a c' => f a c'
      | .error e c' => .error e c' := by
  change EStateM.bind x f c = _
  unfold EStateM.bind
  cases x c <;> rfl

/-! ## What a body does, whatever fails -/

/-- Inside a transaction that sees `s`, a body leaves the committed contents alone, and when it
returns `a` the transaction is still open and sees an `s'` with `R s a s'`. -/
def Works (body : EStateM ε (Connection σ) α) (R : σ → α → σ → Prop) : Prop :=
  ∀ (c : Connection σ) (s : σ), c.working = some s →
    match body c with
    | .ok a c' => c'.committed = c.committed ∧ ∃ s', c'.working = some s' ∧ R s a s'
    | .error _ c' => c'.committed = c.committed

namespace Works

variable {R : σ → α → σ → Prop} {body : EStateM ε (Connection σ) α}

theorem mono (h : Works body R) {R' : σ → α → σ → Prop} (himp : ∀ s a s', R s a s' → R' s a s') :
    Works body R' := by
  intro c s hs
  have hbody := h c s hs
  cases hc : body c with
  | error e c' => simpa only [hc] using hbody
  | ok a c' =>
    simp only [hc] at hbody ⊢
    obtain ⟨hcommitted, s', hs', hR⟩ := hbody
    exact ⟨hcommitted, s', hs', himp _ _ _ hR⟩

theorem pure (a : α) : Works (pure a : EStateM ε (Connection σ) α) fun s b s' => b = a ∧ s' = s :=
  fun _ s hs => ⟨rfl, s, hs, rfl, rfl⟩

theorem throw (e : ε) (R : σ → α → σ → Prop) :
    Works (throw e : EStateM ε (Connection σ) α) R := fun _ _ _ => rfl

/-- A computation that does not touch the connection changes nothing. -/
theorem ofExcept (x : Except ε α) :
    Works (liftM x : EStateM ε (Connection σ) α) fun s a s' => x = .ok a ∧ s' = s := by
  intro c s hs
  cases x with
  | error e => rfl
  | ok a => exact ⟨rfl, s, hs, rfl, rfl⟩

/-- Sequencing composes what the parts do. -/
theorem bind (h : Works body R) {f : α → EStateM ε (Connection σ) β} {T : α → σ → β → σ → Prop}
    (hf : ∀ a, Works (f a) (T a)) :
    Works (body >>= f) fun s b s'' => ∃ a s', R s a s' ∧ T a s' b s'' := by
  intro c s hs
  have hbody := h c s hs
  rw [bind_apply]
  cases hc : body c with
  | error e c' => simpa only [hc] using hbody
  | ok a c' =>
    simp only [hc] at hbody ⊢
    obtain ⟨hcommitted, s', hs', hR⟩ := hbody
    have hnext := hf a c' s' hs'
    cases hc' : f a c' with
    | error e c'' =>
      simp only [hc'] at hnext
      exact hnext.trans hcommitted
    | ok b c'' =>
      simp only [hc'] at hnext ⊢
      obtain ⟨hcommitted', s'', hs'', hT⟩ := hnext
      exact ⟨hcommitted'.trans hcommitted, s'', hs'', a, s', hR, hT⟩

/-- A call of the engine changes nothing. -/
theorem attempt (report : String → ε) :
    Works (attempt report : EStateM ε (Connection σ) Unit) fun s _ s' => s' = s := by
  intro c s hs
  unfold Connection.attempt
  rcases c with ⟨committed, working, _ | ⟨_ | failure, failures⟩⟩
  · exact ⟨rfl, s, hs, rfl⟩
  · exact ⟨rfl, s, hs, rfl⟩
  · rfl

/-- Behind a check that fired there is nothing. -/
theorem guard {c : Prop} [Decidable c] {e : ε} {f : PUnit → EStateM ε (Connection σ) α}
    {rest : EStateM ε (Connection σ) α} (h : ¬ c → Works rest R) :
    Works (if c then MonadExcept.throw e >>= f else rest) R := by
  by_cases hc : c
  · rw [if_pos hc]
    exact fun _ _ _ => rfl
  · rw [if_neg hc]
    exact h hc

/-- A statement does what the engine does with it. -/
theorem execute (report : String → ε) (statement : σ → Except String (α × σ)) :
    Works (execute report statement) fun s a s' => statement s = .ok (a, s') := by
  intro c s hs
  have hcall := attempt report c s hs
  unfold Connection.execute
  cases hc : Connection.attempt report c with
  | error e c' => simpa only [hc] using hcall
  | ok u c' =>
    simp only [hc] at hcall ⊢
    obtain ⟨hcommitted, t, hworking, rfl⟩ := hcall
    have hview : c'.view = t := by rw [view, hworking, Option.getD_some]
    rw [hview]
    cases hstatement : statement t with
    | error message => exact hcommitted
    | ok result =>
      obtain ⟨a, s'⟩ := result
      simp only [write, hworking, Option.isSome_some, if_true]
      exact ⟨hcommitted, s', rfl, rfl⟩

end Works

/-! ## What a member does outside transactions -/

/-- With no transaction open, a member leaves none open, and either it does `R` to the committed
contents and returns, or it throws and changes nothing. -/
def Atomic (member : EStateM ε (Connection σ) α) (R : σ → α → σ → Prop) : Prop :=
  ∀ c : Connection σ, c.working = none →
    match member c with
    | .ok a c' => c'.working = none ∧ R c.committed a c'.committed
    | .error _ c' => c'.working = none ∧ c'.committed = c.committed

namespace Atomic

variable {R : σ → α → σ → Prop} {member : EStateM ε (Connection σ) α}

theorem mono (h : Atomic member R) {Q : σ → α → σ → Prop}
    (himp : ∀ s a s', R s a s' → Q s a s') : Atomic member Q := by
  intro c hc
  have hmember := h c hc
  cases hrun : member c with
  | error e c' => simpa only [hrun] using hmember
  | ok a c' =>
    simp only [hrun] at hmember ⊢
    exact ⟨hmember.1, himp _ _ _ hmember.2⟩

/-- A part that only reads may come before any other. -/
theorem bind {P : σ → α → Prop} (h : Atomic member fun s a s' => P s a ∧ s' = s)
    {f : α → EStateM ε (Connection σ) β} {T : α → σ → β → σ → Prop}
    (hf : ∀ a, Atomic (f a) (T a)) :
    Atomic (member >>= f) fun s b s' => ∃ a, P s a ∧ T a s b s' := by
  intro c hc
  have hmember := h c hc
  rw [bind_apply]
  cases hrun : member c with
  | error e c' => simpa only [hrun] using hmember
  | ok a c' =>
    simp only [hrun] at hmember ⊢
    obtain ⟨hidle, hP, hsame⟩ := hmember
    have hnext := hf a c' hidle
    rw [hsame] at hnext
    cases hrun' : f a c' with
    | error e c'' => simpa only [hrun'] using hnext
    | ok b c'' =>
      simp only [hrun'] at hnext ⊢
      exact ⟨hnext.1, a, hP, hnext.2⟩

/-- Behind a check that fired there is nothing. -/
theorem guard {c : Prop} [Decidable c] {e : ε} {f : PUnit → EStateM ε (Connection σ) α}
    {rest : EStateM ε (Connection σ) α} (h : ¬ c → Atomic rest R) :
    Atomic (if c then MonadExcept.throw e >>= f else rest) R := by
  by_cases hc : c
  · rw [if_pos hc]
    exact fun _ hidle => ⟨hidle, rfl⟩
  · rw [if_neg hc]
    exact h hc

/-- A computation that does not touch the connection changes nothing. -/
theorem ofExcept (x : Except ε α) : Atomic (liftM x : EStateM ε (Connection σ) α)
    fun s a s' => x = .ok a ∧ s' = s := by
  intro c hc
  cases x with
  | error e => exact ⟨hc, rfl⟩
  | ok a => exact ⟨hc, rfl, rfl⟩

/-- A call of the engine changes nothing. -/
theorem attempt (report : String → ε) :
    Atomic (attempt report : EStateM ε (Connection σ) Unit) fun s _ s' => True ∧ s' = s := by
  rintro ⟨committed, working, failures⟩ rfl
  unfold Connection.attempt
  rcases failures with _ | ⟨_ | failure, failures⟩
  · exact ⟨rfl, trivial, rfl⟩
  · exact ⟨rfl, trivial, rfl⟩
  · exact ⟨ite_self _, rfl⟩

/-- A statement that reads tells what the engine reads. -/
theorem select (report : String → ε) (query : σ → α) :
    Atomic (execute report fun s => .ok (query s, s)) fun s a s' => a = query s ∧ s' = s := by
  intro c hc
  have hcall := attempt report c hc
  unfold execute
  cases hrun : Connection.attempt report c with
  | error e c' => simpa only [hrun] using hcall
  | ok u c' =>
    simp only [hrun] at hcall ⊢
    obtain ⟨hidle, -, hsame⟩ := hcall
    have hview : c'.view = c.committed := by rw [view, hidle, Option.getD_none, hsame]
    simp [hview, write, hidle]

end Atomic

/-- **A transaction is atomic**, whatever fails: it has done what its body does, or thrown and
changed nothing. -/
theorem atomic_transaction {body : EStateM ε (Connection σ) α} {R : σ → α → σ → Prop}
    (h : Works body R) (reportBegin reportCommit : String → ε) :
    Atomic (transaction reportBegin reportCommit body) R := by
  intro c hidle
  have hcommit : ∀ c : Connection σ, match commit reportCommit c with
      | .ok _ c' => c'.working = none ∧ c.working = some c'.committed
      | .error _ c' => c'.committed = c.committed := by
    intro c
    rcases c with ⟨committed, _ | s, _ | ⟨_ | failure, failures⟩⟩ <;> simp [commit, attempt]
  have hfinish : ∀ c : Connection σ, ∀ s, c.working = some s →
      match (do let a ← body; commit reportCommit; return a) c with
      | .ok a c' => c'.working = none ∧ R s a c'.committed
      | .error _ c' => c'.committed = c.committed := by
    intro c s hs
    have hbody := h c s hs
    rw [bind_apply]
    cases hc : body c with
    | error e c' => simpa only [hc] using hbody
    | ok a c' =>
      simp only [hc] at hbody ⊢
      obtain ⟨hcommitted, s', hs', hR⟩ := hbody
      have hlast := hcommit c'
      rw [bind_apply]
      cases hc' : commit reportCommit c' with
      | error e c'' =>
        simp only [hc'] at hlast ⊢
        exact hlast.trans hcommitted
      | ok u c'' =>
        simp only [hc'] at hlast ⊢
        obtain ⟨hnone, hsome⟩ := hlast
        obtain rfl : s' = c''.committed := Option.some.inj (hs'.symm.trans hsome)
        exact ⟨hnone, hR⟩
  have hbegin : ∀ c : Connection σ, c.working = none → match begin reportBegin c with
      | .ok _ c' => c'.committed = c.committed ∧ c'.working = some c.committed
      | .error _ c' => c'.committed = c.committed ∧ c'.working = none := by
    rintro ⟨committed, working, failures⟩ rfl
    rcases failures with _ | ⟨_ | failure, failures⟩ <;> simp [begin, attempt]
  have hstart := hbegin c hidle
  unfold transaction
  cases hc : begin reportBegin c with
  | error e c' =>
    simp only [hc] at hstart ⊢
    exact hstart.symm
  | ok u c' =>
    simp only [hc] at hstart ⊢
    have hrest := hfinish c' _ hstart.2
    cases hc' : (do let a ← body; commit reportCommit; return a) c' with
    | error e c'' =>
      simp only [hc'] at hrest ⊢
      exact ⟨rfl, hrest.trans hstart.1⟩
    | ok a c'' =>
      simp only [hc'] at hrest ⊢
      exact hrest

/-! ## What a body does when nothing fails -/

/-- Without failures, a body that sees `s` returns `a` and leaves `s'`. -/
def Settles (body : EStateM ε (Connection σ) α) (s : σ) (a : α) (s' : σ) : Prop :=
  ∀ committed, body ⟨committed, some s, []⟩ = .ok a ⟨committed, some s', []⟩

namespace Settles

variable {body : EStateM ε (Connection σ) α} {s s' : σ} {a : α}

theorem pure (a : α) (s : σ) : Settles (pure a : EStateM ε (Connection σ) α) s a s :=
  fun _ => rfl

theorem bind (h : Settles body s a s') {f : α → EStateM ε (Connection σ) β} {b : β} {s'' : σ}
    (hf : Settles (f a) s' b s'') : Settles (body >>= f) s b s'' := by
  intro committed
  rw [bind_apply, h committed]
  exact hf committed

theorem ofExcept {x : Except ε α} (h : x = .ok a) (s : σ) :
    Settles (liftM x : EStateM ε (Connection σ) α) s a s := by
  intro committed
  subst h
  rfl

theorem attempt (report : String → ε) (s : σ) :
    Settles (attempt report : EStateM ε (Connection σ) Unit) s () s := fun _ => rfl

theorem execute (report : String → ε) {statement : σ → Except String (α × σ)}
    (h : statement s = .ok (a, s')) : Settles (execute report statement) s a s' := by
  intro committed
  have hview : view (⟨committed, some s, []⟩ : Connection σ) = s := rfl
  unfold Connection.execute
  rw [attempt report s committed]
  simp only [hview, h]
  rfl

/-- What a body does in any case it does without failures. -/
theorem works (h : Settles body s a s') {R : σ → α → σ → Prop} (hworks : Works body R) :
    R s a s' := by
  have hrun := hworks ⟨s, some s, []⟩ s rfl
  simp only [h s] at hrun
  obtain ⟨-, t, ht, hR⟩ := hrun
  cases ht
  exact hR

end Settles

/-- Without failures a transaction commits what its body does. -/
theorem transaction_settles {body : EStateM ε (Connection σ) α} {s s' : σ} {a : α}
    (h : Settles body s a s') (reportBegin reportCommit : String → ε) :
    transaction reportBegin reportCommit body ⟨s, none, []⟩ = .ok a ⟨s', none, []⟩ := by
  have hbegin : begin reportBegin (⟨s, none, []⟩ : Connection σ) = .ok () ⟨s, some s, []⟩ := rfl
  unfold transaction
  rw [hbegin]
  simp only [bind_apply, h s]
  rfl

end Connection

end Tickline.Library
