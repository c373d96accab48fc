import Mathlib.Algebra.Group.Nat.Defs
import Tickline.Analysis.CaptureRuns

/-!
# The numbers of output

The two loops of a stage take their numbers one after the other, but nothing keeps a loop from
delivering its event before one with a smaller number.  What an action does to the numbers is said
once (`number_step`): the numbers that were taken are those that were delivered and those that the
loops still hold (`taken_run`).

Where every loop that delivers holds the smaller number, the numbers rise (`rising_run`).  A number
that a loop holds is delivered later (`held_delivered`), so otherwise they do not.
-/

set_option autoImplicit false

namespace Tickline.Analysis

open Tickline.Library Tickline.Model
open Tickline.Model.Stage (Action CaptureLoop Event LoopPhase NumberedEvent RunLoops RunningStage
  Stream)

/-! ## Numbers -/

/-- The numbers of the output that the observer was given. -/
def numbersOf (events : List NumberedEvent) : List UInt64 :=
  (events.filter (·.kind = .stageOutput)).map (·.sequence)

/-- The number that a loop has taken for a chunk that it has not delivered. -/
def heldBy (loop : CaptureLoop) : Option UInt64 :=
  match loop.phase with
  | .numbered _ sequence _ => some sequence
  | _ => none

/-- The number that the loop of a stream holds. -/
def heldNumber (state : RunLoops) (stream : Stream) : Option UInt64 :=
  state.running.bind fun stage => heldBy (stage.loop stream)

theorem numbersOf_append (events more : List NumberedEvent) :
    numbersOf (events ++ more) = numbersOf events ++ numbersOf more := by
  rw [numbersOf, List.filter_append, List.map_append]
  rfl

theorem numbersOf_append_silent (events : List NumberedEvent) {more : List NumberedEvent}
    (h : ∀ event ∈ more, event.kind ≠ .stageOutput) :
    numbersOf (events ++ more) = numbersOf events := by
  have hnone : more.filter (fun event => event.kind = .stageOutput) = [] := by
    rw [List.filter_eq_nil_iff]
    intro event hevent
    simpa using h event hevent
  rw [numbersOf_append]
  simp [numbersOf, hnone]

/-- What an action does to the numbers. -/
inductive NumberStep (state next : RunLoops) : Action → Prop
  | number {stream : Stream} (hfree : heldNumber state stream = none)
      (hsequence : next.sequence = state.sequence + 1)
      (hheld : heldNumber next stream = some next.sequence)
      (hother : heldNumber next stream.other = heldNumber state stream.other)
      (hnumbers : numbersOf next.events = numbersOf state.events) :
      NumberStep state next (.number stream)
  | deliver {stream : Stream} {sequence : UInt64} (hheld : heldNumber state stream = some sequence)
      (hsequence : next.sequence = state.sequence) (hfree : heldNumber next stream = none)
      (hother : heldNumber next stream.other = heldNumber state stream.other)
      (hnumbers : numbersOf next.events = numbersOf state.events ++ [sequence]) :
      NumberStep state next (.deliver stream)
  | quiet {action : Action} (hnumber : ∀ stream, action ≠ .number stream)
      (hdeliver : ∀ stream, action ≠ .deliver stream) (hsequence : next.sequence = state.sequence)
      (hheld : ∀ stream, heldNumber next stream = heldNumber state stream)
      (hnumbers : numbersOf next.events = numbersOf state.events) : NumberStep state next action

theorem heldNumber_running {state : RunLoops} {stage : RunningStage}
    (h : state.running = some stage) (stream : Stream) :
    heldNumber state stream = heldBy (stage.loop stream) := by
  rw [heldNumber, h, Option.bind_some]

theorem heldNumber_none {state : RunLoops} (h : state.running = none) (stream : Stream) :
    heldNumber state stream = none := by
  rw [heldNumber, h, Option.bind_none]

theorem other_ne (stream : Stream) : stream.other ≠ stream := by
  cases stream <;> exact fun h => by cases h

theorem eq_or_eq_other (stream other : Stream) : other = stream ∨ other = stream.other := by
  cases stream <;> cases other
  · exact Or.inl rfl
  · exact Or.inr rfl
  · exact Or.inr rfl
  · exact Or.inl rfl

/-- INTERNAL: a result that is added changes no numbers. -/
theorem append_numbers (state : RunLoops) (result : Stage.StageResult) :
    (state.append result).sequence = state.sequence ∧ (state.append result).running = none ∧
      numbersOf (state.append result).events = numbersOf state.events := by
  unfold RunLoops.append
  dsimp only
  split_ifs
  · refine ⟨rfl, rfl, numbersOf_append_silent _ fun event hevent => ?_⟩
    obtain ⟨current, -, rfl⟩ := List.mem_map.mp hevent
    exact fun h => by cases h
  · exact ⟨rfl, rfl, rfl⟩

theorem number_step {state next : RunLoops} {action : Action} (h : state.step action = some next) :
    NumberStep state next action := by
  cases captureStep h with
  | @start current remaining hrunning hremaining =>
    refine .quiet (by simp) (by simp) rfl (fun stream => ?_) ?_
    · rw [heldNumber_none hrunning]
      cases stream <;> rfl
    · exact numbersOf_append_silent _ (by simp)
  | @startFails current remaining outcome hrunning hremaining hran =>
    obtain ⟨hsequence, hafter, hnumbers⟩ := append_numbers ({ state with
      remaining
      events := state.events ++ (Stage.runStage current outcome).2.map Event.unnumbered } :
        RunLoops) (Stage.runStage current outcome).1
    refine .quiet (by simp) (by simp) hsequence (fun stream => ?_) ?_
    · rw [heldNumber_none hafter, heldNumber_none hrunning]
    · exact hnumbers.trans (numbersOf_append_silent _ (runStage_unstarted _ hran).2.2)
  | @cancelBefore current remaining cause hrunning hremaining =>
    obtain ⟨hsequence, hafter, hnumbers⟩ := append_numbers (({ state with remaining } :
      RunLoops).emit {
        kind := .stageFinished
        stageID := current.id
        status := some .cancelled
        exitCode := 130 }) (Stage.cancelledResult current cause)
    refine .quiet (by simp) (by simp) hsequence (fun stream => ?_) ?_
    · rw [heldNumber_none hafter, heldNumber_none hrunning]
    · exact hnumbers.trans (numbersOf_append_silent _ (by simp))
  | @readNothing stage stream err hrunning hphase =>
    obtain ⟨-, ⟨phase, hnothing, hown⟩, hothers⟩ :=
      endRound_eq stage stream (stage.loop stream).target err
    refine .quiet (by simp) (by simp) rfl (fun other => ?_) rfl
    rw [heldNumber_running rfl, heldNumber_running hrunning]
    by_cases hother : other = stream
    · subst hother
      rw [hown, heldBy, heldBy, hphase]
      rcases hnothing with rfl | rfl <;> rfl
    · rw [hothers other hother]
  | @readChunk stage stream chunk err hrunning hphase hchunk hlength =>
    refine .quiet (by simp) (by simp) rfl (fun other => ?_) rfl
    rw [heldNumber_running rfl, heldNumber_running hrunning]
    by_cases hother : other = stream
    · subst hother
      rw [loop_withLoop_self, heldBy, heldBy, hphase]
    · rw [loop_withLoop_of_ne stage hother]
  | @number stage stream chunk err hrunning hphase =>
    refine .number ?_ rfl ?_ ?_ rfl
    · rw [heldNumber_running hrunning, heldBy, hphase]
    · rw [heldNumber_running rfl, loop_withLoop_self]
      rfl
    · rw [heldNumber_running rfl, heldNumber_running hrunning,
        loop_withLoop_of_ne stage (other_ne stream)]
  | @deliver stage stream chunk sequence err hrunning hphase =>
    obtain ⟨-, ⟨phase, hnothing, hown⟩, hothers⟩ :=
      endRound_eq stage stream (stage.loop stream).target err
    have hheld : heldNumber state stream = some sequence := by
      rw [heldNumber_running hrunning, heldBy, hphase]
    refine .deliver hheld rfl ?_ ?_ ?_
    · rw [heldNumber_running rfl, hown, heldBy]
      rcases hnothing with rfl | rfl <;> rfl
    · rw [heldNumber_running rfl, heldNumber_running hrunning, hothers _ (other_ne stream)]
    · exact numbersOf_append state.events _
  | @requestCancellation stage hrunning hrequested =>
    refine .quiet (by simp) (by simp) rfl (fun stream => ?_) ?_
    · rw [heldNumber_running rfl, heldNumber_running hrunning]
      cases stream <;> rfl
    · exact numbersOf_append_silent _ (by simp)
  | @settle stage settlement hrunning hfinished =>
    obtain ⟨hsequence, hafter, hnumbers⟩ := append_numbers
      (state.emit (Stage.stageFinished (stage.settled settlement)).unnumbered)
      (stage.settled settlement)
    refine .quiet (by simp) (by simp) hsequence (fun stream => ?_) ?_
    · rw [heldNumber_none hafter, heldNumber_running hrunning, heldBy, hfinished stream]
    · exact hnumbers.trans
        (numbersOf_append_silent _ (by simp [Stage.stageFinished, Event.unnumbered]))
  | @finish duration hrunning hremaining hfinished =>
    refine .quiet (by simp) (by simp) rfl (fun stream => ?_) ?_
    · rw [heldNumber_none hrunning]
      exact heldNumber_none hrunning stream
    · exact numbersOf_append_silent _ (by simp)

/-! ## The numbers that were taken -/

/-- An action takes a number. -/
def takesNumber : Action → Bool
  | .number _ => true
  | _ => false

/-- The numbers that so many actions take. -/
def takenNumbers (count : ℕ) : List UInt64 := (List.range count).map fun n => UInt64.ofNat (n + 1)

/-- The numbers that the loops hold. -/
def heldNumbers (state : RunLoops) : List UInt64 :=
  (heldNumber state .stdout).toList ++ (heldNumber state .stderr).toList

theorem takenNumbers_succ (count : ℕ) :
    takenNumbers (count + 1) = takenNumbers count ++ [UInt64.ofNat (count + 1)] := by
  rw [takenNumbers, List.range_succ, List.map_append]
  rfl

theorem heldNumbers_perm (state : RunLoops) (stream : Stream) : (heldNumbers state).Perm
    ((heldNumber state stream).toList ++ (heldNumber state stream.other).toList) := by
  cases stream with
  | stdout => exact List.Perm.refl _
  | stderr => exact List.perm_append_comm

/-- Which numbers were taken, and with which numbers the observer begins. -/
structure Taken (actions : List Action) (state : RunLoops) : Prop where
  sequence : state.sequence = UInt64.ofNat (actions.countP takesNumber)
  taken : (numbersOf state.events ++ heldNumbers state).Perm
    (takenNumbers (actions.countP takesNumber))
  first : ∀ n ∈ (numbersOf state.events).head?, n = 1 ∨ n = 2

theorem taken_start (plan : List Stage.Task) : Taken [] (Stage.startLoops plan) where
  sequence := rfl
  taken := List.Perm.refl _
  first _ h := by cases h

theorem countP_concat (front : List Action) (action : Action) :
    (front ++ [action]).countP takesNumber =
      front.countP takesNumber + if takesNumber action then 1 else 0 := by
  rw [List.countP_append, List.countP_singleton]

/-- INTERNAL: before anything is delivered, at most two numbers were taken. -/
theorem first_held {actions : List Action} {state : RunLoops} (h : Taken actions state)
    (hnothing : numbersOf state.events = []) {stream : Stream} {n : UInt64}
    (hn : heldNumber state stream = some n) : n = 1 ∨ n = 2 := by
  have htaken := h.taken
  rw [hnothing, List.nil_append] at htaken
  have hlength : actions.countP takesNumber ≤ 2 := by
    have hsame := htaken.length_eq
    rw [takenNumbers, List.length_map, List.length_range, heldNumbers, List.length_append] at hsame
    have hone : ∀ held : Option UInt64, held.toList.length ≤ 1 := by
      intro held
      cases held <;> simp
    have hstdout := hone (heldNumber state .stdout)
    have hstderr := hone (heldNumber state .stderr)
    omega
  have hmem : n ∈ heldNumbers state := by
    refine (heldNumbers_perm state stream).mem_iff.mpr ?_
    rw [hn]
    exact List.mem_cons_self
  obtain ⟨place, hplace, rfl⟩ := List.mem_map.mp (htaken.mem_iff.mp hmem)
  rw [List.mem_range] at hplace
  have hsmall : place = 0 ∨ place = 1 := by omega
  rcases hsmall with rfl | rfl
  · exact Or.inl rfl
  · exact Or.inr rfl

theorem Taken.next {front : List Action} {state next : RunLoops} {action : Action}
    (h : Taken front state) (hstep : state.step action = some next) :
    Taken (front ++ [action]) next := by
  have hcount := countP_concat front action
  cases number_step hstep with
  | @number stream hfree hsequence hheld hother hnumbers =>
    rw [show takesNumber (.number stream) = true from rfl, if_pos rfl] at hcount
    have hnext : next.sequence = UInt64.ofNat (front.countP takesNumber + 1) := by
      rw [hsequence, h.sequence, UInt64.ofNat_add]
      rfl
    refine ⟨by rw [hcount, hnext], ?_, by rw [hnumbers]; exact h.first⟩
    have hbefore := heldNumbers_perm state stream
    have hafter := heldNumbers_perm next stream
    rw [hfree, Option.toList_none, List.nil_append] at hbefore
    rw [hheld, hother, Option.toList_some, List.singleton_append, hnext] at hafter
    rw [hcount, hnumbers, takenNumbers_succ]
    calc List.Perm (numbersOf state.events ++ heldNumbers next) (numbersOf state.events ++
            (UInt64.ofNat (front.countP takesNumber + 1) :: heldNumbers state)) :=
          (hafter.trans (hbefore.symm.cons _)).append_left _
      List.Perm _ (numbersOf state.events ++
            (heldNumbers state ++ [UInt64.ofNat (front.countP takesNumber + 1)])) :=
          (List.perm_append_singleton _ _).symm.append_left _
      List.Perm _ (takenNumbers (front.countP takesNumber) ++
            [UInt64.ofNat (front.countP takesNumber + 1)]) := by
          rw [← List.append_assoc]
          exact h.taken.append_right _
  | @deliver stream sequence hheld hsequence hfree hother hnumbers =>
    rw [show takesNumber (.deliver stream) = false from rfl, if_neg Bool.false_ne_true,
      Nat.add_zero] at hcount
    have hbefore := heldNumbers_perm state stream
    have hafter := heldNumbers_perm next stream
    rw [hheld, Option.toList_some, List.singleton_append] at hbefore
    rw [hfree, hother, Option.toList_none, List.nil_append] at hafter
    refine ⟨by rw [hcount, hsequence, h.sequence], ?_, ?_⟩
    · rw [hcount, hnumbers, List.append_assoc, List.singleton_append]
      exact (((hafter.cons _).trans hbefore.symm).append_left _).trans h.taken
    · intro n hn
      rw [hnumbers] at hn
      cases hdelivered : numbersOf state.events with
      | cons first others =>
        rw [hdelivered] at hn
        exact h.first n (by rw [hdelivered]; exact hn)
      | nil =>
        rw [hdelivered, List.nil_append, List.head?_cons, Option.mem_some_iff] at hn
        subst hn
        exact first_held h hdelivered hheld
  | quiet hnumber hdeliver hsequence hheld hnumbers =>
    have hno : takesNumber action = false := by
      cases action with
      | number stream => exact absurd rfl (hnumber stream)
      | _ => rfl
    rw [hno, if_neg Bool.false_ne_true, Nat.add_zero] at hcount
    have hsame : heldNumbers next = heldNumbers state := by
      rw [heldNumbers, hheld, hheld, heldNumbers]
    exact ⟨by rw [hcount, hsequence, h.sequence], by rw [hcount, hnumbers, hsame]; exact h.taken,
      by rw [hnumbers]; exact h.first⟩

theorem taken_run {plan : List Stage.Task} {actions : List Action} {state : RunLoops}
    (h : Transitions.run RunLoops.step (Stage.startLoops plan) actions = some state) :
    Taken actions state :=
  Transitions.run_history (taken_start plan) (fun _ _ _ _ _ htaken hstep => htaken.next hstep) h

/-! ## Deliveries in order -/

/-- A loop that delivers holds the smaller number. -/
def DeliversSmaller (state : RunLoops) (action : Action) : Prop :=
  ∀ stream own held, action = .deliver stream → heldNumber state stream = some own →
    heldNumber state stream.other = some held → own < held

/-- A run in which every delivery is in order, with fewer numbers than there are. -/
structure DeliveredInOrder (plan : List Stage.Task) (actions : List Action) : Prop where
  few : actions.countP takesNumber < 2 ^ 64
  smaller : ∀ front action back state, actions = front ++ action :: back →
    Transitions.run RunLoops.step (Stage.startLoops plan) front = some state →
    DeliversSmaller state action

theorem DeliveredInOrder.front {plan : List Stage.Task} {front : List Action} {action : Action}
    (h : DeliveredInOrder plan (front ++ [action])) : DeliveredInOrder plan front where
  few := by
    have hfew := h.few
    rw [countP_concat] at hfew
    omega
  smaller before other back state heq hrun :=
    h.smaller before other (back ++ [action]) state (by rw [heq]; simp) hrun

/-- The numbers rise, and those that the loops hold are larger than all that were delivered. -/
structure Rising (state : RunLoops) : Prop where
  rising : (numbersOf state.events).Pairwise (· < ·)
  ahead : ∀ stream n, heldNumber state stream = some n → ∀ m ∈ numbersOf state.events, m < n
  delivered : ∀ n ∈ numbersOf state.events, n ≤ state.sequence
  held : ∀ stream n, heldNumber state stream = some n → n ≤ state.sequence

theorem rising_start (plan : List Stage.Task) : Rising (Stage.startLoops plan) where
  rising := List.Pairwise.nil
  ahead _ _ h := by cases h
  delivered _ h := by cases h
  held _ _ h := by cases h

theorem Rising.next {state next : RunLoops} {action : Action} (h : Rising state)
    (hroom : takesNumber action = true → state.sequence < state.sequence + 1)
    (hsmaller : DeliversSmaller state action) (hstep : state.step action = some next) :
    Rising next := by
  cases number_step hstep with
  | @number stream hfree hsequence hheld hother hnumbers =>
    have hmore : state.sequence < next.sequence := hsequence ▸ hroom rfl
    refine ⟨hnumbers ▸ h.rising, fun other n hn m hm => ?_, fun n hn => ?_, fun other n hn => ?_⟩
    · rw [hnumbers] at hm
      rcases eq_or_eq_other stream other with rfl | rfl
      · rw [hheld] at hn
        obtain rfl := Option.some.inj hn
        exact UInt64.lt_of_le_of_lt (h.delivered m hm) hmore
      · exact h.ahead _ n (hother ▸ hn) m hm
    · rw [hnumbers] at hn
      exact UInt64.le_trans (h.delivered n hn) (UInt64.le_of_lt hmore)
    · rcases eq_or_eq_other stream other with rfl | rfl
      · rw [hheld] at hn
        exact Option.some.inj hn ▸ UInt64.le_refl _
      · exact UInt64.le_trans (h.held _ n (hother ▸ hn)) (UInt64.le_of_lt hmore)
  | @deliver stream sequence hheld hsequence hfree hother hnumbers =>
    refine ⟨?_, fun other n hn m hm => ?_, fun n hn => ?_, fun other n hn => ?_⟩
    · rw [hnumbers, List.pairwise_append]
      refine ⟨h.rising, List.pairwise_singleton _ _, fun m hm n hn => ?_⟩
      obtain rfl := List.mem_singleton.mp hn
      exact h.ahead stream n hheld m hm
    · rcases eq_or_eq_other stream other with rfl | rfl
      · rw [hfree] at hn
        cases hn
      · rw [hother] at hn
        rw [hnumbers, List.mem_append, List.mem_singleton] at hm
        rcases hm with hm | rfl
        · exact h.ahead _ n hn m hm
        · exact hsmaller stream m n rfl hheld hn
    · rw [hnumbers, List.mem_append, List.mem_singleton] at hn
      rw [hsequence]
      rcases hn with hn | rfl
      · exact h.delivered n hn
      · exact h.held stream n hheld
    · rw [hsequence]
      rcases eq_or_eq_other stream other with rfl | rfl
      · rw [hfree] at hn
        cases hn
      · exact h.held _ n (hother ▸ hn)
  | quiet hnumber hdeliver hsequence hheld hnumbers =>
    refine ⟨hnumbers ▸ h.rising, fun stream n hn m hm => ?_, fun n hn => ?_, fun stream n hn => ?_⟩
    · exact h.ahead stream n (hheld stream ▸ hn) m (hnumbers ▸ hm)
    · exact hsequence ▸ h.delivered n (hnumbers ▸ hn)
    · exact hsequence ▸ h.held stream n (hheld stream ▸ hn)

/-- **Deliveries in order give rising numbers.** -/
theorem rising_run {plan : List Stage.Task} {actions : List Action} {state : RunLoops}
    (h : Transitions.run RunLoops.step (Stage.startLoops plan) actions = some state)
    (horder : DeliveredInOrder plan actions) : Rising state := by
  refine Transitions.run_history (J := fun front state => DeliveredInOrder plan front → Rising state)
    (fun _ => rising_start plan) ?_ h horder
  intro front middle action next hfront hrising hstep hinOrder
  have hsequence := (taken_run hfront).sequence
  refine (hrising hinOrder.front).next (fun htakes => ?_)
    (hinOrder.smaller front action [] middle rfl hfront) hstep
  have hfew := hinOrder.few
  rw [countP_concat, htakes, if_pos rfl] at hfew
  have hbefore : (UInt64.ofNat (front.countP takesNumber)).toNat = front.countP takesNumber :=
    UInt64.toNat_ofNat_of_lt' (by rw [UInt64.size]; omega)
  rw [hsequence, UInt64.lt_iff_toNat_lt, UInt64.toNat_add, hbefore, UInt64.toNat_one,
    Nat.mod_eq_of_lt hfew]
  exact Nat.lt_succ_self _

/-- **A number that a loop holds is delivered later**, or held to the end. -/
theorem held_delivered {actions : List Action} {state last : RunLoops}
    (h : Transitions.run RunLoops.step state actions = some last) :
    ∃ more, numbersOf last.events = numbersOf state.events ++ more ∧
      ∀ stream n, heldNumber state stream = some n →
        heldNumber last stream = some n ∨ n ∈ more := by
  refine Transitions.run_later (R := fun state last : RunLoops => ∃ more,
    numbersOf last.events = numbersOf state.events ++ more ∧ ∀ stream n,
      heldNumber state stream = some n → heldNumber last stream = some n ∨ n ∈ more)
    (fun state => ⟨[], by simp, fun _ _ hn => Or.inl hn⟩) ?_ h
  rintro state action next last hstep ⟨more, hmore, hlater⟩
  cases number_step hstep with
  | @number stream hfree hsequence hheld hother hnumbers =>
    refine ⟨more, by rw [hmore, hnumbers], fun other n hn => ?_⟩
    rcases eq_or_eq_other stream other with rfl | rfl
    · rw [hfree] at hn
      cases hn
    · exact hlater _ n (hother.trans hn)
  | @deliver stream sequence hheld hsequence hfree hother hnumbers =>
    refine ⟨sequence :: more, by rw [hmore, hnumbers, List.append_assoc]; rfl, fun other n hn => ?_⟩
    rcases eq_or_eq_other stream other with rfl | rfl
    · rw [hheld] at hn
      exact Or.inr (Option.some.inj hn ▸ List.mem_cons_self)
    · exact (hlater _ n (hother.trans hn)).imp_right (List.mem_cons_of_mem _)
  | quiet hnumber hdeliver hsequence hheld hnumbers =>
    refine ⟨more, by rw [hmore, hnumbers], fun other n hn => ?_⟩
    exact hlater other n ((hheld other).trans hn)

/-- **Rising numbers come from deliveries in order**, in a run that ends with nothing held. -/
theorem inOrder_of_rising {plan : List Stage.Task} {actions : List Action} {state : RunLoops}
    (h : Transitions.run RunLoops.step (Stage.startLoops plan) actions = some state)
    (hquiet : ∀ stream, heldNumber state stream = none)
    (hrising : (numbersOf state.events).Pairwise (· < ·)) : DeliveredInOrder plan actions := by
  constructor
  · by_contra hmany
    have htaken := taken_run h
    have hheld : heldNumbers state = [] := by
      rw [heldNumbers, hquiet, hquiet]
      rfl
    -- The number that comes behind the largest is zero, and zero is not the first.
    have hzero : (0 : UInt64) ∈ takenNumbers (actions.countP takesNumber) :=
      List.mem_map.mpr ⟨2 ^ 64 - 1, List.mem_range.mpr (by omega), by decide⟩
    have hmem := htaken.taken.mem_iff.mpr hzero
    rw [hheld, List.append_nil] at hmem
    cases hnumbers : numbersOf state.events with
    | nil =>
      rw [hnumbers] at hmem
      cases hmem
    | cons first others =>
      have hfirst := htaken.first first (by rw [hnumbers]; rfl)
      rw [hnumbers] at hmem hrising
      rcases List.mem_cons.mp hmem with rfl | hothers
      · exact absurd hfirst (by decide)
      · exact absurd ((List.pairwise_cons.mp hrising).1 0 hothers) UInt64.not_lt_zero
  · rintro front action back middle rfl hfront stream own held rfl hown hheld
    obtain ⟨found, hfound, hrest⟩ := (Transitions.run_append _).mp h
    obtain rfl := Option.some.inj (hfront.symm.trans hfound)
    obtain ⟨next, hstep, hback⟩ := (Transitions.run_cons_eq_some _).mp hrest
    obtain ⟨more, hmore, hlater⟩ := held_delivered hback
    cases number_step hstep with
    | deliver hdelivered hsequence hfree hother hnumbers =>
      obtain rfl := Option.some.inj (hown.symm.trans hdelivered)
      have hmem : held ∈ more := by
        refine (hlater stream.other held (hother.trans hheld)).resolve_left fun hend => ?_
        rw [hquiet] at hend
        cases hend
      rw [hmore, hnumbers, List.pairwise_append] at hrising
      exact hrising.2.2 own (List.mem_append_right _ (List.mem_singleton_self own)) held hmem
    | quiet hnumber hdeliver => exact absurd rfl (hdeliver stream)

end Tickline.Analysis
