import Tickline.Analysis.ConsoleRun
import Tickline.Analysis.RunOutput
import Tickline.Analysis.TuiRuns

/-!
# Interactive runs go on

The execution waits for room in the channel or for the end of the program, and the program waits for
messages.  Their own actions take something off a measure (`step_ownWork`), and one of them is
possible unless it is the turn of somebody outside (`own_possible`).  So from wherever a run is,
they come to rest within a bounded number of actions (`tui_comes_to_rest`).

The context of the execution is cancelled exactly when the user has asked for it in front of the
end of the run, the caller has, or the program has failed (`tui_cancelled_iff`).  What the console
shows behind the end is what the run came to (`tui_shows_run`).
-/

set_option autoImplicit false

namespace Tickline.Analysis

open Tickline.Library Tickline.Model Tickline.Model.Console
open Tickline.Model.Stage (Event RunEnvironment RunResult)

/-! ## Coming to rest -/

/-- An action of the parties' own, for which nothing outside is needed. -/
def IsOwn : TuiAction → Prop
  | .send | .drop | .receive | .take _ | .quit => True
  | _ => False

/-- Whose turn it is where the parties are at rest: a stage is executed, the user reads the result,
or the run has returned. -/
inductive AtRest (run : TuiRun) : Prop
  | execution (hexecution : run.execution = .executing)
  | user (hdone : run.execution = .done) (hcompleted : run.model.completed = true)
      (hinterface : run.interface = .running) (hquitting : run.quitting = false)
  | nobody {returned : Option FinishedRun × Option GoString}
      (hreturned : run.returned = some returned)

/-- A message takes at most four actions more: it is sent, received and taken, and then the console
may quit. -/
def ownWork (run : TuiRun) : ℕ :=
  4 * (pendingSend run.execution).length + 3 * run.events.items.length + 2 * run.received.length +
    match run.interface with
    | .running => if run.quitting then 1 else 0
    | _ => 0

theorem step_ownWork {run next : TuiRun} {action : TuiAction} (hown : IsOwn action)
    (h : run.step action = some next) : ownWork next < ownWork run := by
  cases tuiStep_of_step h with
  | send hexecution hsend =>
    unfold ownWork
    simp only [pendingSend_behind, pendingSend_sending, hexecution, Channel.send?_items hsend,
      List.length_append, List.length_singleton, List.length_nil]
    omega
  | drop hexecution =>
    unfold ownWork
    simp only [pendingSend_behind, pendingSend_sending, hexecution, List.length_singleton,
      List.length_nil]
    omega
  | receive hwaiting hreceive =>
    unfold ownWork
    simp only [Channel.receive?_items hreceive, List.length_append, List.length_cons,
      List.length_nil]
    omega
  | @take index message hinterface hmessage =>
    have hlt := (List.getElem?_eq_some_iff.mp hmessage).1
    unfold ownWork
    simp only [TuiRun.handled, hinterface, List.length_eraseIdx_of_lt hlt]
    split_ifs <;> omega
  | quit hinterface hquitting =>
    unfold ownWork
    simp only [hinterface, hquitting, if_true]
    omega
  | _ => exact hown.elim

/-- INTERNAL: a message in transit is received or taken, where the console waits for one. -/
theorem own_of_transit {start : TeaModel} {actions : List TuiAction} {run : TuiRun}
    (h : HearsInOrder start actions run) (hinterface : run.interface = .running)
    (hopen : run.model.completed = false) (htransit : run.received ++ run.events.items ≠ []) :
    ∃ action, IsOwn action ∧ (run.step action).isSome := by
  have hreader := h.reader
  rw [hopen] at hreader
  cases hreceived : run.received with
  | cons message rest =>
    refine ⟨.take 0, trivial, ?_⟩
    unfold TuiRun.step
    simp [hinterface, hreceived]
  | nil =>
    rw [hreceived, List.nil_append] at htransit
    rw [hreceived] at hreader
    obtain ⟨received, hreceive⟩ := Option.isSome_iff_exists.mp
      (Channel.receive?_isSome_iff.mpr htransit)
    have hwaiting : run.waiting ≠ 0 := by
      simp only [List.length_nil, Bool.false_eq_true, if_false] at hreader
      omega
    refine ⟨.receive, trivial, ?_⟩
    unfold TuiRun.step
    simp [hwaiting, hreceive]

/-- INTERNAL: a console that has heard all of an execution that is done has heard its end. -/
theorem HearsInOrder.completed_of_done {start : TeaModel} {actions : List TuiAction} {run : TuiRun}
    (h : HearsInOrder start actions run) (hinterface : run.interface = .running)
    (hdone : run.execution = .done) (hnone : run.received ++ run.events.items = []) :
    run.model.completed = true := by
  obtain ⟨script, hscript, -, -, hequal⟩ := h.heard
  obtain ⟨events, hsent⟩ := h.sent
  have hphase := h.phase
  rw [hdone] at hphase
  generalize hresult : run.executionResult = executionResult at hphase hsent
  cases hphase with
  | done result =>
    have hheard : script.filter (·.isOfRun) =
        events.map .runnerEvent ++ [.runFinished result.1 result.2] := by
      have hall := hequal hinterface
      rw [inTransit, hnone, hdone, hsent] at hall
      simpa [pendingSend, finishedMessage] using hall
    have htold : told run.model = (true, some result.1, result.2) := by
      rw [hscript, told_afterMessages, hheard, List.foldl_append]
      rfl
    exact congrArg Prod.fst htold

/-- **The parties do not wait for each other.** -/
theorem own_possible {plan : List Stage.Task} {runID : GoString} {actions : List TuiAction}
    {run : TuiRun} (horder : HearsInOrder (newTeaModel plan runID true true) actions run)
    (hsettled : Settled actions run) (hrest : ¬ AtRest run) :
    ∃ action, IsOwn action ∧ (run.step action).isSome := by
  cases hexecution : run.execution with
  | executing => exact absurd (.execution hexecution) hrest
  | sending message =>
    cases hinterface : run.interface with
    | running =>
      by_cases hroom : run.events.items.length < eventCapacity
      · obtain ⟨events, hsend⟩ := Option.isSome_iff_exists.mp
          (Channel.send?_isSome_iff (a := message).mpr hroom)
        refine ⟨.send, trivial, ?_⟩
        unfold TuiRun.step
        simp [hexecution, hsend]
      · -- The channel is full, so the console is behind, and hears the rest of it first.
        have hopen : run.model.completed = false := by
          rw [← Bool.not_eq_true]
          intro hcompleted
          rw [hsettled.done hcompleted] at hexecution
          cases hexecution
        refine own_of_transit horder hinterface hopen fun hnone => hroom ?_
        rw [(List.append_eq_nil_iff.mp hnone).2]
        exact Nat.zero_lt_succ _
    | _ =>
      refine ⟨.drop, trivial, ?_⟩
      unfold TuiRun.step
      simp [hexecution, hinterface]
  | done =>
    cases hinterface : run.interface with
    | running =>
      by_cases hquitting : run.quitting = true
      · refine ⟨.quit, trivial, ?_⟩
        unfold TuiRun.step
        simp [hinterface, hquitting]
      · rw [Bool.not_eq_true] at hquitting
        by_cases hcompleted : run.model.completed = true
        · exact absurd (.user hexecution hcompleted hinterface hquitting) hrest
        · rw [Bool.not_eq_true] at hcompleted
          refine own_of_transit horder hinterface hcompleted fun hnone => ?_
          rw [horder.completed_of_done hinterface hexecution hnone] at hcompleted
          cases hcompleted
    | ended => exact absurd (.nobody (by unfold TuiRun.returned; rw [hinterface, hexecution])) hrest
    | failed cause =>
      exact absurd (.nobody (by unfold TuiRun.returned; rw [hinterface, hexecution])) hrest

theorem ownWork_le {start : TeaModel} {actions : List TuiAction} {run : TuiRun}
    (h : HearsInOrder start actions run) : ownWork run ≤ 3 * eventCapacity + 7 := by
  have hpending : (pendingSend run.execution).length ≤ 1 := by
    cases run.execution <;> simp [pendingSend]
  have hreceived : run.received.length ≤ 1 := by
    have hreader := h.reader
    split_ifs at hreader <;> omega
  have hquit : (match run.interface with
      | .running => if run.quitting then 1 else 0
      | _ => 0) ≤ 1 := by
    split
    · split_ifs <;> omega
    · omega
  have hfits := run.events.fits
  unfold ownWork
  omega

/-- **Interactive runs do not deadlock**: wherever a run is, no more than a fixed number of the
parties' own actions follow each other, and some of them lead to where it is the turn of the
execution, of the user, or of nobody.
SRC: tui/run.go:50-128, tui/model.go:106-196 -/
theorem tui_comes_to_rest {plan : List Stage.Task} {runID : GoString} {actions : List TuiAction}
    {run : TuiRun} (h : Transitions.run TuiRun.step (startTui plan runID) actions = some run) :
    (∀ own after, (∀ action ∈ own, IsOwn action) →
      Transitions.run TuiRun.step run own = some after → own.length ≤ 3 * eventCapacity + 7) ∧
    ∃ own after, (∀ action ∈ own, IsOwn action) ∧
      Transitions.run TuiRun.step run own = some after ∧ AtRest after := by
  have hstep : ∀ before action after, (∃ actions, Transitions.run TuiRun.step
      (startTui plan runID) actions = some before) → IsOwn action →
      before.step action = some after → (∃ actions, Transitions.run TuiRun.step
        (startTui plan runID) actions = some after) ∧ ownWork after < ownWork before := by
    rintro before action after ⟨front, hfront⟩ hown hnext
    have hconcat := (Transitions.run_concat TuiRun.step).mpr ⟨before, hfront, hnext⟩
    exact ⟨⟨_, hconcat⟩, step_ownWork hown hnext⟩
  have hmove : ∀ before, (∃ actions, Transitions.run TuiRun.step
      (startTui plan runID) actions = some before) → ¬ AtRest before →
      ∃ action after, IsOwn action ∧ before.step action = some after := by
    rintro before ⟨front, hfront⟩ hrest
    obtain ⟨action, hown, hsome⟩ :=
      own_possible (hearsInOrder_run hfront) (settled_run hfront) hrest
    obtain ⟨after, hafter⟩ := Option.isSome_iff_exists.mp hsome
    exact ⟨action, after, hown, hafter⟩
  refine ⟨fun own after hown hrun => ?_, ?_⟩
  · exact (Transitions.run_length_le hstep ⟨actions, h⟩ hown hrun).trans
      (ownWork_le (hearsInOrder_run h))
  · obtain ⟨own, after, hown, hrun, -, hrest⟩ :=
      Transitions.exists_run_to_rest hstep hmove ⟨actions, h⟩
    exact ⟨own, after, hown, hrun, hrest⟩

/-- A run whose user does not wait for its end. -/
theorem tui_comes_to_rest_sample : ∃ run own after,
    Transitions.run TuiRun.step (startTui [] []) (sampleActions.take 8) = some run ∧
    (∀ action ∈ own, IsOwn action) ∧ Transitions.run TuiRun.step run own = some after ∧
      AtRest after := by
  obtain ⟨run, hrun⟩ : ∃ run, Transitions.run TuiRun.step (startTui [] [])
      (sampleActions.take 8) = some run := ⟨_, rfl⟩
  obtain ⟨own, after, hown, hafter, hrest⟩ := (tui_comes_to_rest hrun).2
  exact ⟨run, own, after, hrun, hown, hafter, hrest⟩

/-! ## Cancellation -/

/-- The user has asked for the run to be cancelled, in front of its end. -/
def Asked (start : TuiRun) (actions : List TuiAction) : Prop :=
  ∃ front message middle, front ++ [.terminal message] <+: actions ∧ asksToCancel message = true ∧
    Transitions.run TuiRun.step start front = some middle ∧ middle.model.completed = false

/-- Somebody has cancelled the run. -/
def CancelledBy (start : TuiRun) (actions : List TuiAction) : Prop :=
  Asked start actions ∨ .cancelParent ∈ actions ∨ ∃ cause, .interfaceFails cause ∈ actions

theorem asked_concat {start middle : TuiRun} {front : List TuiAction} {action : TuiAction}
    (h : Transitions.run TuiRun.step start front = some middle) :
    Asked start (front ++ [action]) ↔ Asked start front ∨ ∃ message,
      action = .terminal message ∧ asksToCancel message = true ∧
        middle.model.completed = false := by
  constructor
  · rintro ⟨before, message, state, hprefix, hasks, hrun, hopen⟩
    rcases List.prefix_concat_iff.mp hprefix with hall | hfront
    · obtain ⟨rfl, hlast⟩ := List.append_inj' hall rfl
      obtain rfl := Option.some.inj (hrun.symm.trans h)
      exact .inr ⟨message, (List.cons.inj hlast).1.symm, hasks, hopen⟩
    · exact .inl ⟨before, message, state, hfront, hasks, hrun, hopen⟩
  · rintro (⟨before, message, state, hprefix, hasks, hrun, hopen⟩ | ⟨message, rfl, hasks, hopen⟩)
    · exact ⟨before, message, state, hprefix.trans (List.prefix_append _ _), hasks, hrun, hopen⟩
    · exact ⟨front, message, middle, List.prefix_refl _, hasks, h, hopen⟩

theorem cancelledBy_concat {start middle : TuiRun} {front : List TuiAction} {action : TuiAction}
    (h : Transitions.run TuiRun.step start front = some middle) :
    CancelledBy start (front ++ [action]) ↔ CancelledBy start front ∨
      (∃ message, action = .terminal message ∧ asksToCancel message = true ∧
        middle.model.completed = false) ∨ action = .cancelParent ∨
          ∃ cause, action = .interfaceFails cause := by
  unfold CancelledBy
  rw [asked_concat h]
  simp only [List.mem_append, List.mem_singleton, exists_or, eq_comm (b := action)]
  simp only [or_assoc, or_left_comm]

/-- An action with which nobody cancels. -/
def IsQuiet : TuiAction → Prop
  | .terminal _ | .interfaceFails _ | .cancelParent => False
  | _ => True

/-- The context of the execution is cancelled by somebody, and the console knows of nothing else. -/
structure Cancels (start : TuiRun) (actions : List TuiAction) (run : TuiRun) : Prop where
  cancelled : run.cancelled = true ↔ CancelledBy start actions
  shown : run.model.cancelling = true → run.cancelled = true
  transit : ∀ event, .runnerEvent event ∈ inTransit run → event.kind = .cancellationRequested →
    run.cancelled = true

namespace Cancels

variable {start run next : TuiRun} {actions : List TuiAction} {action : TuiAction}

/-- INTERNAL: an action that cancels nothing. -/
theorem of_same (h : Cancels start actions run)
    (hrun : Transitions.run TuiRun.step start actions = some run) (hquiet : IsQuiet action)
    (hcancelled : next.cancelled = run.cancelled)
    (hshown : next.model.cancelling = true → run.cancelled = true)
    (htransit : ∀ event, .runnerEvent event ∈ inTransit next →
      event.kind = .cancellationRequested → run.cancelled = true) :
    Cancels start (actions ++ [action]) next := by
  refine ⟨?_, fun hcancelling => hcancelled ▸ hshown hcancelling,
    fun event hmem hkind => hcancelled ▸ htransit event hmem hkind⟩
  have hterminal : ∀ message, action ≠ .terminal message := by
    rintro message rfl
    exact hquiet
  have hparent : action ≠ .cancelParent := by
    rintro rfl
    exact hquiet
  have hfails : ∀ cause, action ≠ .interfaceFails cause := by
    rintro cause rfl
    exact hquiet
  rw [hcancelled, h.cancelled, cancelledBy_concat hrun]
  simp [hterminal, hparent, hfails]

/-- INTERNAL: where the messages in transit are among those before. -/
theorem transit_of_subset (h : Cancels start actions run)
    (hsubset : ∀ message ∈ inTransit next, message ∈ inTransit run) (event : Event)
    (hmem : .runnerEvent event ∈ inTransit next) (hkind : event.kind = .cancellationRequested) :
    run.cancelled = true :=
  h.transit event (hsubset _ hmem) hkind

/-- INTERNAL: a message that the terminal sends. -/
theorem of_terminal (h : Cancels start actions run) {message : Message}
    (hrun : Transitions.run TuiRun.step start actions = some run) (hruntime : run.model.cancel = true)
    (hterminal : message.isOfRun = false) :
    Cancels start (actions ++ [.terminal message]) (run.handled message) := by
  have hanswer := update_answer run.model message
  have hnow : (run.handled message).cancelled = true ↔
      run.cancelled = true ∨ asksToCancel message = true ∧ run.model.completed = false := by
    show (run.cancelled || (run.model.update message).cancels) = true ↔ _
    rw [hanswer.cancels, hruntime]
    cases hcancelling : run.model.cancelling with
    | true => simp [h.shown hcancelling]
    | false => simp
  refine ⟨?_, fun hcancelling => hnow.mpr ?_, fun event hmem hkind => hnow.mpr (.inl ?_)⟩
  · rw [hnow, h.cancelled, cancelledBy_concat hrun]
    simp
  · rcases hanswer.cancelling.mp hcancelling with hbefore | hasks | ⟨event, rfl, -⟩
    · exact .inl (h.shown hbefore)
    · exact .inr hasks
    · cases hterminal
  · exact h.transit event hmem hkind

/-- **Every action keeps the cancellation.** -/
theorem step {model : TeaModel} (horder : HearsInOrder model actions run)
    (h : Cancels start actions run)
    (hrun : Transitions.run TuiRun.step start actions = some run)
    (hstep : run.step action = some next) : Cancels start (actions ++ [action]) next := by
  cases tuiStep_of_step hstep with
  | @emit event hexecution hcancelled =>
    refine h.of_same hrun trivial rfl h.shown fun later hmem hkind => ?_
    rw [inTransit, pendingSend_sending, List.mem_append, List.mem_singleton] at hmem
    rcases hmem with hmem | hlast
    · exact h.transit later (List.mem_append_left _ hmem) hkind
    · obtain rfl := Message.runnerEvent.inj hlast
      exact hcancelled hkind
  | @finishRun result err hexecution =>
    refine h.of_same hrun trivial rfl h.shown fun later hmem hkind => ?_
    rw [inTransit, pendingSend_sending, List.mem_append, List.mem_singleton] at hmem
    rcases hmem with hmem | hlast
    · exact h.transit later (List.mem_append_left _ hmem) hkind
    · cases hlast
  | send hexecution hsend =>
    refine h.of_same hrun trivial rfl h.shown (h.transit_of_subset fun later hmem => ?_)
    simpa [inTransit, hexecution, pendingSend_sending, Channel.send?_items hsend] using hmem
  | drop hexecution =>
    refine h.of_same hrun trivial rfl h.shown (h.transit_of_subset fun later hmem => ?_)
    rw [inTransit, pendingSend_behind, List.append_nil] at hmem
    exact List.mem_append_left _ hmem
  | receive hwaiting hreceive =>
    refine h.of_same hrun trivial rfl h.shown (h.transit_of_subset fun later hmem => ?_)
    simpa [inTransit, Channel.receive?_items hreceive] using hmem
  | @take index message hinterface hmessage =>
    obtain ⟨hreceived, rfl, -⟩ := horder.received_eq hmessage
    have htaken : message ∈ inTransit run := by simp [inTransit, hreceived]
    have hanswer := update_answer run.model message
    have hasks : asksToCancel message = false := by
      have hkind := horder.isOfRun_of_mem hinterface htaken
      cases message <;> first | rfl | cases hkind
    refine h.of_same hrun trivial ?_ ?_ (h.transit_of_subset fun later hmem => ?_)
    · show (run.cancelled || (run.model.update message).cancels) = run.cancelled
      rw [hanswer.cancels, hasks]
      simp
    · intro hcancelling
      rcases hanswer.cancelling.mp hcancelling with hbefore | ⟨hasked, -⟩ | ⟨event, rfl, hkind⟩
      · exact h.shown hbefore
      · rw [hasks] at hasked
        cases hasked
      · exact h.transit event htaken hkind
    · have hrest : later ∈ run.received.eraseIdx 0 ++ run.events.items ++
          pendingSend run.execution := hmem
      rw [hreceived] at hrest
      simpa [inTransit, hreceived] using Or.inr hrest
  | terminal hinterface hterminal => exact h.of_terminal hrun horder.runtime.2 hterminal
  | quit => exact h.of_same hrun trivial rfl h.shown h.transit
  | endedBySignal => exact h.of_same hrun trivial rfl h.shown h.transit
  | @interfaceFails cause hinterface =>
    refine ⟨⟨fun _ => .inr (.inr ⟨cause, by simp⟩), fun _ => rfl⟩, fun _ => rfl, fun _ _ _ => rfl⟩
  | cancelParent =>
    exact ⟨⟨fun _ => .inr (.inl (by simp)), fun _ => rfl⟩, fun _ => rfl, fun _ _ _ => rfl⟩

end Cancels

/-- **Who cancels an interactive run**: the user, where the console asks in front of its end, the
caller, or the program when it fails; and nobody else.
SRC: tui/run.go:50-128, tui/model.go:132-155, 198-208 -/
theorem tui_cancelled_iff {plan : List Stage.Task} {runID : GoString} {actions : List TuiAction}
    {run : TuiRun} (h : Transitions.run TuiRun.step (startTui plan runID) actions = some run) :
    run.cancelled = true ↔ CancelledBy (startTui plan runID) actions := by
  refine (Transitions.run_history (J := Cancels (startTui plan runID)) ?_ ?_ h).cancelled
  · refine ⟨⟨fun hcancelled => Bool.noConfusion (show false = true from hcancelled), ?_⟩,
      fun hcancelling => Bool.noConfusion (show false = true from hcancelling), fun event hmem => ?_⟩
    · rintro (⟨front, message, middle, hprefix, -⟩ | hparent | ⟨cause, hfails⟩)
      · exact absurd (List.prefix_nil.mp hprefix) (by simp)
      · cases hparent
      · cases hfails
    · cases (show Message.runnerEvent event ∈ [] from hmem)
  · exact fun front middle action after hfront hmiddle hstep =>
      hmiddle.step (hearsInOrder_run hfront) hfront hstep

theorem tui_cancelled_sample : ∃ run,
    Transitions.run TuiRun.step (startTui [] []) sampleActions = some run ∧
    (run.cancelled = true ↔ CancelledBy (startTui [] []) sampleActions) :=
  ⟨_, rfl, tui_cancelled_iff
    (show Transitions.run TuiRun.step (startTui [] []) sampleActions = some _ from rfl)⟩

/-! ## What the console shows at the end -/

/-- The event that a message brings. -/
def eventOf : Message → Option Event
  | .runnerEvent event => some event
  | _ => none

/-- INTERNAL: only events change what the stages show. -/
theorem stages_afterMessages {model : TeaModel} (h : Indexed model.toConsoleModel)
    (script : List Message) : (afterMessages model script).stages =
      model.stages.map fun stage => (script.filterMap eventOf).foldl shownAfter stage := by
  induction script generalizing model with
  | nil => simp [afterMessages]
  | cons message script ih =>
    have hother : ∀ after : TeaModel, after.stages = model.stages →
        after.stageIndex = model.stageIndex → Indexed after.toConsoleModel := by
      intro after hstages hindex id index
      rw [hindex, hstages]
      exact h id index
    rw [afterMessages, List.foldl_cons, ← afterMessages]
    cases message with
    | runnerEvent event =>
      obtain ⟨hstages, hsame⟩ := applyRunnerEvent_stages h event
      have hindexed : Indexed (model.update (.runnerEvent event)).model.toConsoleModel := by
        intro id index
        show (model.toConsoleModel.applyRunnerEvent event).stageIndex id = some index ↔
          ∃ stage, (model.toConsoleModel.applyRunnerEvent event).stages[index]? = some stage ∧ _
        rw [hsame, h id index, hstages, List.getElem?_map]
        cases model.stages[index]? <;> simp
      rw [ih hindexed, show (model.update (.runnerEvent event)).model.stages =
        model.stages.map (shownAfter · event) from hstages, List.map_map]
      rfl
    | keyPress key =>
      obtain ⟨selected, cancelling, hmodel, -⟩ := pressKey_eq model key
      have hstages : (model.pressKey key).model.stages = model.stages := by rw [hmodel]
      have hindex : (model.pressKey key).model.stageIndex = model.stageIndex := by rw [hmodel]
      refine (ih (hother _ hstages hindex)).trans ?_
      rw [hstages]
      rfl
    | runFinished result err =>
      have hstages : (model.update (.runFinished result err)).model.stages = model.stages := by
        unfold TeaModel.update
        dsimp only
        split_ifs <;> rfl
      have hindex : (model.update (.runFinished result err)).model.stageIndex =
          model.stageIndex := by
        unfold TeaModel.update
        dsimp only
        split_ifs <;> rfl
      rw [ih (hother _ hstages hindex), hstages]
      rfl
    | _ => exact ih (hother _ rfl rfl)

/-- **The interactive console shows the run that it executes**: where the execution sends the events
of a run of the plan, the console shows what became of every stage once it was told of the end, in
any order of the parties' actions and whatever the user has pressed.
SRC: tui/run.go:50-128, tui/model.go:110-257, runner.go:27-156 -/
theorem tui_shows_run {plan : List Stage.Task} (hplan : plan ≠ [])
    (hdistinct : (plan.map (·.id)).Nodup) {environment : RunEnvironment}
    {repositoryRoot runID : GoString} {result : RunResult} {events : List Event}
    (hresult : Stage.run environment repositoryRoot plan = .ok (result, events))
    {actions : List TuiAction} {run : TuiRun}
    (h : Transitions.run TuiRun.step (startTui plan runID) actions = some run)
    {finished : FinishedRun} {err : Option GoString}
    (hsent : sentBy actions = events.map .runnerEvent ++ [.runFinished finished err])
    (hcompleted : run.model.completed = true) :
    ShowsRun run.model.toConsoleModel plan result := by
  obtain ⟨result', err', hall⟩ :=
    (hearsInOrder_run h).heardAll (told_newTeaModel plan runID true true) hcompleted
  obtain ⟨script, hscript, -, hheard⟩ := hall.script
  have hevents : script.filterMap eventOf = events := by
    have hfilter : script.filterMap eventOf = (script.filter (·.isOfRun)).filterMap eventOf := by
      rw [List.filterMap_filter]
      refine List.filterMap_congr fun message _ => ?_
      cases message <;> rfl
    rw [hfilter, hheard, hsent, List.filterMap_append, List.filterMap_map]
    simp [Function.comp_def, eventOf]
  have hroot := not_rootRefused_of_run hresult
  obtain ⟨stages, own, status, hloop, hrun⟩ := run_eq hroot hplan
  obtain ⟨rfl, rfl⟩ := Prod.mk.inj (Except.ok.inj (hresult.symm.trans hrun))
  let first : Event := { kind := .runStarted }
  let last : Event :=
    { kind := .runFinished, status := some status, duration := environment.duration }
  have hshows : ShowsRun (([first] ++ own ++ [last]).foldl ConsoleModel.applyRunnerEvent
      (newModel plan runID)) plan _ :=
    hloop.showsRun hdistinct runID rfl rfl environment.duration
  have hsame : run.model.stages = (([first] ++ own ++ [last]).foldl
      ConsoleModel.applyRunnerEvent (newModel plan runID)).stages := by
    rw [hscript, stages_afterMessages (newModel_indexed hdistinct runID), hevents,
      foldl_applyRunnerEvent_stages _ (newModel_indexed hdistinct runID)]
    rfl
  refine ⟨hsame ▸ hshows.stages, ?_⟩
  rw [ConsoleModel.progress, hsame]
  exact hshows.progress

/-- The events of the sample run, and its end. -/
def sampleDelivery : List TuiAction :=
  let events := match Stage.run sampleEnvironment (.ascii "/r") sampleManifest.tasks with
    | .ok (_, events) => events
    | .error _ => []
  let finished : FinishedRun :=
    { runID := [], status := some .failed, duration := 0, stages := [] }
  (events.map TuiAction.emit ++ [.finishRun finished none]).flatMap fun action =>
    [action, .send, .receive, .take 0]

theorem tui_shows_sample : ∃ run result,
    Transitions.run TuiRun.step (startTui sampleManifest.tasks []) sampleDelivery = some run ∧
    ShowsRun run.model.toConsoleModel sampleManifest.tasks result :=
  ⟨_, _, rfl, tui_shows_run (by decide) (by decide) (show Stage.run sampleEnvironment (.ascii "/r")
    sampleManifest.tasks = .ok (_, _) from rfl) (show Transitions.run TuiRun.step
      (startTui sampleManifest.tasks []) sampleDelivery = some _ from rfl) rfl rfl⟩

end Tickline.Analysis
