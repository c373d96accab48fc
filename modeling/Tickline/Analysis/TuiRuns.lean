import Tickline.Library.Transitions
import Tickline.Model.TuiRun
import Tickline.Analysis.ConsoleBounds

/-!
# Interactive runs

What each action of an interactive run does is said once (`TuiStep`).  From that follow, for every
order of the actions, the messages between the parties (`HearsInOrder`): at most one command of the
console waits for the channel, so nothing overtakes, and what the console has heard of the run is the
front of what the execution has sent.  The console quits only behind the result of the run
(`Settled`), so what an interactive run returns is what its execution returned.

The parties never wait for each other for good: whatever they have done, their own actions come to
rest, and then it is the turn of the execution, of the user, or of nobody (`tui_comes_to_rest`).
-/

set_option autoImplicit false

namespace Tickline.Analysis

open Tickline.Library Tickline.Model Tickline.Model.Console
open Tickline.Model.Stage (Event)

/-! ## One action -/

/-- What the actions of an interactive run do. -/
inductive TuiStep (run : TuiRun) : TuiAction → TuiRun → Prop
  | emit {event : Event} (hexecution : run.execution = .executing)
      (hcancelled : event.kind = .cancellationRequested → run.cancelled = true) :
      TuiStep run (.emit event) { run with execution := .sending (.runnerEvent event) }
  | finishRun {result : FinishedRun} {err : Option GoString}
      (hexecution : run.execution = .executing) :
      TuiStep run (.finishRun result err)
        { run with
          execution := .sending (.runFinished result err)
          executionResult := some (result, err) }
  | send {message : Message} {events : Channel Message eventCapacity}
      (hexecution : run.execution = .sending message)
      (hsend : run.events.send? message = some events) :
      TuiStep run .send { run with events, execution := .behind message }
  | drop {message : Message} (hexecution : run.execution = .sending message)
      (hinterface : run.interface ≠ .running) :
      TuiStep run .drop { run with execution := .behind message }
  | receive {message : Message} {events : Channel Message eventCapacity}
      (hwaiting : run.waiting ≠ 0) (hreceive : run.events.receive? = some (message, events)) :
      TuiStep run .receive
        { run with events, waiting := run.waiting - 1, received := run.received ++ [message] }
  | take {index : ℕ} {message : Message} (hinterface : run.interface = .running)
      (hmessage : run.received[index]? = some message) :
      TuiStep run (.take index)
        (({ run with received := run.received.eraseIdx index } : TuiRun).handled message)
  | terminal {message : Message} (hinterface : run.interface = .running)
      (hterminal : message.isOfRun = false) : TuiStep run (.terminal message) (run.handled message)
  | quit (hinterface : run.interface = .running) (hquitting : run.quitting = true) :
      TuiStep run .quit { run with interface := .ended }
  | endedBySignal (hinterface : run.interface = .running) :
      TuiStep run .endedBySignal { run with interface := .ended }
  | interfaceFails {cause : GoString} (hinterface : run.interface = .running) :
      TuiStep run (.interfaceFails cause) { run with interface := .failed cause, cancelled := true }
  | cancelParent : TuiStep run .cancelParent { run with cancelled := true }

theorem tuiStep_of_step {run next : TuiRun} {action : TuiAction} (h : run.step action = some next) :
    TuiStep run action next := by
  cases action with
  | emit event =>
    unfold TuiRun.step at h
    cases hexecution : run.execution with
    | executing =>
      simp only [hexecution] at h
      split_ifs at h with hrefused
      obtain rfl := Option.some.inj h
      refine .emit hexecution fun hkind => ?_
      by_contra hcancelled
      exact hrefused ⟨hkind, Bool.eq_false_iff.mpr hcancelled⟩
    | _ => simp [hexecution] at h
  | finishRun result err =>
    unfold TuiRun.step at h
    cases hexecution : run.execution with
    | executing =>
      simp only [hexecution] at h
      exact Option.some.inj h ▸ .finishRun hexecution
    | _ => simp [hexecution] at h
  | send =>
    unfold TuiRun.step at h
    cases hexecution : run.execution with
    | sending message =>
      simp only [hexecution] at h
      obtain ⟨events, hsend, rfl⟩ := Option.map_eq_some_iff.mp h
      exact .send hexecution hsend
    | _ => simp [hexecution] at h
  | drop =>
    unfold TuiRun.step at h
    cases hexecution : run.execution with
    | sending message =>
      cases hinterface : run.interface with
      | running => simp [hexecution, hinterface] at h
      | _ =>
        simp only [hexecution, hinterface] at h
        obtain rfl := Option.some.inj h
        exact hinterface ▸ .drop hexecution (by rw [hinterface]; nofun)
    | _ => simp [hexecution] at h
  | receive =>
    unfold TuiRun.step at h
    dsimp only at h
    split_ifs at h with hwaiting
    obtain ⟨⟨message, events⟩, hreceive, rfl⟩ := Option.map_eq_some_iff.mp h
    exact .receive hwaiting hreceive
  | take index =>
    unfold TuiRun.step at h
    cases hinterface : run.interface with
    | running =>
      cases hmessage : run.received[index]? with
      | none => simp [hinterface, hmessage] at h
      | some message =>
        simp only [hinterface, hmessage] at h
        obtain rfl := Option.some.inj h
        rw [← hinterface]
        exact .take hinterface hmessage
    | _ => simp [hinterface] at h
  | terminal message =>
    unfold TuiRun.step at h
    cases hinterface : run.interface with
    | running =>
      simp only [hinterface] at h
      split_ifs at h with hterminal
      exact Option.some.inj h ▸ .terminal hinterface (Bool.eq_false_iff.mpr hterminal)
    | _ => simp [hinterface] at h
  | quit =>
    unfold TuiRun.step at h
    cases hinterface : run.interface with
    | running =>
      simp only [hinterface] at h
      split_ifs at h with hquitting
      exact Option.some.inj h ▸ .quit hinterface hquitting
    | _ => simp [hinterface] at h
  | endedBySignal =>
    unfold TuiRun.step at h
    cases hinterface : run.interface with
    | running =>
      simp only [hinterface] at h
      exact Option.some.inj h ▸ .endedBySignal hinterface
    | _ => simp [hinterface] at h
  | interfaceFails cause =>
    unfold TuiRun.step at h
    cases hinterface : run.interface with
    | running =>
      simp only [hinterface] at h
      exact Option.some.inj h ▸ .interfaceFails hinterface
    | _ => simp [hinterface] at h
  | cancelParent => exact Option.some.inj h ▸ .cancelParent

/-! ## One message -/

/-- What the console has been told of the end of the run. -/
def told (model : TeaModel) : Bool × Option FinishedRun × Option GoString :=
  (model.completed, model.result, model.runError)

/-- A message of the channel tells the console the end of the run, or nothing of it. -/
def tell (before : Bool × Option FinishedRun × Option GoString) :
    Message → Bool × Option FinishedRun × Option GoString
  | .runFinished result err => (true, some result, err)
  | _ => before

/-- The user asks for the run to be cancelled. -/
def asksToCancel : Message → Bool
  | .keyPress key => key ∈ [GoString.ascii "q", GoString.ascii "esc", GoString.ascii "ctrl+c"]
  | _ => false

theorem requestCancellation_cancelling (model : TeaModel) :
    model.requestCancellation.model.cancelling = (model.cancelling || !model.completed) ∧
      model.requestCancellation.cancels =
        (!model.completed && !model.cancelling && model.cancel) ∧
      model.requestCancellation.command = .nothing := by
  unfold TeaModel.requestCancellation
  cases hcompleted : model.completed <;> cases hcancelling : model.cancelling <;>
    simp [hcancelling]

/-- A key quits only behind the end of the run, and cancels only in front of it. -/
theorem pressKey_answer (model : TeaModel) (key : GoString) :
    ((model.pressKey key).command = .nothing ∨
      (model.pressKey key).command = .quit ∧ model.completed = true) ∧
    (model.pressKey key).model.cancelling =
      (model.cancelling || asksToCancel (.keyPress key) && !model.completed) ∧
    (model.pressKey key).cancels = (asksToCancel (.keyPress key) && !model.completed &&
      !model.cancelling && model.cancel) := by
  have hother : ∀ keys : List GoString, key ∈ keys →
      (∀ other ∈ keys, asksToCancel (.keyPress other) = false) →
        asksToCancel (.keyPress key) = false := fun keys hkey hall => hall key hkey
  obtain ⟨hcancelling, hcancels, hnothing⟩ := requestCancellation_cancelling model
  unfold TeaModel.pressKey
  split_ifs with hup hdown hhome hsome hend hsome' hquit hcompleted hinterrupt henter hcompleted'
  · simp [hother _ hup (by decide)]
  · simp [hother _ hdown (by decide)]
  · simp [hother _ hhome (by decide)]
  · simp [hother _ hhome (by decide)]
  · simp [hother _ hend (by decide)]
  · simp [hother _ hend (by decide)]
  · simp [hcompleted]
  · have hasks : asksToCancel (.keyPress key) = true := by
      unfold asksToCancel
      simp only [List.mem_cons, List.not_mem_nil, or_false] at hquit ⊢
      exact decide_eq_true (by tauto)
    rw [hcancelling, hcancels, hnothing, hasks]
    simp
  · have hasks : asksToCancel (.keyPress key) = true := by
      rw [hinterrupt]
      decide
    rw [hcancelling, hcancels, hnothing, hasks]
    simp
  · simp [hcompleted', show asksToCancel (.keyPress key) = false by rw [henter]; decide]
  · simp [show asksToCancel (.keyPress key) = false by rw [henter]; decide]
  · have hasks : asksToCancel (.keyPress key) = false := by
      unfold asksToCancel
      simp only [List.mem_cons, List.not_mem_nil, or_false] at hquit ⊢
      exact decide_eq_false (by tauto)
    simp [hasks]

/-- What a message does to the console, beside what it shows. -/
structure UpdateAnswer (model : TeaModel) (message : Message) (updated : Updated) : Prop where
  told : told updated.model = tell (told model) message
  events : updated.model.events = model.events
  cancel : updated.model.cancel = model.cancel
  waits : updated.command = .waitForMessage ↔
    ∃ event, message = .runnerEvent event ∧ model.events = true ∧ model.completed = false
  quits : updated.command = .quit → updated.model.completed = true
  cancels : updated.cancels =
    (asksToCancel message && !model.completed && !model.cancelling && model.cancel)
  cancelling : updated.model.cancelling = true ↔ model.cancelling = true ∨
    asksToCancel message = true ∧ model.completed = false ∨
      ∃ event, message = .runnerEvent event ∧ event.kind = .cancellationRequested

theorem applyRunnerEvent_cancelling (model : ConsoleModel) (event : Event) :
    (model.applyRunnerEvent event).cancelling = true ↔
      model.cancelling = true ∨ event.kind = .cancellationRequested := by
  unfold ConsoleModel.applyRunnerEvent
  cases hkind : event.kind with
  | cancellationRequested => simp
  | stageOutput =>
    cases model.stageIndex event.stageID with
    | none => simp
    | some index =>
      unfold ConsoleModel.appendStageOutput
      dsimp only
      split_ifs <;> simp
  | _ => cases model.stageIndex event.stageID <;> simp

theorem update_answer (model : TeaModel) (message : Message) :
    UpdateAnswer model message (model.update message) := by
  cases message with
  | windowSize width height => constructor <;> simp [TeaModel.update, told, tell, asksToCancel]
  | keyPress key =>
    obtain ⟨selected, cancelling, hmodel, -⟩ := pressKey_eq model key
    obtain ⟨hcommand, hcancelling, hcancels⟩ := pressKey_answer model key
    have hupdate : model.update (.keyPress key) = model.pressKey key := rfl
    rw [hupdate]
    refine ⟨by rw [hmodel]; rfl, by rw [hmodel], by rw [hmodel], ?_, ?_, hcancels, ?_⟩
    · rcases hcommand with hcommand | ⟨hcommand, -⟩ <;> simp [hcommand]
    · rcases hcommand with hcommand | ⟨hcommand, hcompleted⟩
      · simp [hcommand]
      · exact fun _ => by rw [hmodel]; exact hcompleted
    · rw [hcancelling]
      simp
  | runnerEvent event =>
    refine ⟨rfl, rfl, rfl, ?_, ?_, by simp [TeaModel.update, asksToCancel], ?_⟩
    · show TeaModel.waitForEvent _ = _ ↔ _
      unfold TeaModel.waitForEvent
      cases hevents : model.events <;> cases hcompleted : model.completed <;> simp
    · show TeaModel.waitForEvent _ = _ → _
      unfold TeaModel.waitForEvent
      split_ifs <;> nofun
    · refine (applyRunnerEvent_cancelling model.toConsoleModel event).trans ?_
      simp [asksToCancel]
  | runFinished result err =>
    unfold TeaModel.update
    dsimp only
    constructor <;> split_ifs <;> simp [told, tell, asksToCancel]
  | other => constructor <;> simp [TeaModel.update, told, tell, asksToCancel]

/-! ## What the console has heard -/

theorem told_afterMessages (model : TeaModel) (script : List Message) :
    told (afterMessages model script) = (script.filter (·.isOfRun)).foldl tell (told model) := by
  induction script generalizing model with
  | nil => rfl
  | cons message script ih =>
    rw [afterMessages, List.foldl_cons, ← afterMessages, ih, (update_answer model message).told]
    cases message <;> rfl

/-- What the execution has sent, or is about to send. -/
def sentBy (actions : List TuiAction) : List Message :=
  actions.filterMap fun
    | .emit event => some (.runnerEvent event)
    | .finishRun result err => some (.runFinished result err)
    | _ => none

/-- What the terminal has sent to the program. -/
def typedBy (actions : List TuiAction) : List Message :=
  actions.filterMap fun
    | .terminal message => some message
    | _ => none

/-- What is in front of a send. -/
def pendingSend : ExecutionPhase → List Message
  | .sending message => [message]
  | _ => []

/-- What was sent, or is about to be, and was not handled. -/
def inTransit (run : TuiRun) : List Message :=
  run.received ++ run.events.items ++ pendingSend run.execution

theorem pendingSend_sending (message : Message) : pendingSend (.sending message) = [message] := rfl

@[simp] theorem pendingSend_behind (message : Message) :
    pendingSend (.behind message) = [] := by
  cases message <;> rfl

/-- The message that ends what an execution sends. -/
def finishedMessage (executionResult : Option (FinishedRun × Option GoString)) : List Message :=
  (executionResult.map fun result => Message.runFinished result.1 result.2).toList

/-- The execution goes through its phases: events, one result, and then nothing. -/
inductive PhaseFits : ExecutionPhase → Option (FinishedRun × Option GoString) → Prop
  | executing : PhaseFits .executing none
  | event (event : Event) : PhaseFits (.sending (.runnerEvent event)) none
  | result (result : FinishedRun) (err : Option GoString) :
      PhaseFits (.sending (.runFinished result err)) (some (result, err))
  | done (result : FinishedRun × Option GoString) : PhaseFits .done (some result)

/-- What holds between the parties of an interactive run behind some actions. -/
structure HearsInOrder (start : TeaModel) (actions : List TuiAction) (run : TuiRun) : Prop where
  sent : ∃ events : List Event,
    sentBy actions = events.map .runnerEvent ++ finishedMessage run.executionResult
  phase : PhaseFits run.execution run.executionResult
  heard : ∃ script, run.model = afterMessages start script ∧
    script.filter (!·.isOfRun) = typedBy actions ∧
    script.filter (·.isOfRun) <+: sentBy actions ∧
    (run.interface = .running → script.filter (·.isOfRun) ++ inTransit run = sentBy actions)
  runtime : run.model.events = true ∧ run.model.cancel = true
  reader : run.waiting + run.received.length = if run.model.completed then 0 else 1

theorem hearsInOrder_start (plan : List Stage.Task) (runID : GoString) :
    HearsInOrder (newTeaModel plan runID true true) [] (startTui plan runID) where
  sent := ⟨[], rfl⟩
  phase := .executing
  heard := ⟨[], rfl, rfl, List.prefix_refl _, fun _ => rfl⟩
  runtime := ⟨rfl, rfl⟩
  reader := rfl

/-- The console has heard everything that the execution sent, its result last. -/
structure HeardAll (start : TeaModel) (actions : List TuiAction) (run : TuiRun)
    (result : FinishedRun) (err : Option GoString) : Prop where
  script : ∃ script, run.model = afterMessages start script ∧
    script.filter (!·.isOfRun) = typedBy actions ∧ script.filter (·.isOfRun) = sentBy actions
  sent : ∃ events : List Event,
    sentBy actions = events.map .runnerEvent ++ [.runFinished result err]
  executionResult : run.executionResult = some (result, err)
  told : told run.model = (true, some result, err)
  transit : run.interface = .running → inTransit run = []

namespace HearsInOrder

variable {start : TeaModel} {actions : List TuiAction} {run next : TuiRun}

/-- INTERNAL: what is in transit was sent by the execution. -/
theorem isOfRun_of_mem (h : HearsInOrder start actions run) (hinterface : run.interface = .running)
    {message : Message} (hmem : message ∈ inTransit run) : message.isOfRun = true := by
  obtain ⟨script, -, -, -, hsent⟩ := h.heard
  have hmem' : message ∈ sentBy actions := by
    rw [← hsent hinterface]
    exact List.mem_append_right _ hmem
  obtain ⟨action, -, haction⟩ := List.mem_filterMap.mp hmem'
  cases action <;> simp at haction
  all_goals exact haction ▸ rfl

theorem executionResult_eq_none (h : HearsInOrder start actions run)
    (hexecution : run.execution = .executing) : run.executionResult = none := by
  have hphase := h.phase
  rw [hexecution] at hphase
  generalize run.executionResult = executionResult at hphase
  cases hphase
  rfl

/-- INTERNAL: the only message that the program can take. -/
theorem received_eq (h : HearsInOrder start actions run) {index : ℕ} {message : Message}
    (hmessage : run.received[index]? = some message) : run.received = [message] ∧ index = 0 ∧
      run.waiting = 0 ∧ run.model.completed = false := by
  have hreader := h.reader
  obtain ⟨hlt, hget⟩ := List.getElem?_eq_some_iff.mp hmessage
  have hlength : run.received.length = 1 ∧ run.waiting = 0 ∧ run.model.completed = false := by
    split_ifs at hreader with hcompleted
    · omega
    · exact ⟨by omega, by omega, Bool.eq_false_iff.mpr hcompleted⟩
  obtain ⟨hone, hwaiting, hcompleted⟩ := hlength
  obtain ⟨only, honly⟩ := List.length_eq_one_iff.mp hone
  have hindex : index = 0 := by omega
  subst hindex
  rw [honly] at hmessage ⊢
  exact ⟨by rw [← Option.some.inj hmessage], rfl, hwaiting, hcompleted⟩

/-- INTERNAL: where neither the model nor its commands change, only what is sent is left. -/
theorem of_sent (h : HearsInOrder start actions run) {action : TuiAction} (sent : List Message)
    (hsent : sentBy (actions ++ [action]) = sentBy actions ++ sent)
    (htyped : typedBy (actions ++ [action]) = typedBy actions)
    (hevents : ∃ events : List Event,
      sentBy (actions ++ [action]) = events.map .runnerEvent ++ finishedMessage next.executionResult)
    (hphase : PhaseFits next.execution next.executionResult) (hmodel : next.model = run.model)
    (hinterface : next.interface = .running → run.interface = .running)
    (htransit : run.interface = .running → inTransit next = inTransit run ++ sent)
    (hreader : next.waiting + next.received.length = run.waiting + run.received.length) :
    HearsInOrder start (actions ++ [action]) next := by
  obtain ⟨script, hscript, hterminal, hprefix, hequal⟩ := h.heard
  refine ⟨hevents, hphase, ⟨script, hmodel.trans hscript, htyped ▸ hterminal, ?_, ?_⟩, ?_, ?_⟩
  · rw [hsent]
    exact hprefix.trans (List.prefix_append _ _)
  · intro hrunning
    rw [htransit (hinterface hrunning), ← List.append_assoc, hequal (hinterface hrunning), hsent]
  · rw [hmodel]
    exact h.runtime
  · rw [hreader, h.reader, hmodel]

/-- INTERNAL: a command waits again behind an event, and for nothing else. -/
theorem waits_behind (run : TuiRun) (hevents : run.model.events = true) {message : Message}
    (hreader : message.isOfRun = true → run.waiting = 0 ∧ run.model.completed = false)
    (hwaiting : message.isOfRun = false →
      run.waiting + run.received.length = if run.model.completed then 0 else 1)
    (hnone : message.isOfRun = true → run.received = []) :
    (run.handled message).waiting + (run.handled message).received.length =
      if (run.handled message).model.completed then 0 else 1 := by
  have hanswer := update_answer run.model message
  have hcompleted := congrArg Prod.fst hanswer.told
  have hother : (∀ event, message ≠ .runnerEvent event) →
      (run.model.update message).command ≠ .waitForMessage := by
    intro hnot hcommand
    obtain ⟨event, hevent, -⟩ := hanswer.waits.mp hcommand
    exact hnot event hevent
  show run.waiting + (if (run.model.update message).command = .waitForMessage then 1 else 0) +
    run.received.length = if (run.model.update message).model.completed then 0 else 1
  have hsame : message.isOfRun = false →
      (run.model.update message).model.completed = run.model.completed := by
    intro hkind
    refine hcompleted.trans ?_
    cases message <;> first | rfl | cases hkind
  cases hkind : message.isOfRun with
  | false =>
    have hwaits := hother fun event hevent => by rw [hevent] at hkind; cases hkind
    rw [if_neg hwaits, hsame hkind]
    exact hwaiting hkind
  | true =>
    obtain ⟨hzero, hnot⟩ := hreader hkind
    rw [hzero, hnone hkind]
    cases message with
    | runnerEvent event =>
      rw [if_pos (hanswer.waits.mpr ⟨event, rfl, hevents, hnot⟩),
        show (run.model.update (.runnerEvent event)).model.completed = false from
          hcompleted.trans hnot]
      rfl
    | runFinished result err =>
      rw [if_neg (hother (by simp)),
        show (run.model.update (.runFinished result err)).model.completed = true from hcompleted]
      rfl
    | _ => cases hkind

/-- INTERNAL: a message that the console handles. -/
theorem handle (h : HearsInOrder start actions run) {action : TuiAction} {message : Message}
    (received : List Message) (hsent : sentBy (actions ++ [action]) = sentBy actions)
    (htyped : typedBy (actions ++ [action]) =
      typedBy actions ++ if message.isOfRun then [] else [message])
    (hinterface : run.interface = .running)
    (hreceived : run.received = (if message.isOfRun then [message] else []) ++ received)
    (hreader : message.isOfRun = true →
      received = [] ∧ run.waiting = 0 ∧ run.model.completed = false) :
    HearsInOrder start (actions ++ [action]) (({ run with received } : TuiRun).handled message) := by
  obtain ⟨script, hscript, hterminal, -, hequal⟩ := h.heard
  have hanswer := update_answer run.model message
  have hfilter : [message].filter (·.isOfRun) = if message.isOfRun then [message] else [] := by
    cases hkind : message.isOfRun <;> simp [hkind]
  have hequal' : (script ++ [message]).filter (·.isOfRun) ++
      inTransit (({ run with received } : TuiRun).handled message) = sentBy actions := by
    rw [← hequal hinterface, List.filter_append, hfilter, List.append_assoc]
    unfold inTransit
    rw [hreceived]
    simp only [List.append_assoc]
    rfl
  refine ⟨hsent ▸ h.sent, h.phase, ⟨script ++ [message], ?_, ?_, ?_, fun _ => ?_⟩, ?_, ?_⟩
  · rw [afterMessages_append, ← hscript]
    rfl
  · rw [htyped, List.filter_append, hterminal]
    cases hkind : message.isOfRun <;> simp [hkind]
  · rw [hsent, ← hequal']
    exact List.prefix_append _ _
  · rw [hsent]
    exact hequal'
  · exact ⟨hanswer.events.trans h.runtime.1, hanswer.cancel.trans h.runtime.2⟩
  · refine waits_behind { run with received } h.runtime.1 (fun hkind => (hreader hkind).2)
      (fun hkind => ?_) fun hkind => (hreader hkind).1
    have hold := h.reader
    rw [hreceived, hkind] at hold
    exact hold

/-- INTERNAL: an action of the program's that sends and handles nothing. -/
theorem of_silent (h : HearsInOrder start actions run) {action : TuiAction}
    (hsent : sentBy (actions ++ [action]) = sentBy actions)
    (htyped : typedBy (actions ++ [action]) = typedBy actions)
    (hexecution : next.execution = run.execution)
    (hresult : next.executionResult = run.executionResult) (hmodel : next.model = run.model)
    (hinterface : next.interface = .running → run.interface = .running)
    (htransit : next.received ++ next.events.items = run.received ++ run.events.items)
    (hreader : next.waiting + next.received.length = run.waiting + run.received.length) :
    HearsInOrder start (actions ++ [action]) next := by
  refine h.of_sent [] (by rw [hsent, List.append_nil]) htyped ?_ ?_ hmodel hinterface
    (fun _ => ?_) hreader
  · rw [hsent, hresult]
    exact h.sent
  · rw [hexecution, hresult]
    exact h.phase
  · rw [inTransit, htransit, hexecution, List.append_nil]
    rfl

/-- INTERNAL: what the execution was about to send is sent, or nobody hears it. -/
theorem of_behind (h : HearsInOrder start actions run) {action : TuiAction} {message : Message}
    (hsent : sentBy (actions ++ [action]) = sentBy actions)
    (htyped : typedBy (actions ++ [action]) = typedBy actions)
    (hexecution : run.execution = .sending message) (hbehind : next.execution = .behind message)
    (hresult : next.executionResult = run.executionResult) (hmodel : next.model = run.model)
    (hinterface : next.interface = run.interface) (hreceived : next.received = run.received)
    (hwaiting : next.waiting = run.waiting)
    (hitems : run.interface = .running → next.events.items = run.events.items ++ [message]) :
    HearsInOrder start (actions ++ [action]) next := by
  refine h.of_sent [] (by rw [hsent, List.append_nil]) htyped ?_ ?_ hmodel
    (fun hrunning => hinterface ▸ hrunning) (fun hrunning => ?_) (by rw [hwaiting, hreceived])
  · rw [hsent, hresult]
    exact h.sent
  · have hphase := h.phase
    rw [hexecution] at hphase
    rw [hbehind, hresult]
    generalize run.executionResult = executionResult at hphase
    cases hphase with
    | event event => exact .executing
    | result result err => exact .done (result, err)
  · rw [inTransit, inTransit, hreceived, hitems hrunning, hbehind, pendingSend_behind, hexecution]
    simp [pendingSend]

/-- **Every action keeps the messages in order.** -/
theorem step (h : HearsInOrder start actions run) {action : TuiAction}
    (hstep : run.step action = some next) : HearsInOrder start (actions ++ [action]) next := by
  cases tuiStep_of_step hstep with
  | @emit event hexecution hcancelled =>
    have hnone := h.executionResult_eq_none hexecution
    obtain ⟨events, hevents⟩ := h.sent
    rw [hnone] at hevents
    refine h.of_sent [.runnerEvent event] (by simp [sentBy]) (by simp [typedBy])
      ⟨events ++ [event], ?_⟩ (by simp only [hnone]; exact .event event) rfl id (fun _ => ?_) rfl
    · rw [show sentBy (actions ++ [.emit event]) = sentBy actions ++ [.runnerEvent event] by
        simp [sentBy], hevents]
      simp [finishedMessage, hnone]
    · simp [inTransit, pendingSend, hexecution]
  | @finishRun result err hexecution =>
    have hnone := h.executionResult_eq_none hexecution
    obtain ⟨events, hevents⟩ := h.sent
    rw [hnone] at hevents
    refine h.of_sent [.runFinished result err] (by simp [sentBy]) (by simp [typedBy])
      ⟨events, ?_⟩ (.result result err) rfl id (fun _ => ?_) rfl
    · rw [show sentBy (actions ++ [.finishRun result err]) =
        sentBy actions ++ [.runFinished result err] by simp [sentBy], hevents]
      simp [finishedMessage]
    · simp [inTransit, pendingSend, hexecution]
  | send hexecution hsend =>
    exact h.of_behind (by simp [sentBy]) (by simp [typedBy]) hexecution rfl rfl rfl rfl rfl rfl
      fun _ => Channel.send?_items hsend
  | drop hexecution hinterface =>
    exact h.of_behind (by simp [sentBy]) (by simp [typedBy]) hexecution rfl rfl rfl rfl rfl rfl
      fun hrunning => absurd hrunning hinterface
  | receive hwaiting hreceive =>
    refine h.of_silent (by simp [sentBy]) (by simp [typedBy]) rfl rfl rfl id ?_ ?_
    · simp [Channel.receive?_items hreceive]
    · simp only [List.length_append, List.length_singleton]
      omega
  | @take index message hinterface hmessage =>
    obtain ⟨hreceived, rfl, hwaiting, hcompleted⟩ := h.received_eq hmessage
    have hkind : message.isOfRun = true := by
      refine h.isOfRun_of_mem hinterface ?_
      simp [inTransit, hreceived]
    refine h.handle (run.received.eraseIdx 0) (by simp [sentBy]) (by simp [typedBy, hkind])
      hinterface ?_ fun _ => ?_
    · simp [hreceived, hkind]
    · exact ⟨by rw [hreceived]; rfl, hwaiting, hcompleted⟩
  | @terminal message hinterface hterminal =>
    exact h.handle run.received (by simp [sentBy]) (by simp [typedBy, hterminal])
      hinterface (by simp [hterminal]) fun hkind => by rw [hterminal] at hkind; cases hkind
  | quit hinterface hquitting =>
    exact h.of_silent (by simp [sentBy]) (by simp [typedBy]) rfl rfl rfl nofun rfl rfl
  | endedBySignal hinterface =>
    exact h.of_silent (by simp [sentBy]) (by simp [typedBy]) rfl rfl rfl nofun rfl rfl
  | interfaceFails hinterface =>
    exact h.of_silent (by simp [sentBy]) (by simp [typedBy]) rfl rfl rfl nofun rfl rfl
  | cancelParent =>
    exact h.of_silent (by simp [sentBy]) (by simp [typedBy]) rfl rfl rfl id rfl rfl

/-- A console that was told of the end has heard everything that was sent. -/
theorem heardAll (h : HearsInOrder start actions run) (hstart : told start = (false, none, none))
    (hcompleted : run.model.completed = true) :
    ∃ result err, HeardAll start actions run result err := by
  obtain ⟨script, hscript, hterminal, hprefix, hequal⟩ := h.heard
  obtain ⟨events, hevents⟩ := h.sent
  have htold : told run.model = (script.filter (·.isOfRun)).foldl tell (false, none, none) := by
    rw [hscript, told_afterMessages, hstart]
  -- Events alone tell the console nothing of the end.
  have hnothing : ∀ sent : List Message, sent <+: events.map .runnerEvent →
      sent.foldl tell (false, none, none) = (false, none, none) := by
    rintro sent ⟨rest, hrest⟩
    obtain ⟨front, behind, -, rfl, -⟩ := List.append_eq_map_iff.mp hrest
    clear hrest
    induction front with
    | nil => rfl
    | cons event front ih => exact ih
  have hnot : ¬ script.filter (·.isOfRun) <+: events.map .runnerEvent := by
    intro honly
    rw [hnothing _ honly] at htold
    have hopen : run.model.completed = false := congrArg Prod.fst htold
    rw [hopen] at hcompleted
    cases hcompleted
  cases hresult : run.executionResult with
  | none =>
    rw [hevents, hresult, finishedMessage, Option.map_none, Option.toList_none,
      List.append_nil] at hprefix
    exact absurd hprefix hnot
  | some pair =>
    obtain ⟨result, err⟩ := pair
    have hsent : sentBy actions = events.map .runnerEvent ++ [.runFinished result err] := by
      rw [hevents, hresult]
      rfl
    rw [hsent] at hprefix
    have hall := (List.prefix_concat_iff.mp hprefix).resolve_right hnot
    refine ⟨result, err, ⟨script, hscript, hterminal, hall.trans hsent.symm⟩, ⟨events, hsent⟩,
      hresult, ?_, fun hrunning => ?_⟩
    · rw [htold, hall, List.foldl_append, hnothing _ (List.prefix_refl _)]
      rfl
    · have hrest := hequal hrunning
      rw [hsent, hall] at hrest
      exact List.append_right_eq_self.mp hrest

/-- So the execution is done. -/
theorem done (h : HearsInOrder start actions run) (hstart : told start = (false, none, none))
    (hinterface : run.interface = .running) (hcompleted : run.model.completed = true) :
    run.execution = .done := by
  obtain ⟨result, err, hall⟩ := h.heardAll hstart hcompleted
  have hphase := h.phase
  rw [hall.executionResult] at hphase
  have hnothing : pendingSend run.execution = [] := by
    have htransit := hall.transit hinterface
    rw [inTransit, List.append_eq_nil_iff] at htransit
    exact htransit.2
  generalize run.execution = execution at hphase hnothing
  cases hphase with
  | result => cases hnothing
  | done => rfl

end HearsInOrder

/-- The messages are in order behind every interactive run. -/
theorem hearsInOrder_run {plan : List Stage.Task} {runID : GoString} {actions : List TuiAction}
    {run : TuiRun} (h : Transitions.run TuiRun.step (startTui plan runID) actions = some run) :
    HearsInOrder (newTeaModel plan runID true true) actions run :=
  Transitions.run_history (J := HearsInOrder (newTeaModel plan runID true true))
    (hearsInOrder_start plan runID) (fun _ _ _ _ _ hrun hstep => hrun.step hstep) h

/-- An event is sent and taken, and the user presses a key in front of it. -/
def sampleActions : List TuiAction :=
  [.emit { kind := .runStarted }, .terminal (.keyPress (.ascii "q")), .send, .receive, .take 0,
    .emit { kind := .cancellationRequested }, .send,
    .finishRun { runID := [], status := some .cancelled, duration := 0, stages := [] } none,
    .receive, .send, .take 0, .receive, .take 0, .terminal (.keyPress (.ascii "enter")), .quit]

/-- The console quits behind the end of the run, which is the last that it hears. -/
structure Settled (actions : List TuiAction) (run : TuiRun) : Prop where
  done : run.model.completed = true → run.execution = .done
  quits : run.quitting = true → run.model.completed = true
  ended : run.interface = .ended → .endedBySignal ∉ actions → run.model.completed = true
  failed : ∀ cause, run.interface = .failed cause → .interfaceFails cause ∈ actions

theorem completed_handled {run : TuiRun} (message : Message) (h : run.model.completed = true) :
    (run.handled message).model.completed = true := by
  have htold := congrArg Prod.fst (update_answer run.model message).told
  refine htold.trans ?_
  cases message <;> first | exact h | rfl

namespace Settled

variable {actions : List TuiAction} {run next : TuiRun}

/-- INTERNAL: an action that changes neither the model nor the program. -/
theorem of_same (h : Settled actions run) {action : TuiAction} (hmodel : next.model = run.model)
    (hquitting : next.quitting = run.quitting) (hinterface : next.interface = run.interface)
    (hdone : run.execution = .done → next.execution = .done) :
    Settled (actions ++ [action]) next where
  done hcompleted := hdone (h.done (hmodel ▸ hcompleted))
  quits := by
    rw [hquitting, hmodel]
    exact h.quits
  ended hended hsignal := by
    rw [hmodel]
    exact h.ended (hinterface ▸ hended) fun hmem => hsignal (List.mem_append_left _ hmem)
  failed cause hfailed := List.mem_append_left _ (h.failed cause (hinterface ▸ hfailed))

/-- INTERNAL: a message that the console handles. -/
theorem of_handled (h : Settled actions run) {action : TuiAction} {message : Message}
    (hinterface : run.interface = .running)
    (hdone : (run.handled message).model.completed = true → run.execution = .done) :
    Settled (actions ++ [action]) (run.handled message) where
  done := hdone
  quits hquitting := by
    rcases Bool.or_eq_true_iff.mp hquitting with hbefore | hquit
    · exact completed_handled message (h.quits hbefore)
    · exact (update_answer run.model message).quits (of_decide_eq_true hquit)
  ended hended := by
    have hrunning : (run.handled message).interface = .running := hinterface
    rw [hrunning] at hended
    cases hended
  failed cause hfailed := by
    have hrunning : (run.handled message).interface = .running := hinterface
    rw [hrunning] at hfailed
    cases hfailed

/-- **Every action keeps the order of the end.** -/
theorem step {start : TeaModel} (hstart : told start = (false, none, none))
    (horder : HearsInOrder start actions run) (h : Settled actions run) {action : TuiAction}
    (hstep : run.step action = some next) : Settled (actions ++ [action]) next := by
  have hafter := horder.step hstep
  cases tuiStep_of_step hstep with
  | emit hexecution =>
    exact h.of_same rfl rfl rfl fun hdone => by rw [hexecution] at hdone; cases hdone
  | finishRun hexecution =>
    exact h.of_same rfl rfl rfl fun hdone => by rw [hexecution] at hdone; cases hdone
  | send hexecution =>
    exact h.of_same rfl rfl rfl fun hdone => by rw [hexecution] at hdone; cases hdone
  | drop hexecution =>
    exact h.of_same rfl rfl rfl fun hdone => by rw [hexecution] at hdone; cases hdone
  | receive => exact h.of_same rfl rfl rfl id
  | take hinterface =>
    refine of_handled ?_ hinterface fun hcompleted => hafter.done hstart hinterface hcompleted
    exact ⟨h.done, h.quits, h.ended, h.failed⟩
  | terminal hinterface =>
    exact h.of_handled hinterface fun hcompleted => hafter.done hstart hinterface hcompleted
  | quit hinterface hquitting =>
    exact ⟨h.done, h.quits, fun _ _ => h.quits hquitting, nofun⟩
  | endedBySignal hinterface =>
    exact ⟨h.done, h.quits, fun _ hsignal => absurd (by simp) hsignal, nofun⟩
  | interfaceFails hinterface =>
    refine ⟨h.done, h.quits, nofun, fun cause hfailed => ?_⟩
    obtain rfl := InterfacePhase.failed.inj hfailed
    simp
  | cancelParent => exact h.of_same rfl rfl rfl id

end Settled

theorem told_newTeaModel (plan : List Stage.Task) (runID : GoString) (events cancel : Bool) :
    told (newTeaModel plan runID events cancel) = (false, none, none) := rfl

theorem settled_start (plan : List Stage.Task) (runID : GoString) :
    Settled [] (startTui plan runID) where
  done hcompleted := Bool.noConfusion (show false = true from hcompleted)
  quits hquitting := Bool.noConfusion (show false = true from hquitting)
  ended hended := InterfacePhase.noConfusion (show InterfacePhase.running = .ended from hended)
  failed cause hfailed :=
    InterfacePhase.noConfusion (show InterfacePhase.running = .failed cause from hfailed)

/-- INTERNAL: a console that was not told of the end has no result. -/
theorem foldl_tell (messages : List Message) (before : Bool × Option FinishedRun × Option GoString) :
    messages.foldl tell before = before ∨ (messages.foldl tell before).1 = true := by
  induction messages using List.reverseRecOn with
  | nil => exact .inl rfl
  | append_singleton messages message ih =>
    rw [List.foldl_append, List.foldl_cons, List.foldl_nil]
    cases message with
    | runFinished result err => exact .inr rfl
    | _ => exact ih

theorem settled_run {plan : List Stage.Task} {runID : GoString} {actions : List TuiAction}
    {run : TuiRun} (h : Transitions.run TuiRun.step (startTui plan runID) actions = some run) :
    Settled actions run := by
  refine Transitions.run_history (J := Settled) (settled_start plan runID) ?_ h
  exact fun front middle action after hfront hmiddle hstep =>
    hmiddle.step (told_newTeaModel plan runID true true) (hearsInOrder_run hfront) hstep

/-- What an interactive run returns: what its execution returned, all of it heard by the console,
or that with the program's error; or nothing, where a signal ended the program in front of the end
of the run. -/
inductive TuiReturns (start : TeaModel) (actions : List TuiAction) (run : TuiRun)
    (result : FinishedRun) (err : Option GoString) : Option FinishedRun × Option GoString → Prop
  | heard (hall : HeardAll start actions run result err) :
      TuiReturns start actions run result err (some result, err)
  | failed {cause : GoString} (hfails : .interfaceFails cause ∈ actions) :
      TuiReturns start actions run result err
        (some result, some (GoString.ascii "run terminal interface: " ++ cause))
  | signal (hsignal : .endedBySignal ∈ actions) (hopen : run.model.completed = false) :
      TuiReturns start actions run result err (none, none)

theorem finishRun_mem_of_mem_sentBy {actions : List TuiAction} {result : FinishedRun}
    {err : Option GoString} (h : .runFinished result err ∈ sentBy actions) :
    .finishRun result err ∈ actions := by
  obtain ⟨action, hmem, haction⟩ := List.mem_filterMap.mp h
  cases action <;> simp at haction
  obtain ⟨rfl, rfl⟩ := haction
  exact hmem

/-- **An interactive run returns what its execution returned.** -/
theorem tui_returns {plan : List Stage.Task} {runID : GoString} {actions : List TuiAction}
    {run : TuiRun} (h : Transitions.run TuiRun.step (startTui plan runID) actions = some run)
    {returned : Option FinishedRun × Option GoString} (hreturned : run.returned = some returned) :
    ∃ result err, .finishRun result err ∈ actions ∧
      TuiReturns (newTeaModel plan runID true true) actions run result err returned := by
  have horder := hearsInOrder_run h
  have hsettled := settled_run h
  obtain ⟨events, hsent⟩ := horder.sent
  have hphase := horder.phase
  have hdone : run.execution = .done := by
    unfold TuiRun.returned at hreturned
    cases hinterface : run.interface <;> cases hexecution : run.execution <;>
      simp [hinterface, hexecution] at hreturned
    all_goals rfl
  rw [hdone] at hphase
  generalize hresult : run.executionResult = executionResult at hphase
  cases hphase with
  | done pair =>
    obtain ⟨result, err⟩ := pair
    have hmem : .finishRun result err ∈ actions := by
      refine finishRun_mem_of_mem_sentBy ?_
      rw [hsent, hresult]
      simp [finishedMessage]
    refine ⟨result, err, hmem, ?_⟩
    unfold TuiRun.returned at hreturned
    cases hinterface : run.interface with
    | running => simp [hinterface] at hreturned
    | failed cause =>
      simp only [hinterface, hdone, hresult] at hreturned
      exact Option.some.inj hreturned ▸ .failed (hsettled.failed cause hinterface)
    | ended =>
      simp only [hinterface, hdone] at hreturned
      obtain rfl := Option.some.inj hreturned
      by_cases hcompleted : run.model.completed = true
      · obtain ⟨result', err', hall⟩ :=
          horder.heardAll (told_newTeaModel plan runID true true) hcompleted
        obtain ⟨rfl, rfl⟩ := Prod.mk.inj (Option.some.inj (hresult.symm.trans hall.executionResult))
        have hmodel : (run.model.result, run.model.runError) = (some result, err) :=
          congrArg Prod.snd hall.told
        rw [hmodel]
        exact .heard hall
      · have hsignal : .endedBySignal ∈ actions := by
          by_contra hnot
          exact hcompleted (hsettled.ended hinterface hnot)
        obtain ⟨script, hscript, -⟩ := horder.heard
        have htold : told run.model = (false, none, none) := by
          rw [hscript, told_afterMessages, told_newTeaModel]
          refine (foldl_tell _ _).resolve_right fun htrue => hcompleted ?_
          rw [hscript]
          rw [← told_newTeaModel plan runID true true, ← told_afterMessages] at htrue
          exact htrue
        have hmodel : (run.model.result, run.model.runError) = (none, none) :=
          congrArg Prod.snd htold
        rw [hmodel]
        exact .signal hsignal (Bool.eq_false_iff.mpr hcompleted)

theorem tui_returns_sample : ∃ run, ∃ returned : Option FinishedRun × Option GoString,
    Transitions.run TuiRun.step (startTui [] []) sampleActions = some run ∧
    run.returned = some returned ∧ ∃ result err, .finishRun result err ∈ sampleActions ∧
      TuiReturns (newTeaModel [] [] true true) sampleActions run result err returned :=
  ⟨_, _, rfl, rfl, tui_returns
    (show Transitions.run TuiRun.step (startTui [] []) sampleActions = some _ from rfl) rfl⟩

end Tickline.Analysis
