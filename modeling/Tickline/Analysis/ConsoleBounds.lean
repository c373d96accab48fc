import Tickline.Analysis.StageLogs
import Tickline.Model.ConsoleUpdate

/-!
# The bounds of the console

Every message leaves the console with a valid selection and a size (`TeaInvariant.update`), and the
logs are what the output that was handed to it says (`stageLog_run`).  A log that is cut in the
middle of a character becomes longer than its bound, so the logs of a run stay within it exactly
when each message cuts them between two characters (`console_bounds_iff`).
-/

set_option autoImplicit false

namespace Tickline.Analysis

open Tickline.Library Tickline.Model
open Tickline.Model.Console
open Tickline.Model.Stage (Event)

/-- The model behind messages. -/
def afterMessages (model : TeaModel) (messages : List Message) : TeaModel :=
  messages.foldl (fun model message => (model.update message).model) model

/-- What is to be shown of a stage for a message. -/
def chunkOf (stageID : GoString) : Message → List UInt8
  | .runnerEvent event =>
    if event.kind = .stageOutput ∧ event.stageID = stageID then sanitizeTerminalOutput event.data
    else []
  | _ => []

/-! ## One message -/

/-- What holds of a console that was started for a plan. -/
structure TeaInvariant (plan : List Stage.Task) (runID : GoString) (model : TeaModel) : Prop where
  stageIndex : model.stageIndex = (newModel plan runID).stageIndex
  stages : model.stages.length = plan.length
  selected : model.selected < max plan.length 1
  size : 1 ≤ model.width ∧ 1 ≤ model.height

theorem teaInvariant_new (plan : List Stage.Task) (runID : GoString) (events cancel : Bool) :
    TeaInvariant plan runID (newTeaModel plan runID events cancel) where
  stageIndex := rfl
  stages := List.length_map _
  selected := lt_max_iff.mpr (Or.inr Nat.zero_lt_one)
  size := ⟨show (1 : ℤ) ≤ 100 by decide, show (1 : ℤ) ≤ 30 by decide⟩

theorem previousIndex_lt (current length : ℕ) (h : current < max length 1) :
    previousIndex current length < max length 1 := by
  unfold previousIndex
  split_ifs <;> omega

theorem nextIndex_lt (current length : ℕ) : nextIndex current length < max length 1 := by
  unfold nextIndex
  split_ifs <;> omega

theorem requestCancellation_eq (model : TeaModel) :
    ∃ cancelling, model.requestCancellation.model = { model with cancelling } := by
  unfold TeaModel.requestCancellation
  split_ifs
  · exact ⟨model.cancelling, rfl⟩
  · exact ⟨true, rfl⟩

/-- A key moves the selection and may cancel the run, and changes nothing else. -/
theorem pressKey_eq (model : TeaModel) (key : GoString) :
    ∃ selected cancelling, (model.pressKey key).model = { model with selected, cancelling } ∧
      (model.selected < max model.stages.length 1 → selected < max model.stages.length 1) := by
  have hcancel : ∃ selected cancelling, model.requestCancellation.model =
      { model with selected, cancelling } ∧
        (model.selected < max model.stages.length 1 → selected < max model.stages.length 1) := by
    obtain ⟨cancelling, hmodel⟩ := requestCancellation_eq model
    exact ⟨model.selected, cancelling, hmodel, id⟩
  unfold TeaModel.pressKey
  split_ifs with hup hdown hhome hsome hend hsome' hquit hcompleted
  · exact ⟨_, model.cancelling, rfl, previousIndex_lt _ _⟩
  · exact ⟨_, model.cancelling, rfl, fun _ => nextIndex_lt _ _⟩
  · exact ⟨0, model.cancelling, rfl, fun _ => by omega⟩
  · exact ⟨model.selected, model.cancelling, rfl, id⟩
  · exact ⟨model.stages.length - 1, model.cancelling, rfl, fun _ => by omega⟩
  · exact ⟨model.selected, model.cancelling, rfl, id⟩
  · exact ⟨model.selected, model.cancelling, rfl, id⟩
  · exact hcancel
  · exact hcancel
  · exact ⟨model.selected, model.cancelling, rfl, id⟩
  · exact ⟨model.selected, model.cancelling, rfl, id⟩
  · exact ⟨model.selected, model.cancelling, rfl, id⟩

/-- An event keeps the stages, and selects one that the model has. -/
theorem applyRunnerEvent_selected (model : ConsoleModel) (event : Event) :
    (model.applyRunnerEvent event).stages.length = model.stages.length ∧
      ((model.applyRunnerEvent event).selected = model.selected ∨
        model.stageIndex event.stageID = some (model.applyRunnerEvent event).selected) := by
  unfold ConsoleModel.applyRunnerEvent
  cases hindex : model.stageIndex event.stageID with
  | none => cases event.kind <;> exact ⟨rfl, Or.inl rfl⟩
  | some index =>
    cases event.kind with
    | stageStarted => exact ⟨List.length_modify _ _ _, Or.inr rfl⟩
    | stageFinished | stageSkipped => exact ⟨List.length_modify _ _ _, Or.inl rfl⟩
    | stageOutput =>
      dsimp only
      unfold ConsoleModel.appendStageOutput
      dsimp only
      split_ifs <;> exact ⟨rfl, Or.inl rfl⟩
    | _ => exact ⟨rfl, Or.inl rfl⟩

/-- **Every message keeps the selection and the size.** -/
theorem TeaInvariant.update {plan : List Stage.Task} {runID : GoString} {model : TeaModel}
    (hdistinct : (plan.map (·.id)).Nodup) (h : TeaInvariant plan runID model) (message : Message) :
    TeaInvariant plan runID (model.update message).model := by
  cases message with
  | windowSize width height =>
    exact ⟨h.stageIndex, h.stages, h.selected, le_max_right _ _, le_max_right _ _⟩
  | keyPress key =>
    obtain ⟨selected, cancelling, hmodel, hselected⟩ := pressKey_eq model key
    show TeaInvariant plan runID (model.pressKey key).model
    rw [hmodel]
    rw [h.stages] at hselected
    exact ⟨h.stageIndex, h.stages, hselected h.selected, h.size⟩
  | runnerEvent event =>
    obtain ⟨hstages, hselected⟩ := applyRunnerEvent_selected model.toConsoleModel event
    refine ⟨(applyRunnerEvent_stageIndex _ event).trans h.stageIndex, hstages.trans h.stages, ?_,
      h.size⟩
    show (model.toConsoleModel.applyRunnerEvent event).selected < _
    rcases hselected with hsame | hindex
    · rw [hsame]
      exact h.selected
    · rw [h.stageIndex] at hindex
      obtain ⟨stage, hstage, -⟩ := (newModel_indexed hdistinct runID _ _).mp hindex
      obtain ⟨hlt, -⟩ := List.getElem?_eq_some_iff.mp hstage
      exact lt_max_iff.mpr (Or.inl (by simpa [newModel] using hlt))
  | runFinished result err =>
    unfold TeaModel.update
    dsimp only
    split_ifs
    · exact ⟨h.stageIndex, h.stages, h.selected, h.size⟩
    · exact ⟨h.stageIndex, h.stages, h.selected, h.size⟩
  | other => exact h

/-! ## The logs -/

/-- Only events change the logs. -/
theorem update_logs (model : TeaModel) (message : Message) :
    (∃ event, message = .runnerEvent event ∧ (model.update message).model.toConsoleModel =
        model.toConsoleModel.applyRunnerEvent event) ∨
      (∀ event, message ≠ .runnerEvent event) ∧
        (model.update message).model.logs = model.logs ∧
        (model.update message).model.logTruncated = model.logTruncated := by
  cases message with
  | windowSize width height => exact Or.inr ⟨by simp, rfl, rfl⟩
  | keyPress key =>
    obtain ⟨selected, cancelling, hmodel, -⟩ := pressKey_eq model key
    refine Or.inr ⟨by simp, ?_⟩
    show (model.pressKey key).model.logs = _ ∧ (model.pressKey key).model.logTruncated = _
    rw [hmodel]
    exact ⟨rfl, rfl⟩
  | runnerEvent event => exact Or.inl ⟨event, rfl, rfl⟩
  | runFinished result err =>
    refine Or.inr ⟨by simp, ?_⟩
    unfold TeaModel.update
    dsimp only
    split_ifs <;> exact ⟨rfl, rfl⟩
  | other => exact Or.inr ⟨by simp, rfl, rfl⟩

theorem chunkOf_eq_nil {message : Message} (h : ∀ event, message ≠ .runnerEvent event)
    (stageID : GoString) : chunkOf stageID message = [] := by
  cases message with
  | runnerEvent event => exact absurd rfl (h event)
  | _ => rfl

theorem chunkOf_runnerEvent {model : ConsoleModel} {stageID : GoString}
    (hknown : (model.stageIndex stageID).isSome) (event : Event) :
    chunkOf stageID (.runnerEvent event) = shownOutput model stageID event := by
  refine if_congr ?_ rfl rfl
  rw [AddsOutput, iff_comm]
  simp [hknown]

theorem StageLog.update {plan : List Stage.Task} {runID : GoString} {model : TeaModel}
    {stageID : GoString} {shown : List UInt8} (hmodel : TeaInvariant plan runID model)
    (hknown : ((newModel plan runID).stageIndex stageID).isSome)
    (h : StageLog shown (model.logs stageID) (model.logTruncated stageID)) (message : Message) :
    StageLog (shown ++ chunkOf stageID message) ((model.update message).model.logs stageID)
      ((model.update message).model.logTruncated stageID) := by
  rcases update_logs model message with ⟨event, rfl, hevent⟩ | ⟨hnot, hlogs, htruncated⟩
  · rw [← hmodel.stageIndex] at hknown
    rw [chunkOf_runnerEvent hknown, hevent]
    exact h.applyRunnerEvent event
  · rw [chunkOf_eq_nil hnot, hlogs, htruncated, List.append_nil]
    exact h

/-- A log that was cut stays one. -/
theorem truncated_update (model : TeaModel) (message : Message) {stageID : GoString}
    (h : model.logTruncated stageID = true) :
    (model.update message).model.logTruncated stageID = true := by
  rcases update_logs model message with ⟨event, rfl, hevent⟩ | ⟨-, -, htruncated⟩
  · rw [hevent]
    rcases applyRunnerEvent_log model.toConsoleModel stageID event with ⟨-, -, hlog⟩ | ⟨-, -, hlog⟩
    · rw [hlog, h, appendedTruncated]
      split_ifs <;> rfl
    · rw [hlog, h]
  · rw [htruncated, h]

/-- A message cuts a log that it makes too long between two characters. -/
def FitsLogs (plan : List Stage.Task) (model : TeaModel) : Message → Prop
  | .runnerEvent event => ∀ current ∈ plan, event.kind = .stageOutput →
      event.stageID = current.id → CutsBetween (model.logs current.id) event.data
  | _ => True

/-- The logs of the stages have their bound. -/
def Bounded (plan : List Stage.Task) (model : TeaModel) : Prop :=
  ∀ current ∈ plan, (model.logs current.id).length ≤ maxStageLogBytes

section Run

variable {plan : List Stage.Task} {runID : GoString} {events cancel : Bool}

theorem bounded_update_iff {model : TeaModel} (hdistinct : (plan.map (·.id)).Nodup)
    (hmodel : TeaInvariant plan runID model)
    (hvalid : ∀ current ∈ plan, Unicode.Valid (model.logs current.id)) (h : Bounded plan model)
    (message : Message) :
    Bounded plan (model.update message).model ↔ FitsLogs plan model message := by
  rcases update_logs model message with ⟨event, rfl, hevent⟩ | ⟨hnot, hlogs, -⟩
  · rw [Bounded, hevent]
    refine forall_congr' fun current => forall_congr' fun hcurrent => ?_
    have hknown := stageIndex_isSome hcurrent hdistinct runID
    rw [← hmodel.stageIndex] at hknown
    rcases applyRunnerEvent_log model.toConsoleModel current.id event with
      ⟨⟨hkind, hid, -⟩, hlog, -⟩ | ⟨hnot, hlog, -⟩
    · rw [hlog, length_append_le_iff (hvalid current hcurrent) (h current hcurrent),
        imp_iff_right hkind, imp_iff_right hid]
    · rw [hlog]
      exact iff_of_true (h current hcurrent) fun hkind hid => absurd ⟨hkind, hid, hknown⟩ hnot
  · have hfits : FitsLogs plan model message := by
      cases message with
      | runnerEvent event => exact absurd rfl (hnot event)
      | _ => trivial
    rw [Bounded, hlogs]
    exact iff_of_true h hfits

theorem afterMessages_append (model : TeaModel) (front back : List Message) :
    afterMessages model (front ++ back) = afterMessages (afterMessages model front) back :=
  List.foldl_append

theorem teaInvariant_run {model : TeaModel} (hdistinct : (plan.map (·.id)).Nodup)
    (h : TeaInvariant plan runID model) (messages : List Message) :
    TeaInvariant plan runID (afterMessages model messages) := by
  induction messages generalizing model with
  | nil => exact h
  | cons message messages ih => exact ih (h.update hdistinct message)

theorem stageLog_run {model : TeaModel} {stageID : GoString} {shown : List UInt8}
    (hdistinct : (plan.map (·.id)).Nodup) (hmodel : TeaInvariant plan runID model)
    (hknown : ((newModel plan runID).stageIndex stageID).isSome)
    (h : StageLog shown (model.logs stageID) (model.logTruncated stageID))
    (messages : List Message) :
    StageLog (shown ++ messages.flatMap (chunkOf stageID))
      ((afterMessages model messages).logs stageID)
      ((afterMessages model messages).logTruncated stageID) := by
  induction messages generalizing model shown with
  | nil =>
    rw [List.flatMap_nil, List.append_nil]
    exact h
  | cons message messages ih =>
    have hrest := ih (hmodel.update hdistinct message) (h.update hmodel hknown message)
    rwa [List.append_assoc] at hrest

theorem truncated_run {model : TeaModel} (messages : List Message) {stageID : GoString}
    (h : model.logTruncated stageID = true) :
    (afterMessages model messages).logTruncated stageID = true := by
  induction messages generalizing model with
  | nil => exact h
  | cons message messages ih => exact ih (truncated_update model message h)

/-- **What a console keeps**, but for the bound of its logs. -/
structure ConsoleKeeps (plan : List Stage.Task) (messages : List Message) (model : TeaModel) :
    Prop where
  valid : ∀ current ∈ plan, Unicode.Valid (model.logs current.id)
  whole : ∀ current ∈ plan, model.logTruncated current.id = false →
    model.logs current.id = messages.flatMap (chunkOf current.id)
  selected : if plan = [] then model.selected = 0 else model.selected < plan.length
  size : 1 ≤ model.width ∧ 1 ≤ model.height

/-- **Every run of messages** leaves the console with what it keeps. -/
theorem consoleKeeps_run (hdistinct : (plan.map (·.id)).Nodup) (messages : List Message) :
    ConsoleKeeps plan messages (afterMessages (newTeaModel plan runID events cancel) messages) := by
  have hnew := teaInvariant_new plan runID events cancel
  have hmodel := teaInvariant_run hdistinct hnew messages
  have hlog : ∀ current ∈ plan, StageLog (messages.flatMap (chunkOf current.id))
      ((afterMessages (newTeaModel plan runID events cancel) messages).logs current.id)
      ((afterMessages (newTeaModel plan runID events cancel) messages).logTruncated current.id) :=
    fun current hcurrent =>
      stageLog_run hdistinct hnew (stageIndex_isSome hcurrent hdistinct runID) stageLog_nil messages
  have hselected := hmodel.selected
  refine ⟨fun current hcurrent => (hlog current hcurrent).valid, fun current hcurrent hnot =>
    ((hlog current hcurrent).whole hnot).1, ?_, hmodel.size⟩
  split_ifs with hplan
  · have hzero : plan.length = 0 := List.length_eq_zero_iff.mpr hplan
    omega
  · have hpos := List.length_pos_iff.mpr hplan
    omega

/-- **The bounds of the console**: for every plan of distinct stages and every run of messages, the
logs are valid and whole unless they were cut, a log that was cut stays one, the selection and the
size are what they have to be, and the logs keep their bound in every state of the run exactly where
each message cuts a log that it makes too long between two characters.
SRC: tui/model.go:63-94, 110-335, sanitize.go:8-70 -/
theorem console_bounds_iff (hdistinct : (plan.map (·.id)).Nodup) (messages : List Message) :
    (∀ front back, messages = front ++ back →
      let model := afterMessages (newTeaModel plan runID events cancel) front
      ConsoleKeeps plan front model ∧ Bounded plan model ∧
        ∀ stageID, model.logTruncated stageID = true →
          (afterMessages model back).logTruncated stageID = true) ↔
      ∀ front message back, messages = front ++ message :: back →
        FitsLogs plan (afterMessages (newTeaModel plan runID events cancel) front) message := by
  have hnew := teaInvariant_new plan runID events cancel
  have hstep : ∀ front message,
      Bounded plan (afterMessages (newTeaModel plan runID events cancel) front) →
      (Bounded plan (afterMessages (newTeaModel plan runID events cancel) (front ++ [message])) ↔
        FitsLogs plan (afterMessages (newTeaModel plan runID events cancel) front) message) := by
    intro front message hbounded
    rw [afterMessages_append]
    exact bounded_update_iff hdistinct (teaInvariant_run hdistinct hnew front)
      (consoleKeeps_run hdistinct front).valid hbounded message
  constructor
  · rintro h front message back rfl
    refine (hstep front message (h front _ rfl).2.1).mp ?_
    exact (h (front ++ [message]) back (by simp)).2.1
  · rintro h front back rfl
    refine ⟨consoleKeeps_run hdistinct front, ?_, fun stageID => truncated_run back⟩
    induction front using List.reverseRecOn generalizing back with
    | nil => exact fun current _ => Nat.zero_le _
    | append_singleton front message ih =>
      have hbounded := ih (message :: back) fun front' message' back' heq =>
        h front' message' back' (by rw [List.append_assoc, ← heq]; rfl)
      exact (hstep front message hbounded).mpr (h front message back (by simp))

end Run

/-- A console that is resized and moved. -/
theorem console_bounds_moved :
    (∀ front back, [Message.windowSize 0 0, .keyPress (.ascii "k")] = front ++ back →
      let model := afterMessages (newTeaModel [docsStage] [] true true) front
      ConsoleKeeps [docsStage] front model ∧ Bounded [docsStage] model ∧
        ∀ stageID, model.logTruncated stageID = true →
          (afterMessages model back).logTruncated stageID = true) ↔
      ∀ front message back,
        [Message.windowSize 0 0, .keyPress (.ascii "k")] = front ++ message :: back →
          FitsLogs [docsStage] (afterMessages (newTeaModel [docsStage] [] true true) front) message :=
  console_bounds_iff (by decide) _

/-- A read of a character of two bytes and so many letters, and then reads of letters. -/
def accentedReads (letters reads size : ℕ) : List (List UInt8) :=
  (0xc3 :: 0xa9 :: List.replicate letters 0x61) :: List.replicate reads (List.replicate size 0x61)

/-- A message for a read. -/
def readMessage (data : List UInt8) : Message :=
  .runnerEvent (Stage.stageOutput docsStage { stream := .stdout, data })

theorem plain_accented (letters reads size : ℕ) : ∀ data ∈ accentedReads letters reads size,
    (∀ b ∈ data, 0x20 ≤ b ∧ b ≠ 0x7f) ∧ Unicode.Valid data := by
  have hletters : ∀ n, Unicode.Valid (List.replicate n 0x61) := by
    intro n
    induction n with
    | zero => decide
    | succ n ih =>
      have hletter : Unicode.Valid [0x61] := by decide
      exact hletter.append ih
  have haccent : Unicode.Valid [0xc3, 0xa9] := by decide
  have hprintable : ∀ n, ∀ b ∈ List.replicate n (0x61 : UInt8), 0x20 ≤ b ∧ b ≠ 0x7f := by
    intro n b hb
    obtain rfl := List.eq_of_mem_replicate hb
    decide
  intro data hdata
  rcases List.mem_cons.mp hdata with rfl | hdata
  · refine ⟨?_, haccent.append (hletters letters)⟩
    rw [List.forall_mem_cons, List.forall_mem_cons]
    exact ⟨by decide, by decide, hprintable letters⟩
  · obtain rfl := List.eq_of_mem_replicate hdata
    exact ⟨hprintable size, hletters size⟩

/-- Reads that fill a log, with a byte more that cuts the character. -/
theorem not_bounded_accented {letters reads size : ℕ}
    (hfull : 2 + letters + reads * size = maxStageLogBytes) :
    ¬ Bounded [docsStage] (afterMessages (newTeaModel [docsStage] [] true true)
      ((accentedReads letters reads size ++ [[0x61]]).map readMessage)) := by
  have hnew := teaInvariant_new [docsStage] [] true true
  have hdistinct : ([docsStage].map (·.id)).Nodup := by decide
  have hmem := List.mem_singleton_self docsStage
  have hlog := stageLog_run hdistinct hnew (stageIndex_isSome hmem hdistinct []) stageLog_nil
    ((accentedReads letters reads size).map readMessage)
  have hshown : ((accentedReads letters reads size).map readMessage).flatMap
      (chunkOf docsStage.id) = (accentedReads letters reads size).flatten := by
    rw [List.flatMap_map, List.flatten_eq_flatMap]
    refine List.flatMap_congr fun data hdata => ?_
    obtain ⟨hplain, hvalid⟩ := plain_accented letters reads size data hdata
    exact sanitize_plain hplain hvalid
  obtain ⟨rest, hflatten, hrest⟩ : ∃ rest,
      (accentedReads letters reads size).flatten = 0xc3 :: 0xa9 :: rest ∧
        rest.length = letters + reads * size := by
    refine ⟨List.replicate letters 0x61 ++
      (List.replicate reads (List.replicate size 0x61)).flatten, rfl, ?_⟩
    simp
  rw [hshown, hflatten, List.nil_append] at hlog
  have hmodel :=
    teaInvariant_run hdistinct hnew ((accentedReads letters reads size).map readMessage)
  rw [List.map_append, afterMessages_append]
  generalize afterMessages (newTeaModel [docsStage] [] true true)
    ((accentedReads letters reads size).map readMessage) = model at hlog hmodel
  have hlength : (0xc3 :: 0xa9 :: rest).length = maxStageLogBytes := by
    rw [List.length_cons, List.length_cons, hrest]
    omega
  have hwhole : model.logs docsStage.id = 0xc3 :: 0xa9 :: rest := by
    refine (hlog.whole (Bool.eq_false_iff.mpr fun htruncated => ?_)).1
    exact absurd (hlog.long htruncated).2 (Nat.not_lt.mpr hlength.le)
  have hbounded : Bounded [docsStage] model := by
    rw [Bounded, List.forall_mem_singleton, hwhole]
    exact hlength.le
  have hvalid : ∀ current ∈ [docsStage], Unicode.Valid (model.logs current.id) := by
    rw [List.forall_mem_singleton]
    exact hlog.valid
  intro hlong
  have hfits := (bounded_update_iff hdistinct hmodel hvalid hbounded _).mp hlong
  have hcut : CutsBetween (model.logs docsStage.id) [0x61] := hfits docsStage hmem rfl rfl
  have hletter : sanitizeTerminalOutput [0x61] = [0x61] := by decide
  refine hcut [0xc3] 0xa9 (rest ++ [0x61]) ?_ ?_ (List.cons_ne_nil _ _) (by decide)
  · rw [hwhole, hletter]
    rfl
  · rw [← hlength]
    simp

/-- Eight reads of 32 KiB and one more byte make a log of 262146 bytes. -/
theorem console_bounds_accented :
    ¬ Bounded [docsStage] (afterMessages (newTeaModel [docsStage] [] true true)
      ((accentedReads 32766 7 32768 ++ [[0x61]]).map readMessage)) :=
  not_bounded_accented (by decide)

end Tickline.Analysis
