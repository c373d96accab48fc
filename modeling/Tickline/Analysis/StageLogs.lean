import Tickline.Analysis.ConsoleRun
import Tickline.Analysis.TerminalText

/-!
# The log of a stage

The console adds what it shows of an output event to the log of the event's stage.  A log that
becomes too long keeps its end, of which a repair may make more bytes again, so a log that was cut
is never short (`StageLog`).  Adding output keeps that (`StageLog.append`), and so does every event
(`applyRunnerEvent_log`).

A log that was cut has its bound exactly when the cut went between two characters
(`length_append_le_iff`).
-/

set_option autoImplicit false

namespace Tickline.Analysis

open Tickline.Library Tickline.Model
open Tickline.Model.Console
open Tickline.Model.Stage (Event)

/-- What the log of a stage is, behind so much that was shown of its output. -/
structure StageLog (shown log : List UInt8) (truncated : Bool) : Prop where
  valid : Unicode.Valid log
  whole : truncated = false → log = shown ∧ log.length ≤ maxStageLogBytes
  long : truncated = true → maxStageLogBytes ≤ log.length ∧ maxStageLogBytes < shown.length

theorem stageLog_nil : StageLog [] [] false where
  valid := Unicode.valid_encode []
  whole _ := ⟨rfl, Nat.zero_le _⟩
  long h := by cases h

theorem valid_sanitize (data : List UInt8) : Unicode.Valid (sanitizeTerminalOutput data) := by
  rw [sanitize_eq]
  exact Unicode.valid_encode _

/-- The log of a stage behind more output. -/
def appendedLog (log data : List UInt8) : List UInt8 :=
  if sanitizeTerminalOutput data = [] then log
  else if (log ++ sanitizeTerminalOutput data).length > maxStageLogBytes then
    Unicode.coerce ((log ++ sanitizeTerminalOutput data).drop
      ((log ++ sanitizeTerminalOutput data).length - maxStageLogBytes))
  else log ++ sanitizeTerminalOutput data

/-- Whether the log of a stage was cut, behind more output. -/
def appendedTruncated (log : List UInt8) (truncated : Bool) (data : List UInt8) : Bool :=
  if sanitizeTerminalOutput data = [] then truncated
  else if (log ++ sanitizeTerminalOutput data).length > maxStageLogBytes then true
  else truncated

theorem appendStageOutput_eq (model : ConsoleModel) (stageID : GoString) (data : List UInt8) :
    (model.appendStageOutput stageID data).logs =
        Function.update model.logs stageID (appendedLog (model.logs stageID) data) ∧
      (model.appendStageOutput stageID data).logTruncated =
        Function.update model.logTruncated stageID
          (appendedTruncated (model.logs stageID) (model.logTruncated stageID) data) := by
  unfold ConsoleModel.appendStageOutput appendedLog appendedTruncated
  dsimp only
  split_ifs
  · exact ⟨(Function.update_eq_self _ _).symm, (Function.update_eq_self _ _).symm⟩
  · exact ⟨rfl, rfl⟩
  · exact ⟨rfl, (Function.update_eq_self _ _).symm⟩

/-- A part that is repaired is not shorter. -/
theorem length_le_coerce (bytes : List UInt8) : bytes.length ≤ (Unicode.coerce bytes).length := by
  rw [Unicode.length_add_count]
  exact Nat.le_add_right _ _

theorem length_drop_excess {bytes : List UInt8} (h : maxStageLogBytes < bytes.length) :
    (bytes.drop (bytes.length - maxStageLogBytes)).length = maxStageLogBytes := by
  rw [List.length_drop]
  omega

/-- **More output** leaves the log of a stage what it is. -/
theorem StageLog.append {shown log : List UInt8} {truncated : Bool}
    (h : StageLog shown log truncated) (data : List UInt8) :
    StageLog (shown ++ sanitizeTerminalOutput data) (appendedLog log data)
      (appendedTruncated log truncated data) := by
  unfold appendedLog appendedTruncated
  split_ifs with hempty hlong
  · rw [hempty, List.append_nil]
    exact h
  · refine ⟨Unicode.valid_coerce _, fun hnot => (by cases hnot), fun _ => ⟨?_, ?_⟩⟩
    · calc maxStageLogBytes = _ := (length_drop_excess hlong).symm
        _ ≤ _ := length_le_coerce _
    · cases hbefore : truncated with
      | false => rwa [← (h.whole hbefore).1]
      | true =>
        rw [List.length_append]
        exact (h.long hbefore).2.trans_le (Nat.le_add_right _ _)
  · refine ⟨h.valid.append (valid_sanitize data), fun hnot => ?_, fun htruncated => ?_⟩
    · exact ⟨by rw [(h.whole hnot).1], Nat.le_of_not_lt hlong⟩
    · obtain ⟨hlog, hshown⟩ := h.long htruncated
      rw [List.length_append, List.length_append]
      exact ⟨hlog.trans (Nat.le_add_right _ _), hshown.trans_le (Nat.le_add_right _ _)⟩

/-- The byte with which the end of a log begins that is kept continues no character. -/
def CutsBetween (log data : List UInt8) : Prop :=
  ∀ front b back, log ++ sanitizeTerminalOutput data = front ++ b :: back →
    (b :: back).length = maxStageLogBytes → front ≠ [] → ¬ Unicode.IsContinuation b

/-- **Where a log keeps its bound**: exactly where a cut goes between two characters. -/
theorem length_append_le_iff {log : List UInt8} (hvalid : Unicode.Valid log)
    (hbound : log.length ≤ maxStageLogBytes) (data : List UInt8) :
    (appendedLog log data).length ≤ maxStageLogBytes ↔ CutsBetween log data := by
  have hwhole : Unicode.Valid (log ++ sanitizeTerminalOutput data) :=
    hvalid.append (valid_sanitize data)
  unfold appendedLog CutsBetween
  generalize hcombined : log ++ sanitizeTerminalOutput data = combined at hwhole
  split_ifs with hempty hlong
  · refine iff_of_true hbound fun front b back hsplit hlength hfront => ?_
    have hcount := congrArg List.length hsplit
    have hpos := List.length_pos_iff.mpr hfront
    rw [← hcombined, hempty, List.append_nil, List.length_append, hlength] at hcount
    omega
  · have hkept := length_drop_excess hlong
    have hsplit := List.take_append_drop (combined.length - maxStageLogBytes) combined
    have htake : combined.take (combined.length - maxStageLogBytes) ≠ [] := by
      rw [← List.length_pos_iff, List.length_take]
      omega
    generalize combined.take (combined.length - maxStageLogBytes) = front at hsplit htake
    generalize combined.drop (combined.length - maxStageLogBytes) = kept at hsplit hkept
    obtain ⟨b, back, rfl⟩ : ∃ b back, kept = b :: back :=
      List.exists_cons_of_length_pos (by rw [hkept, maxStageLogBytes]; omega)
    subst hsplit
    have hcoerce := Unicode.length_add_count (b :: back)
    have hshort : (Unicode.coerce (b :: back)).length ≤ maxStageLogBytes ↔
        Unicode.Valid (b :: back) := by
      rw [Unicode.Valid, ← List.count_eq_zero]
      omega
    rw [hshort, hwhole.suffix_iff]
    constructor
    · intro hb front' b' back' heq hlength _
      have hsame := List.append_inj' heq (by rw [hkept, hlength])
      exact (List.cons.inj hsame.2).1 ▸ hb
    · exact fun hcut => hcut front b back rfl hkept htake
  · refine iff_of_true (Nat.le_of_not_lt hlong) fun front b back hsplit hlength hfront => ?_
    have hcount := congrArg List.length hsplit
    have hpos := List.length_pos_iff.mpr hfront
    rw [List.length_append, hlength] at hcount
    omega

/-! ## Events -/

/-- An event is output of a stage that the model has. -/
def AddsOutput (model : ConsoleModel) (stageID : GoString) (event : Event) : Prop :=
  event.kind = .stageOutput ∧ event.stageID = stageID ∧ (model.stageIndex stageID).isSome

instance (model : ConsoleModel) (stageID : GoString) (event : Event) :
    Decidable (AddsOutput model stageID event) :=
  inferInstanceAs (Decidable (_ ∧ _ ∧ _))

/-- A new model has the stages of its plan. -/
theorem stageIndex_isSome {plan : List Stage.Task} {current : Stage.Task}
    (hcurrent : current ∈ plan) (hdistinct : (plan.map (·.id)).Nodup) (runID : GoString) :
    ((newModel plan runID).stageIndex current.id).isSome := by
  obtain ⟨index, hindex⟩ := List.mem_iff_getElem?.mp hcurrent
  rw [(newModel_indexed hdistinct runID current.id index).mpr
    ⟨waitingStage current, by simp [newModel, hindex, waitingStage], rfl⟩]
  rfl

/-- What an event has the model show of a stage's output. -/
def shownOutput (model : ConsoleModel) (stageID : GoString) (event : Event) : List UInt8 :=
  if AddsOutput model stageID event then sanitizeTerminalOutput event.data else []

/-- What an event does to the log of a stage. -/
theorem applyRunnerEvent_log (model : ConsoleModel) (stageID : GoString) (event : Event) :
    AddsOutput model stageID event ∧
        (model.applyRunnerEvent event).logs stageID = appendedLog (model.logs stageID) event.data ∧
        (model.applyRunnerEvent event).logTruncated stageID =
          appendedTruncated (model.logs stageID) (model.logTruncated stageID) event.data ∨
      ¬ AddsOutput model stageID event ∧
        (model.applyRunnerEvent event).logs stageID = model.logs stageID ∧
        (model.applyRunnerEvent event).logTruncated stageID = model.logTruncated stageID := by
  by_cases hadds : AddsOutput model stageID event
  · obtain ⟨hkind, rfl, hknown⟩ := hadds
    obtain ⟨index, hindex⟩ := Option.isSome_iff_exists.mp hknown
    obtain ⟨hlogs, htruncated⟩ := appendStageOutput_eq model event.stageID event.data
    refine Or.inl ⟨⟨hkind, rfl, hknown⟩, ?_⟩
    unfold ConsoleModel.applyRunnerEvent
    rw [hkind, hindex]
    dsimp only
    rw [hlogs, htruncated, Function.update_self, Function.update_self]
    exact ⟨rfl, rfl⟩
  · refine Or.inr ⟨hadds, ?_⟩
    unfold ConsoleModel.applyRunnerEvent
    cases hindex : model.stageIndex event.stageID with
    | none => cases event.kind <;> exact ⟨rfl, rfl⟩
    | some index =>
      cases hkind : event.kind with
      | stageOutput =>
        obtain ⟨hlogs, htruncated⟩ := appendStageOutput_eq model event.stageID event.data
        have hother : stageID ≠ event.stageID := by
          rintro rfl
          exact hadds ⟨hkind, rfl, by rw [hindex]; rfl⟩
        dsimp only
        rw [hlogs, htruncated, Function.update_of_ne hother, Function.update_of_ne hother]
        exact ⟨rfl, rfl⟩
      | _ => exact ⟨rfl, rfl⟩

/-- No event changes which stages the model has. -/
theorem applyRunnerEvent_stageIndex (model : ConsoleModel) (event : Event) :
    (model.applyRunnerEvent event).stageIndex = model.stageIndex := by
  unfold ConsoleModel.applyRunnerEvent
  cases model.stageIndex event.stageID with
  | none => cases event.kind <;> rfl
  | some index =>
    cases event.kind with
    | stageOutput => exact (appendStageOutput_stages model event.stageID event.data).2
    | _ => rfl

/-- **An event leaves the log of a stage what it is**. -/
theorem StageLog.applyRunnerEvent {model : ConsoleModel} {stageID : GoString} {shown : List UInt8}
    (h : StageLog shown (model.logs stageID) (model.logTruncated stageID)) (event : Event) :
    StageLog (shown ++ shownOutput model stageID event)
      ((model.applyRunnerEvent event).logs stageID)
      ((model.applyRunnerEvent event).logTruncated stageID) := by
  unfold shownOutput
  rcases applyRunnerEvent_log model stageID event with
    ⟨hadds, hlog, htruncated⟩ | ⟨hadds, hlog, htruncated⟩
  · rw [if_pos hadds, hlog, htruncated]
    exact h.append event.data
  · rw [if_neg hadds, hlog, htruncated, List.append_nil]
    exact h

/-- **Events leave the log of a stage what it is**. -/
theorem StageLog.foldl {model : ConsoleModel} {stageID : GoString} {shown : List UInt8}
    (h : StageLog shown (model.logs stageID) (model.logTruncated stageID)) (events : List Event) :
    StageLog (shown ++ events.flatMap (shownOutput model stageID))
      ((events.foldl ConsoleModel.applyRunnerEvent model).logs stageID)
      ((events.foldl ConsoleModel.applyRunnerEvent model).logTruncated stageID) := by
  induction events generalizing model shown with
  | nil => simpa using h
  | cons event events ih =>
    have hrest := ih (h.applyRunnerEvent event)
    have hsame :
        shownOutput (model.applyRunnerEvent event) stageID = shownOutput model stageID := by
      funext other
      refine if_congr ?_ rfl rfl
      rw [AddsOutput, applyRunnerEvent_stageIndex, AddsOutput]
    rw [hsame, List.append_assoc] at hrest
    exact hrest

/-- A stage that writes output. -/
def docsStage : Stage.Task := stageOf "docs" "Documentation" "scripts/checks/docs.sh" true [] 0

end Tickline.Analysis
