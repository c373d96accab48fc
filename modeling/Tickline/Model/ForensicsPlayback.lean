import Tickline.Library.Machine
import Tickline.Model.ForensicsWorkspace

/-!
# Playback, selection and filters

What a viewer does with a workspace once it is built: the playback controller moves along the
timeline, and the workspace filters its evidence and selects by moving the controller.

The arithmetic of doubles is that of their exact values, rounded by a parameter `round`; with
`Double.finite` for it, times are exact.  Positions are integers: a timeline has fewer than `2 ^ 31`
entries, so that no position overflows.
-/

set_option autoImplicit false

namespace Tickline.Model.Forensics

open Tickline.Library

/-! ## Doubles -/

namespace Double

/-- `left + right`. -/
def add (round : ℚ → Double) : Double → Double → Double
  | .finite left, .finite right => round (left + right)
  | .infinity left, .infinity right => if left = right then .infinity left else .nan
  | .infinity left, .finite _ => .infinity left
  | .finite _, .infinity right => .infinity right
  | _, _ => .nan

/-- `-value`. -/
def neg : Double → Double
  | .nan => .nan
  | .infinity negative => .infinity !negative
  | .finite value => .finite (-value)

/-- `left - right`. -/
def sub (round : ℚ → Double) (left right : Double) : Double := left.add round right.neg

/-- The product of an infinity and a finite double. -/
def scaled (negative : Bool) (value : ℚ) : Double :=
  if value = 0 then .nan else .infinity (negative ^^ decide (value < 0))

/-- `left * right`. -/
def mul (round : ℚ → Double) : Double → Double → Double
  | .finite left, .finite right => round (left * right)
  | .infinity left, .infinity right => .infinity (left ^^ right)
  | .infinity negative, .finite value => scaled negative value
  | .finite value, .infinity negative => scaled negative value
  | _, _ => .nan

/-- `left >= right`. -/
def atLeast : Double → Double → Bool
  | .nan, _ => false
  | _, .nan => false
  | .infinity false, _ => true
  | _, .infinity true => true
  | .finite left, .finite right => right ≤ left
  | _, _ => false

/-- `value < 0.0`. -/
def negative : Double → Bool
  | .nan => false
  | .infinity negative => negative
  | .finite value => value < 0

/-- `double.IsNaN(value) || double.IsInfinity(value)`. -/
def notFinite : Double → Bool
  | .finite _ => false
  | _ => true

end Double

/-! ## The controller -/

/-- SRC: ReplayTimeline.cs:122-127 -/
def distance (left right : UInt64) : UInt64 := if left ≥ right then left - right else right - left

/-- The loop over the entries from an index on, with the nearest so far.
SRC: ReplayTimeline.cs:107-117 -/
def nearestFrom (targetTick : UInt64) : ℕ → ℕ → UInt64 → List ReplayTimelineEntry → ℕ
  | _, nearestIndex, _, [] => nearestIndex
  | index, nearestIndex, nearestDistance, entry :: entries =>
    if distance entry.targetTick targetTick < nearestDistance then
      nearestFrom targetTick (index + 1) index (distance entry.targetTick targetTick) entries
    else nearestFrom targetTick (index + 1) nearestIndex nearestDistance entries

/-- SRC: ReplayTimeline.cs:96-120 -/
def ReplayTimeline.findNearestIndexToTick (timeline : ReplayTimeline) (targetTick : UInt64) : ℤ :=
  match timeline.entries with
  | [] => -1
  | entry :: entries =>
    nearestFrom targetTick 1 0 (distance entry.targetTick targetTick) entries

namespace ReplayPlaybackController

/-- `timeline.Count`. -/
def count (controller : ReplayPlaybackController) : ℤ := controller.timeline.entries.length

/-- SRC: ReplayPlaybackController.cs:50-61 -/
def play (controller : ReplayPlaybackController) : Bool × ReplayPlaybackController :=
  if controller.count = 0 ∨ controller.currentIndex ≥ controller.count - 1 then
    (false, { controller with isPlaying := false })
  else (true, { controller with isPlaying := true })

/-- SRC: ReplayPlaybackController.cs:63-67 -/
def pause (controller : ReplayPlaybackController) : ReplayPlaybackController :=
  { controller with isPlaying := false, accumulatedSeconds := .finite 0 }

/-- SRC: ReplayPlaybackController.cs:69-79 -/
def setPlaybackSpeed (speed : Double) (controller : ReplayPlaybackController) :
    Except NetException ReplayPlaybackController :=
  if speed.notFinite || speed.notPositive then .error .argumentOutOfRange
  else .ok { controller with playbackSpeed := speed }

/-- SRC: ReplayPlaybackController.cs:171-186 -/
def moveTo (index : ℤ) (controller : ReplayPlaybackController) : Bool × ReplayPlaybackController :=
  if index < 0 ∨ index ≥ controller.count then (false, controller)
  else if controller.currentIndex = index then (true, controller)
  else (true, { controller with currentIndex := index })

/-- The condition of the loop.
SRC: ReplayPlaybackController.cs:101-102 -/
def goesOn (controller : ReplayPlaybackController) : Bool :=
  controller.isPlaying && controller.accumulatedSeconds.atLeast controller.secondsPerEntry

/-- One round of the loop, with what it adds to the count.  The `break` leaves a loop whose
condition fails then.
SRC: ReplayPlaybackController.cs:103-118 -/
def advanceRound (round : ℚ → Double) (controller : ReplayPlaybackController) :
    ℕ × ReplayPlaybackController :=
  let controller := { controller with
    accumulatedSeconds := controller.accumulatedSeconds.sub round controller.secondsPerEntry }
  let (moved, controller) := controller.moveTo (controller.currentIndex + 1)
  if !moved then (0, controller.pause)
  else if controller.currentIndex ≥ controller.count - 1 then (1, controller.pause)
  else (1, controller)

/-- The loop, for at most `fuel` rounds.
SRC: ReplayPlaybackController.cs:99-120 -/
def advanceLoop (round : ℚ → Double) : ℕ → ReplayPlaybackController → ℕ × ReplayPlaybackController
  | 0, controller => (0, controller)
  | fuel + 1, controller =>
    if controller.goesOn then
      let (advanced, controller) := controller.advanceRound round
      let (rest, controller) := advanceLoop round fuel controller
      (advanced + rest, controller)
    else (0, controller)

/-- Every round of the loop but the last moves on, so that there are no more than entries.
SRC: ReplayPlaybackController.cs:81-121 -/
def advance (round : ℚ → Double) (elapsedSeconds : Double) (controller : ReplayPlaybackController) :
    Except NetException (ℕ × ReplayPlaybackController) :=
  if elapsedSeconds.notFinite || elapsedSeconds.negative then .error .argumentOutOfRange
  else if !controller.isPlaying || controller.count = 0 then .ok (0, controller)
  else
    .ok (advanceLoop round controller.timeline.entries.length { controller with
      accumulatedSeconds := controller.accumulatedSeconds.add round
        (elapsedSeconds.mul round controller.playbackSpeed) })

/-- SRC: ReplayPlaybackController.cs:123-127 -/
def stepForward (controller : ReplayPlaybackController) : Bool × ReplayPlaybackController :=
  controller.pause.moveTo (controller.currentIndex + 1)

/-- SRC: ReplayPlaybackController.cs:129-133 -/
def stepBackward (controller : ReplayPlaybackController) : Bool × ReplayPlaybackController :=
  controller.pause.moveTo (controller.currentIndex - 1)

/-- SRC: ReplayPlaybackController.cs:135-145 -/
def seek (index : ℤ) (controller : ReplayPlaybackController) : Bool × ReplayPlaybackController :=
  let controller := controller.pause
  if index < 0 ∨ index ≥ controller.count then (false, controller) else controller.moveTo index

/-- SRC: ReplayPlaybackController.cs:147-153 -/
def seekToTick (targetTick : UInt64) (controller : ReplayPlaybackController) :
    Bool × ReplayPlaybackController :=
  let index := controller.timeline.findNearestIndexToTick targetTick
  if index ≥ 0 then controller.seek index else (false, controller)

/-- SRC: ReplayPlaybackController.cs:155-169 -/
def reset (controller : ReplayPlaybackController) : ReplayPlaybackController :=
  { controller.pause with currentIndex := if controller.count = 0 then -1 else 0 }

end ReplayPlaybackController

/-- What can be asked of a controller. -/
inductive PlaybackOperation
  | play
  | pause
  | setPlaybackSpeed (speed : Double)
  | advance (elapsedSeconds : Double)
  | stepForward
  | stepBackward
  | seek (index : ℤ)
  | seekToTick (targetTick : UInt64)
  | reset

/-- What an operation returns. -/
inductive Reply
  | done
  | flag (value : Bool)
  | count (value : ℕ)
  deriving DecidableEq

/-- An operation that tells whether it did what it is for. -/
def flagOf {β : Type} (result : Bool × β) : Except NetException Reply × β :=
  (.ok (.flag result.1), result.2)

/-- An operation that may throw, which it does before it changes anything. -/
def replyOf {α β : Type} (state : β) (reply : α → Reply) :
    Except NetException (α × β) → Except NetException Reply × β
  | .error exception => (.error exception, state)
  | .ok (value, state) => (.ok (reply value), state)

/-- A controller as a machine. -/
def playbackMachine (round : ℚ → Double) :
    Machine ReplayPlaybackController PlaybackOperation (Except NetException Reply) where
  perform operation controller :=
    match operation with
    | .play => flagOf controller.play
    | .pause => (.ok .done, controller.pause)
    | .setPlaybackSpeed speed =>
      replyOf controller (fun _ => .done) ((controller.setPlaybackSpeed speed).map ((), ·))
    | .advance elapsedSeconds =>
      replyOf controller .count (controller.advance round elapsedSeconds)
    | .stepForward => flagOf controller.stepForward
    | .stepBackward => flagOf controller.stepBackward
    | .seek index => flagOf (controller.seek index)
    | .seekToTick targetTick => flagOf (controller.seekToTick targetTick)
    | .reset => (.ok .done, controller.reset)

/-! ## The workspace -/

namespace InvestigationWorkspace

/-- SRC: InvestigationWorkspace.cs:359-370 -/
def selectedEvidence (workspace : InvestigationWorkspace) :
    Option InvestigationEvidenceInspection :=
  let index := workspace.playback.currentIndex
  if 0 ≤ index ∧ index < workspace.evidence.length then workspace.evidence[index.toNat]? else none

/-- SRC: InvestigationWorkspace.cs:375-399 -/
def selectedVisibleIndex (workspace : InvestigationWorkspace) : ℤ :=
  match workspace.selectedEvidence with
  | none => -1
  | some selected =>
    match workspace.visibleEvidence.findIdx? fun item =>
        item.timelineEntry.index = selected.timelineEntry.index with
    | some index => index
    | none => -1

/-- SRC: InvestigationWorkspace.cs:404-423 -/
def setOutcomeFilter (filter : InvestigationOutcomeFilter) (workspace : InvestigationWorkspace) :
    Except NetException InvestigationWorkspace :=
  match filter with
  | .undefined _ => .error .argumentOutOfRange
  | filter =>
    if workspace.outcomeFilter = filter then .ok workspace
    else .ok (rebuildVisibleEvidence { workspace with outcomeFilter := filter })

/-- SRC: InvestigationWorkspace.cs:425-453 -/
def trySetSessionFilter (clientId sessionId : UInt64) (workspace : InvestigationWorkspace) :
    Bool × InvestigationWorkspace :=
  match workspace.sessions.find? fun candidate =>
      candidate.clientIdValue = clientId ∧ candidate.sessionIdValue = sessionId with
  | some candidate =>
    if workspace.sessionFilter = some candidate then (true, workspace)
    else (true, rebuildVisibleEvidence { workspace with sessionFilter := some candidate })
  | none => (false, workspace)

/-- SRC: InvestigationWorkspace.cs:455-480 -/
def trySetSessionFilterText (clientId sessionId : Option NetString)
    (workspace : InvestigationWorkspace) : Bool × InvestigationWorkspace :=
  match tryParseUnsigned clientId with
  | none => (false, workspace)
  | some clientValue =>
    match tryParseUnsigned sessionId with
    | none => (false, workspace)
    | some sessionValue => workspace.trySetSessionFilter clientValue sessionValue

/-- SRC: InvestigationWorkspace.cs:482-492 -/
def clearSessionFilter (workspace : InvestigationWorkspace) : InvestigationWorkspace :=
  if workspace.sessionFilter = none then workspace
  else rebuildVisibleEvidence { workspace with sessionFilter := none }

/-- SRC: InvestigationWorkspace.cs:494-498 -/
def selectEvidenceByTimelineIndex (timelineIndex : ℤ) (workspace : InvestigationWorkspace) :
    Bool × InvestigationWorkspace :=
  (workspace.playback.seek timelineIndex).map id fun playback => { workspace with playback }

/-- SRC: InvestigationWorkspace.cs:500-514 -/
def selectEvidenceByOrdinal (ordinal : Int32) (workspace : InvestigationWorkspace) :
    Bool × InvestigationWorkspace :=
  match workspace.evidence.find? (·.timelineEntry.ordinal = ordinal) with
  | some item => workspace.selectEvidenceByTimelineIndex item.timelineEntry.index
  | none => (false, workspace)

/-- SRC: InvestigationWorkspace.cs:516-527 -/
def selectVisibleEvidence (visibleIndex : ℤ) (workspace : InvestigationWorkspace) :
    Bool × InvestigationWorkspace :=
  if visibleIndex < 0 then (false, workspace)
  else match workspace.visibleEvidence[visibleIndex.toNat]? with
    | some item => workspace.selectEvidenceByTimelineIndex item.timelineEntry.index
    | none => (false, workspace)

end InvestigationWorkspace

/-- What can be asked of a workspace and of its controller. -/
inductive WorkspaceOperation
  | setOutcomeFilter (filter : InvestigationOutcomeFilter)
  | trySetSessionFilter (clientId sessionId : UInt64)
  | trySetSessionFilterText (clientId sessionId : Option NetString)
  | clearSessionFilter
  | selectEvidenceByTimelineIndex (timelineIndex : ℤ)
  | selectEvidenceByOrdinal (ordinal : Int32)
  | selectVisibleEvidence (visibleIndex : ℤ)
  | playback (operation : PlaybackOperation)

/-- A workspace as a machine. -/
def workspaceMachine (round : ℚ → Double) :
    Machine InvestigationWorkspace WorkspaceOperation (Except NetException Reply) where
  perform operation workspace :=
    match operation with
    | .setOutcomeFilter filter =>
      replyOf workspace (fun _ => .done) ((workspace.setOutcomeFilter filter).map ((), ·))
    | .trySetSessionFilter clientId sessionId =>
      flagOf (workspace.trySetSessionFilter clientId sessionId)
    | .trySetSessionFilterText clientId sessionId =>
      flagOf (workspace.trySetSessionFilterText clientId sessionId)
    | .clearSessionFilter => (.ok .done, workspace.clearSessionFilter)
    | .selectEvidenceByTimelineIndex timelineIndex =>
      flagOf (workspace.selectEvidenceByTimelineIndex timelineIndex)
    | .selectEvidenceByOrdinal ordinal =>
      flagOf (workspace.selectEvidenceByOrdinal ordinal)
    | .selectVisibleEvidence visibleIndex =>
      flagOf (workspace.selectVisibleEvidence visibleIndex)
    | .playback operation =>
      ((playbackMachine round).perform operation workspace.playback).map id
        fun playback => { workspace with playback }

end Tickline.Model.Forensics
