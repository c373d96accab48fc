import Mathlib.Algebra.Order.Ring.Rat
import Mathlib.Data.List.Sort
import Tickline.Model.ForensicsBundle

/-!
# The viewer's timeline, workspace and session

`ReplayTimelineBuilder.Build` and `InvestigationWorkspaceBuilder.Build` turn a bundle into
inspections; a member that throws ends in a `NetException`.  `commitLoad` is the step of a
viewer session that takes a loaded bundle over, as a state action on the session; nobody is
subscribed to the session's events.

Nobody who is told of a change calls back in, so that the events of a playback controller and a
workspace change nothing, and neither does disposing of it.  `List.Sort` is an insertion sort: the sessions it sorts
have different keys, so every sort gives the same list.
-/

set_option autoImplicit false

namespace Tickline.Model.Forensics

/-- A `double`. -/
inductive Double
  | nan
  | infinity (negative : Bool)
  | finite (value : ℚ)
  deriving DecidableEq

/-- `secondsPerEntry <= 0.0`. -/
def Double.notPositive : Double → Bool
  | .nan => false
  | .infinity negative => negative
  | .finite value => value ≤ 0

/-! ## The timeline -/

/-- SRC: ReplayTimeline.cs:7-52 -/
structure ReplayTimelineEntry where
  index : ℕ
  ordinal : Int32
  clientId : Option NetString
  sessionId : Option NetString
  sessionSequence : UInt64
  targetTick : UInt64
  commandType : Option NetString
  outcome : Option NetString
  rejectionCode : Option NetString
  previousDigest : Option NetString
  recordDigest : Option NetString
  deriving DecidableEq

/-- The constructor.
SRC: ReplayTimeline.cs:9-30 -/
def ReplayTimelineEntry.make (index : ℕ) :
    Option InvestigationEvidenceRecord → Except NetException ReplayTimelineEntry
  | none => .error .nullReference
  | some record => do
    let sessionSequence ← parseUnsigned record.sessionSequence
    let targetTick ← parseUnsigned record.targetTick
    return {
      index
      ordinal := record.ordinal
      clientId := record.clientId
      sessionId := record.sessionId
      sessionSequence, targetTick
      commandType := record.commandType
      outcome := record.outcome
      rejectionCode := record.rejectionCode
      previousDigest := record.previousDigest
      recordDigest := record.recordDigest }

/-- SRC: ReplayTimeline.cs:67-94 -/
structure ReplayTimeline where
  archiveDigest : Option NetString
  initialHeadDigest : Option NetString
  trustedHeadDigest : Option NetString
  replay : Option ReplaySummary
  entries : List ReplayTimelineEntry
  deriving DecidableEq

/-- SRC: ReplayTimeline.cs:130-148 -/
structure ReplayTimelineBuildResult where
  timeline : Option ReplayTimeline
  validation : BundleValidationResult
  deriving DecidableEq

/-- The entries of the records from an index on.
SRC: ReplayTimeline.cs:171-177 -/
def timelineEntriesFrom :
    ℕ → List (Option InvestigationEvidenceRecord) →
      Except NetException (List ReplayTimelineEntry)
  | _, [] => return []
  | index, record :: rest => do
    let entry ← ReplayTimelineEntry.make index record
    let entries ← timelineEntriesFrom (index + 1) rest
    return entry :: entries

/-- `ReplayTimelineBuilder.Build`; a bundle without issues is not null.
SRC: ReplayTimeline.cs:152-182 -/
def buildTimeline (parser : TimestampParser) (bundle : Option InvestigationBundle) :
    Except NetException ReplayTimelineBuildResult := do
  let validation := validate parser bundle
  if !validation.isEmpty then return { timeline := none, validation }
  match bundle with
  | none => throw .nullReference
  | some bundle =>
    let entries ← timelineEntriesFrom 0 bundle.evidenceArray
    return {
      timeline := some {
        archiveDigest := bundle.archiveDigest
        initialHeadDigest := bundle.initialHeadDigest
        trustedHeadDigest := bundle.trustedHeadDigest
        replay := bundle.replay
        entries }
      validation }

/-! ## Inspections -/

/-- SRC: InvestigationWorkspace.cs:20-56 -/
structure InvestigationSessionKey where
  clientId : UInt64
  sessionId : UInt64
  deriving DecidableEq

/-- SRC: InvestigationWorkspace.cs:58-118 -/
structure InvestigationSessionInspection where
  clientId : Option NetString
  sessionId : Option NetString
  clientIdValue : UInt64
  sessionIdValue : UInt64
  lastCommittedSequence : UInt64
  firstTargetTick : UInt64
  lastTargetTick : UInt64
  acceptedCommands : Int32
  rejectedCommands : Int32
  deriving DecidableEq

namespace InvestigationSessionInspection

/-- The constructor.
SRC: InvestigationWorkspace.cs:60-83 -/
def make : Option InvestigationSession → Except NetException InvestigationSessionInspection
  | none => .error .nullReference
  | some session => do
    let clientIdValue ← parseUnsigned session.clientId
    let sessionIdValue ← parseUnsigned session.sessionId
    let lastCommittedSequence ← parseUnsigned session.lastCommittedSequence
    let firstTargetTick ← parseUnsigned session.firstTargetTick
    let lastTargetTick ← parseUnsigned session.lastTargetTick
    return {
      clientId := session.clientId
      sessionId := session.sessionId
      clientIdValue, sessionIdValue, lastCommittedSequence, firstTargetTick, lastTargetTick
      acceptedCommands := session.acceptedCommands
      rejectedCommands := session.rejectedCommands }

/-- SRC: InvestigationWorkspace.cs:106-109 -/
def key (inspection : InvestigationSessionInspection) : InvestigationSessionKey where
  clientId := inspection.clientIdValue
  sessionId := inspection.sessionIdValue

end InvestigationSessionInspection

/-- SRC: InvestigationWorkspace.cs:120-202 -/
structure InvestigationEvidenceInspection where
  timelineEntry : ReplayTimelineEntry
  session : InvestigationSessionInspection
  expectedPreviousDigest : Option NetString
  previousDigestMatches : Bool
  isFinalEvidence : Bool
  completesTrustedHead : Bool
  deriving DecidableEq

/-- The constructor; the indexer throws outside the timeline.
SRC: InvestigationWorkspace.cs:122-150 -/
def InvestigationEvidenceInspection.make (timeline : ReplayTimeline) (entry : ReplayTimelineEntry)
    (session : InvestigationSessionInspection) :
    Except NetException InvestigationEvidenceInspection := do
  let expectedPreviousDigest ←
    if entry.index = 0 then pure timeline.initialHeadDigest
    else match timeline.entries[entry.index - 1]? with
      | some previous => pure previous.recordDigest
      | none => throw .argumentOutOfRange
  let isFinalEvidence := decide (entry.index + 1 = timeline.entries.length)
  return {
    timelineEntry := entry
    session, expectedPreviousDigest
    previousDigestMatches := entry.previousDigest = expectedPreviousDigest
    isFinalEvidence
    completesTrustedHead :=
      isFinalEvidence && decide (entry.recordDigest = timeline.trustedHeadDigest) }

/-- SRC: InvestigationWorkspace.cs:14-18 -/
inductive InvestigationIntegrityStatus
  | replayVerified
  | replayNotVerified
  deriving DecidableEq, Repr

/-- SRC: InvestigationWorkspace.cs:204-268 -/
structure InvestigationIntegritySummary where
  structuralValidationPassed : Bool
  evidenceChainContinuous : Bool
  trustedHeadMatches : Bool
  replayVerified : Bool
  status : InvestigationIntegrityStatus
  deriving DecidableEq

/-- The constructor.
SRC: InvestigationWorkspace.cs:206-251 -/
def InvestigationIntegritySummary.make (timeline : ReplayTimeline)
    (evidence : List InvestigationEvidenceInspection) : InvestigationIntegritySummary :=
  let evidenceChainContinuous := evidence.all (·.previousDigestMatches)
  let trustedHeadMatches :=
    match evidence.getLast? with
    | none => decide (timeline.initialHeadDigest = timeline.trustedHeadDigest)
    | some last => last.completesTrustedHead
  let replayVerified := timeline.replay.any (·.verified)
  { structuralValidationPassed := true
    evidenceChainContinuous, trustedHeadMatches, replayVerified
    status :=
      if evidenceChainContinuous && trustedHeadMatches && replayVerified then .replayVerified
      else .replayNotVerified }

/-! ## The workspace -/

/-- SRC: ReplayPlaybackController.cs:5-31 -/
structure ReplayPlaybackController where
  timeline : ReplayTimeline
  secondsPerEntry : Double
  accumulatedSeconds : Double
  currentIndex : ℤ
  isPlaying : Bool
  playbackSpeed : Double
  deriving DecidableEq

/-- The constructor, for a timeline that is not null.
SRC: ReplayPlaybackController.cs:13-31 -/
def ReplayPlaybackController.make (timeline : ReplayTimeline) (secondsPerEntry : Double) :
    Except NetException ReplayPlaybackController :=
  let refused := match secondsPerEntry with
    | .nan | .infinity _ => true
    | .finite _ => secondsPerEntry.notPositive
  if refused then .error .argumentOutOfRange
  else .ok {
    timeline, secondsPerEntry
    accumulatedSeconds := .finite 0
    currentIndex := if timeline.entries.length = 0 then -1 else 0
    isPlaying := false
    playbackSpeed := .finite 1 }

/-- `undefined` stands for the other values of the underlying integer.
SRC: InvestigationWorkspace.cs:7-12 -/
inductive InvestigationOutcomeFilter
  | all
  | accepted
  | rejected
  | undefined (value : Int32)
  deriving DecidableEq

/-- SRC: InvestigationWorkspace.cs:290-308 -/
structure InvestigationWorkspace where
  timeline : ReplayTimeline
  playback : ReplayPlaybackController
  integrity : InvestigationIntegritySummary
  sessions : List InvestigationSessionInspection
  evidence : List InvestigationEvidenceInspection
  visibleEvidence : List InvestigationEvidenceInspection
  outcomeFilter : InvestigationOutcomeFilter
  sessionFilter : Option InvestigationSessionInspection
  deriving DecidableEq

namespace InvestigationWorkspace

/-- SRC: InvestigationWorkspace.cs:574-591, ReplayTimeline.cs:54-64 -/
def matchesOutcomeFilter (workspace : InvestigationWorkspace)
    (item : InvestigationEvidenceInspection) : Bool :=
  match workspace.outcomeFilter with
  | .all => true
  | .accepted => item.timelineEntry.outcome = some (net "accepted")
  | .rejected => item.timelineEntry.outcome = some (net "rejected")
  | .undefined _ => false

/-- The inspections of sessions differ in their keys, so that two are the same object where they
are equal.
SRC: InvestigationWorkspace.cs:547-572 -/
def rebuildVisibleEvidence (workspace : InvestigationWorkspace) : InvestigationWorkspace :=
  { workspace with
    visibleEvidence := workspace.evidence.filter fun item =>
      workspace.matchesOutcomeFilter item &&
        match workspace.sessionFilter with
        | some session => decide (item.session = session)
        | none => true }

/-- The constructor.
SRC: InvestigationWorkspace.cs:306-332 -/
def make (timeline : ReplayTimeline) (playback : ReplayPlaybackController)
    (sessions : List InvestigationSessionInspection)
    (evidence : List InvestigationEvidenceInspection) : InvestigationWorkspace :=
  rebuildVisibleEvidence {
    timeline, playback, sessions, evidence
    integrity := InvestigationIntegritySummary.make timeline evidence
    visibleEvidence := []
    outcomeFilter := .all
    sessionFilter := none }

end InvestigationWorkspace

/-- SRC: InvestigationWorkspace.cs:270-288 -/
structure InvestigationWorkspaceBuildResult where
  workspace : Option InvestigationWorkspace
  validation : BundleValidationResult
  deriving DecidableEq

/-- SRC: InvestigationWorkspace.cs:284-287 -/
def InvestigationWorkspaceBuildResult.isValid (result : InvestigationWorkspaceBuildResult) :
    Bool :=
  result.workspace.isSome && result.validation.isEmpty

/-- The dictionary from session keys to inspections, latest entry first. -/
abbrev SessionMap := List (InvestigationSessionKey × InvestigationSessionInspection)

/-- `Dictionary.Add`, which throws for a key that is there. -/
def SessionMap.add (map : SessionMap) (key : InvestigationSessionKey)
    (value : InvestigationSessionInspection) : Except NetException SessionMap :=
  if map.any (·.1 = key) then .error .argument else .ok ((key, value) :: map)

/-- The indexer of a dictionary, which throws for a key that is not there. -/
def SessionMap.item (map : SessionMap) (key : InvestigationSessionKey) :
    Except NetException InvestigationSessionInspection :=
  match map.lookup key with
  | some value => .ok value
  | none => .error .keyNotFound

/-- The loop that inspects the sessions and enters them into the dictionary.
SRC: InvestigationWorkspace.cs:623-635 -/
def inspectSessions :
    List (Option InvestigationSession) → List InvestigationSessionInspection → SessionMap →
      Except NetException (List InvestigationSessionInspection × SessionMap)
  | [], sessions, sessionMap => return (sessions, sessionMap)
  | session :: rest, sessions, sessionMap => do
    let inspection ← InvestigationSessionInspection.make session
    let sessionMap ← sessionMap.add inspection.key inspection
    inspectSessions rest (sessions ++ [inspection]) sessionMap

/-- Not after, under `CompareSessions`.
SRC: InvestigationWorkspace.cs:686-698 -/
def sessionNotAfter (left right : InvestigationSessionInspection) : Bool :=
  if left.clientIdValue ≠ right.clientIdValue then left.clientIdValue < right.clientIdValue
  else left.sessionIdValue ≤ right.sessionIdValue

/-- The loop that inspects the timeline's entries.
SRC: InvestigationWorkspace.cs:646-670 -/
def inspectEvidence (timeline : ReplayTimeline) (sessionMap : SessionMap) :
    List ReplayTimelineEntry → Except NetException (List InvestigationEvidenceInspection)
  | [] => return []
  | entry :: rest => do
    let clientId ← parseUnsigned entry.clientId
    let sessionId ← parseUnsigned entry.sessionId
    let session ← sessionMap.item { clientId, sessionId }
    let inspection ← InvestigationEvidenceInspection.make timeline entry session
    let inspections ← inspectEvidence timeline sessionMap rest
    return inspection :: inspections

/-- `InvestigationWorkspaceBuilder.Build`.
SRC: InvestigationWorkspace.cs:596-684 -/
def buildWorkspace (parser : TimestampParser) (bundle : Option InvestigationBundle)
    (secondsPerEntry : Double) : Except NetException InvestigationWorkspaceBuildResult := do
  let timelineResult ← buildTimeline parser bundle
  match bundle, timelineResult.timeline with
  | some bundle, some timeline =>
    let (inspections, sessionMap) ← inspectSessions bundle.sessionArray [] []
    let sessions := inspections.insertionSort fun left right => sessionNotAfter left right
    let evidence ← inspectEvidence timeline sessionMap timeline.entries
    let playback ← ReplayPlaybackController.make timeline secondsPerEntry
    return {
      workspace := some (InvestigationWorkspace.make timeline playback sessions evidence)
      validation := timelineResult.validation }
  | _, _ => return { workspace := none, validation := timelineResult.validation }

/-! ## The viewer session -/

/-- SRC: BundleValidation.cs:34-47 -/
structure BundleLoadResult where
  bundle : Option InvestigationBundle
  validation : Option BundleValidationResult
  deriving DecidableEq

/-- The result of a load, but for the text that lists its issues.
SRC: InvestigationViewerSession.cs:12-40 -/
structure InvestigationLoadResult where
  source : NetString
  bundle : Option InvestigationBundle
  workspace : Option InvestigationWorkspace
  validation : Option BundleValidationResult
  deriving DecidableEq

/-- SRC: InvestigationViewerSession.cs:75-99 -/
structure InvestigationViewerSession where
  bundle : Option InvestigationBundle := none
  workspace : Option InvestigationWorkspace := none
  activeSource : NetString := []
  lastLoad : Option InvestigationLoadResult := none
  deriving DecidableEq

/-- What `LoadFromJson` makes of a text that deserialized to this bundle.
SRC: InvestigationBundleLoader.cs:63-73 -/
def loadOfBundle (parser : TimestampParser) (bundle : Option InvestigationBundle) :
    BundleLoadResult :=
  match bundle with
  | none => {
      bundle := none
      validation := some [⟨"bundle_json_invalid", "$",
        "Unity could not deserialize the investigation bundle."⟩] }
  | some bundle => { bundle := some bundle, validation := some (validate parser (some bundle)) }

/-- SRC: InvestigationViewerSession.cs:162-225 -/
def commitLoad (parser : TimestampParser) (source : NetString) (load : Option BundleLoadResult)
    (secondsPerEntry : Double) : EStateM NetException InvestigationViewerSession Bool := do
  match load with
  | none => throw .argumentNull
  | some load =>
    match load.validation, load.bundle with
    | some [], some bundle =>
      match buildWorkspace parser (some bundle) secondsPerEntry with
      | .error exception => throw exception
      | .ok workspaceResult =>
        if !workspaceResult.isValid then
          set { (← get) with
            lastLoad := some {
              source, bundle := some bundle, workspace := none
              validation := some workspaceResult.validation } }
          return false
        set { (← get) with
          bundle := some bundle
          workspace := workspaceResult.workspace
          activeSource := source
          lastLoad := some {
            source, bundle := some bundle, workspace := workspaceResult.workspace
            validation := some workspaceResult.validation } }
        return true
    | validation, bundle =>
      set { (← get) with
        lastLoad := some { source, bundle, workspace := none, validation } }
      return false

end Tickline.Model.Forensics
