import Tickline.Model.CommandPipeline

/-!
# Replaying evidence

`replay` checks the chain of a record list and then runs it again from copies of the
initial session and world: it advances to each record's observed tick, compares the
state before the submission with the record, submits the record's envelope to a
pipeline of its own and compares the record that this produces.
-/

set_option autoImplicit false

namespace Tickline.Model

/-- SRC: command_evidence_replay.hpp:17-27 -/
inductive CommandEvidenceReplayCode
  | verified
  | chainVerificationFailed
  | observedTickRegression
  | tickAdvanceLimitExceeded
  | simulationAdvanceFailed
  | sessionStateMismatch
  | pendingCommandCountMismatch
  | worldStateMismatch
  | submissionRecordMismatch
  deriving DecidableEq, Repr

/-- SRC: command_evidence_replay.hpp:66-68 -/
structure CommandEvidenceReplayPolicy where
  maximumTickAdvances : UInt64 := 1000000
  deriving DecidableEq

/-- SRC: command_evidence_replay.hpp:70-85 -/
structure CommandEvidenceReplayResult where
  code : CommandEvidenceReplayCode
  processedRecords : ℕ
  failedOrdinal : Option UInt64
  performedTickAdvances : UInt64
  finalTick : UInt64
  finalSessionSequence : UInt64
  finalPendingCommandCount : ℕ
  finalWorldFingerprint : StateFingerprint
  replayedHeadDigest : Sha256Digest
  deriving DecidableEq

/-- SRC: command_evidence_replay.hpp:82-85 -/
def CommandEvidenceReplayResult.verified (result : CommandEvidenceReplayResult) : Bool :=
  result.code = .verified

namespace CommandEvidenceReplayer

/-- SRC: command_evidence_replay.cpp:14-38 -/
def makeResult (code : CommandEvidenceReplayCode) (processedRecords : ℕ)
    (failedOrdinal : Option UInt64) (performedTickAdvances : UInt64) (state : Exchange) :
    Except Fault CommandEvidenceReplayResult := do
  let finalWorldFingerprint ← fingerprintWorldState state.world
  return {
    code, processedRecords, failedOrdinal, performedTickAdvances
    finalTick := state.world.currentTick.index
    finalSessionSequence := state.session.highestAcceptedSequence
    finalPendingCommandCount := state.world.pendingCommandCount
    finalWorldFingerprint
    replayedHeadDigest := state.pipeline.evidence.headDigest }

/-- The loop that advances to the observed tick, with `steps` advances to go.
SRC: command_evidence_replay.cpp:116-122 -/
def advanceSteps : (steps : ℕ) → Member World Unit
  | 0 => return ()
  | steps + 1 => do
    let _ ← World.advance
    advanceSteps steps

/-- The record loop, from record `index` on.
SRC: command_evidence_replay.cpp:70-211 -/
def replayRecords (policy : CommandEvidenceReplayPolicy) (index : ℕ)
    (performedTickAdvances : UInt64) (state : Exchange) :
    List CommandEvidenceRecord → Except Fault CommandEvidenceReplayResult
  | [] => makeResult .verified index none performedTickAdvances state
  | expectedRecord :: rest =>
    let failedOrdinal := some expectedRecord.ordinal
    let currentTick := state.world.currentTick.index
    if expectedRecord.entry.observedTick < currentTick then
      makeResult .observedTickRegression index failedOrdinal performedTickAdvances state
    else
      let requiredAdvances := expectedRecord.entry.observedTick - currentTick
      let remainingBudget := policy.maximumTickAdvances - performedTickAdvances
      if remainingBudget < requiredAdvances then
        makeResult .tickAdvanceLimitExceeded index failedOrdinal performedTickAdvances state
      else
        match advanceSteps requiredAdvances.toNat state.world with
        -- A failed step keeps the steps before it: the world is not restored.
        | .error fault world =>
          if fault.isOverflowError || fault.isLogicError then
            makeResult .simulationAdvanceFailed index failedOrdinal performedTickAdvances
              { state with world }
          else .error fault
        | .ok _ world => do
          let state := { state with world }
          let performedTickAdvances := performedTickAdvances + requiredAdvances
          if state.session.highestAcceptedSequence ≠
              expectedRecord.entry.sessionSequenceBefore then
            return ← makeResult .sessionStateMismatch index failedOrdinal
              performedTickAdvances state
          if state.world.pendingCommandCount ≠
              expectedRecord.entry.pendingCommandsBefore.toNat then
            return ← makeResult .pendingCommandCountMismatch index failedOrdinal
              performedTickAdvances state
          if (← fingerprintWorldState state.world) ≠
              expectedRecord.entry.worldFingerprintBefore then
            return ← makeResult .worldStateMismatch index failedOrdinal
              performedTickAdvances state
          let (_, state) ← Member.onCopy
            (AuthoritativeCommandPipeline.submit expectedRecord.entry.envelope) state
          let generatedRecords := state.pipeline.evidence.records
          if generatedRecords.length ≠ index + 1 ∨
              generatedRecords[index]? ≠ some expectedRecord then
            return ← makeResult .submissionRecordMismatch index failedOrdinal
              performedTickAdvances state
          replayRecords policy (index + 1) performedTickAdvances state rest

/-- SRC: command_evidence_replay.cpp:42-222 -/
def replay (policy : CommandEvidenceReplayPolicy) (initialSession : CommandSession)
    (initialWorld : World) (records : List CommandEvidenceRecord) (trustedHead : Sha256Digest) :
    Except Fault CommandEvidenceReplayResult :=
  let state : Exchange := { session := initialSession, world := initialWorld }
  let performedTickAdvances := 0
  if !verifyCommandEvidenceChain records trustedHead then
    makeResult .chainVerificationFailed 0 none performedTickAdvances state
  else replayRecords policy 0 performedTickAdvances state records

end CommandEvidenceReplayer

end Tickline.Model
