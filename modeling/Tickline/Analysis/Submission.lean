import Tickline.Analysis.Admission
import Tickline.Analysis.ArchiveCodec
import Tickline.Analysis.Representation

/-!
# What a submission does

`SubmitStep` lists the five things a submission to a world with the invariant can do, two
of which are throws for exhausted memory; `submitStep` shows that there is no other.  A
submission that returned has appended one record, which says what it saw and did and
which the decoder accepts (`SubmitStep.recorded`).

`submission_decides` assembles from this that a submission is all or nothing, and that
what it accepts is `Admissible`.
-/

set_option autoImplicit false

namespace Tickline.Analysis

open Tickline.Library Tickline.Model

/-! ## The log -/

/-- The record that a log makes of its next entry.
SRC: command_evidence.cpp:750-781 -/
def nextRecord (log : CommandEvidenceLog) (entry : CommandEvidenceEntry) :
    CommandEvidenceRecord where
  ordinal := UInt64.ofNat log.records.length
  previousRecordDigest := log.headDigest
  entry := entry

/-- A log with one more entry. -/
def appended (log : CommandEvidenceLog) (entry : CommandEvidenceEntry) : CommandEvidenceLog where
  records := log.records ++ [nextRecord log entry]
  headDigest := digestCommandEvidence (nextRecord log entry)

/-- An exchange whose log has one more entry. -/
def withEntry (s : Exchange) (entry : CommandEvidenceEntry) : Exchange :=
  { s with pipeline := ⟨appended s.pipeline.evidence entry⟩ }

/-- What a submission writes down about itself.
SRC: authoritative_command_pipeline.cpp:123-141, 163-181 -/
def evidenceEntry (before after : Exchange) (fingerprint : StateFingerprint)
    (command : CommandEnvelope) (code : CommandRejectionCode) (outcome : CommandQueueOutcome) :
    CommandEvidenceEntry where
  worldFingerprintBefore := fingerprint
  observedTick := before.world.currentTick.index
  envelope := command
  sessionSequenceBefore := before.session.highestAcceptedSequence
  sessionSequenceAfter := after.session.highestAcceptedSequence
  pendingCommandsBefore := UInt64.ofNat before.world.pendingCommandCount
  pendingCommandsAfter := UInt64.ofNat after.world.pendingCommandCount
  rejectionCode := code
  queueOutcome := outcome

/-- The session and the world after an accepted submission. -/
def committed (s : Exchange) (command : CommandEnvelope) : Exchange :=
  { s with
    session := { s.session with highestAcceptedSequence := command.sequence }
    world := withCommand s.world (CommandSession.translate command) }

/-- INTERNAL: the pending count of a queue that fits is representable.
SRC: authoritative_command_pipeline.cpp:14-23 -/
theorem checkedCount_eq {world : World} (h : Sound world) :
    checkedCount world.pendingCommandCount = .ok (UInt64.ofNat world.pendingCommandCount) :=
  if_pos (Nat.lt_of_le_of_lt h.fits (vectorMaxSize_lt _))

/-- INTERNAL: appending returns. -/
theorem onEvidence_append (s : Exchange) (entry : CommandEvidenceEntry) :
    Exchange.onEvidence (CommandEvidenceLog.append entry) s = .ok () (withEntry s entry) := rfl

/-- INTERNAL: committing writes the sequence.
SRC: command_session.cpp:145-149 -/
theorem onSession_commit (s : Exchange) (sequence : UInt64) :
    Exchange.onSession (CommandSession.commitAcceptedSequence sequence) s =
      .ok () { s with session := { s.session with highestAcceptedSequence := sequence } } := rfl

/-- Preparing the log checks its length and does nothing else.
SRC: command_evidence.cpp:732-748 -/
theorem prepareAppend_eq (s : Exchange) :
    Exchange.onEvidence CommandEvidenceLog.prepareAppend s =
      if ¬ s.pipeline.evidence.records.length < 2 ^ 64 then
        .error (.overflowError "command evidence ordinal cannot be represented") s
      else if s.pipeline.evidence.records.length = vectorMaxSize commandEvidenceRecordSize then
        .error (.lengthError "command evidence log reached its maximum size") s
      else .ok () s := by
  simp only [Exchange.onEvidence, Member.within, CommandEvidenceLog.prepareAppend,
    Member.bind_apply, Member.ite_apply, Member.get_apply, Member.throw_apply, Member.pure_apply]
  split_ifs <;> rfl

/-- INTERNAL: with room in the log. -/
theorem prepareAppend_ok {s : Exchange}
    (h : s.pipeline.evidence.records.length < vectorMaxSize commandEvidenceRecordSize) :
    Exchange.onEvidence CommandEvidenceLog.prepareAppend s = .ok () s := by
  rw [prepareAppend_eq, if_neg (not_not.mpr (h.trans (vectorMaxSize_lt _))), if_neg h.ne]

/-- INTERNAL: a member of the world that returned. -/
theorem onWorld_ok {s : Exchange} {α : Type} {action : Member World α} {a : α} {world : World}
    (h : action s.world = .ok a world) :
    Exchange.onWorld action s = .ok a { s with world := world } := by
  simp only [Exchange.onWorld, Member.within, h]

/-- INTERNAL: a member of the world that threw. -/
theorem onWorld_error {s : Exchange} {α : Type} {action : Member World α} {fault : Fault}
    {world : World} (h : action s.world = .error fault world) :
    Exchange.onWorld action s = .error fault { s with world := world } := by
  simp only [Exchange.onWorld, Member.within, h]

/-- INTERNAL: a queue result always makes a submission result.
SRC: authoritative_command_pipeline.cpp:41-48 -/
theorem fromQueueResult_eq (queueResult : QueueCommandResult) :
    CommandSubmissionResult.fromQueueResult queueResult =
      .ok ⟨commandRejectionFromQueueResult queueResult, some queueResult, rfl⟩ :=
  dif_pos rfl

/-- Only an accepted queue result is no rejection.
SRC: authoritative_command_pipeline.hpp:11-36 -/
theorem commandRejectionFromQueueResult_eq_none {queueResult : QueueCommandResult} :
    commandRejectionFromQueueResult queueResult = .none ↔ queueResult = .accepted := by
  cases queueResult <;> decide

/-! ## The cases of a submission -/

section Cases

variable {s : Exchange} {fingerprint : StateFingerprint} {command : CommandEnvelope}
  (h : Sound s.world)
  (hlog : s.pipeline.evidence.records.length < vectorMaxSize commandEvidenceRecordSize)
  (hfp : fingerprintWorldState s.world = .ok fingerprint)

include h hlog hfp

/-- INTERNAL: the session refuses. -/
theorem submit_refused {code : CommandRejectionCode}
    (hcode : admissionDecision s.session command s.world.currentTick.index = code)
    (hne : code ≠ .none) :
    AuthoritativeCommandPipeline.submit command s = .ok ⟨code, none, hne⟩
      (withEntry s (evidenceEntry s s fingerprint command code .notAttempted)) := by
  obtain ⟨admission, hevaluate, hrefused, hadmission⟩ := evaluate_refused hcode hne
  have hreject : CommandSubmissionResult.reject code = .ok ⟨code, none, hne⟩ := by
    rw [CommandSubmissionResult.reject, if_neg hne, CommandSubmissionResult.make, dif_neg hne]
  simp only [AuthoritativeCommandPipeline.submit, Member.bind_apply, prepareAppend_ok hlog,
    Member.get_apply, hfp, Member.lift_ok, checkedCount_eq h, hevaluate, hrefused, Bool.not_false,
    if_true, hadmission, hreject, onEvidence_append, Member.pure_apply]
  rfl

variable (hcode : admissionDecision s.session command s.world.currentTick.index = .none)

include hcode

/-- INTERNAL: the session admits and the world refuses. -/
theorem submit_declined {queueResult : QueueCommandResult}
    (hqueue : queueDecision s.world (CommandSession.translate command) = queueResult)
    (hne : queueResult ≠ .accepted) :
    AuthoritativeCommandPipeline.submit command s =
      .ok ⟨commandRejectionFromQueueResult queueResult, some queueResult, rfl⟩
        (withEntry s (evidenceEntry s s fingerprint command
          (commandRejectionFromQueueResult queueResult) (commandQueueOutcome queueResult))) := by
  obtain ⟨admission, hevaluate, hadmitted, hcommand⟩ := evaluate_admitted hcode
  have hrun := queueVelocity_eq h.invariant.config h.invariant.sameKeys
    (CommandSession.translate command)
  rw [hqueue, if_neg hne] at hrun
  have hrefused : (CommandSubmissionResult.mk (commandRejectionFromQueueResult queueResult)
      (some queueResult) rfl).accepted = false :=
    decide_eq_false (commandRejectionFromQueueResult_eq_none.not.mpr hne)
  simp only [AuthoritativeCommandPipeline.submit, Member.bind_apply, prepareAppend_ok hlog,
    Member.get_apply, hfp, Member.lift_ok, checkedCount_eq h, hevaluate, hadmitted, Bool.not_true,
    Bool.false_eq_true, if_false, hcommand, onWorld_ok hrun, fromQueueResult_eq,
    hrefused, onEvidence_append, Member.pure_apply]
  rfl

/-- INTERNAL: the session admits, the world accepts, and the session commits. -/
theorem submit_accepted
    (hqueue : queueDecision s.world (CommandSession.translate command) = .accepted)
    (hroom : s.world.pendingCommands.length < vectorMaxSize World.velocityCommandSize) :
    AuthoritativeCommandPipeline.submit command s = .ok ⟨.none, some .accepted, rfl⟩
      (withEntry (committed s command) (evidenceEntry s (committed s command) fingerprint command
        .none .accepted)) := by
  obtain ⟨admission, hevaluate, hadmitted, hcommand⟩ := evaluate_admitted hcode
  have hrun := queueVelocity_eq h.invariant.config h.invariant.sameKeys
    (CommandSession.translate command)
  rw [if_pos hqueue, if_pos hroom] at hrun
  have hcount : checkedCount (withCommand s.world
      (CommandSession.translate command)).pendingCommandCount =
        .ok (UInt64.ofNat (withCommand s.world
          (CommandSession.translate command)).pendingCommandCount) := by
    apply if_pos
    rw [World.pendingCommandCount, length_withCommand]
    exact Nat.lt_of_le_of_lt hroom (vectorMaxSize_lt _)
  have haccept : (CommandSubmissionResult.mk (commandRejectionFromQueueResult .accepted)
      (some .accepted) rfl).accepted = true := rfl
  simp only [AuthoritativeCommandPipeline.submit, Member.bind_apply, prepareAppend_ok hlog,
    Member.get_apply, hfp, Member.lift_ok, checkedCount_eq h, hevaluate, hadmitted, Bool.not_true,
    Bool.false_eq_true, if_false, hcommand, onWorld_ok hrun, fromQueueResult_eq,
    haccept, if_true, onSession_commit, hcount, onEvidence_append, Member.pure_apply]
  rfl

/-- INTERNAL: the queue throws after both marks are written. -/
theorem submit_queueFull
    (hqueue : queueDecision s.world (CommandSession.translate command) = .accepted)
    (hfull : ¬ s.world.pendingCommands.length < vectorMaxSize World.velocityCommandSize) :
    AuthoritativeCommandPipeline.submit command s = .error (.lengthError "vector")
      { s with world := withMarks s.world (CommandSession.translate command) } := by
  obtain ⟨admission, hevaluate, hadmitted, hcommand⟩ := evaluate_admitted hcode
  have hrun := queueVelocity_eq h.invariant.config h.invariant.sameKeys
    (CommandSession.translate command)
  rw [if_pos hqueue, if_neg hfull] at hrun
  simp only [AuthoritativeCommandPipeline.submit, Member.bind_apply, prepareAppend_ok hlog,
    Member.get_apply, hfp, Member.lift_ok, checkedCount_eq h, hevaluate, hadmitted, Bool.not_true,
    Bool.false_eq_true, if_false, hcommand, onWorld_error hrun]

end Cases

/-! ## Steps -/

/-- How an exchange answers a submission, and what it becomes. -/
inductive SubmitStep (s : Exchange) (command : CommandEnvelope) : Answer → Exchange → Prop
  | logFull (full : s.pipeline.evidence.records.length = vectorMaxSize commandEvidenceRecordSize) :
      SubmitStep s command
        (.threw (.lengthError "command evidence log reached its maximum size")) s
  | refused (fingerprint : StateFingerprint) (code : CommandRejectionCode)
      (hfp : fingerprintWorldState s.world = .ok fingerprint)
      (hcode : admissionDecision s.session command s.world.currentTick.index = code)
      (hne : code ≠ .none)
      (room : s.pipeline.evidence.records.length < vectorMaxSize commandEvidenceRecordSize) :
      SubmitStep s command (.submitted ⟨code, none, hne⟩)
        (withEntry s (evidenceEntry s s fingerprint command code .notAttempted))
  | declined (fingerprint : StateFingerprint) (queueResult : QueueCommandResult)
      (hfp : fingerprintWorldState s.world = .ok fingerprint)
      (hcode : admissionDecision s.session command s.world.currentTick.index = .none)
      (hqueue : queueDecision s.world (CommandSession.translate command) = queueResult)
      (hne : queueResult ≠ .accepted)
      (room : s.pipeline.evidence.records.length < vectorMaxSize commandEvidenceRecordSize) :
      SubmitStep s command
        (.submitted ⟨commandRejectionFromQueueResult queueResult, some queueResult, rfl⟩)
        (withEntry s (evidenceEntry s s fingerprint command
          (commandRejectionFromQueueResult queueResult) (commandQueueOutcome queueResult)))
  | accepted (fingerprint : StateFingerprint)
      (hfp : fingerprintWorldState s.world = .ok fingerprint)
      (hcode : admissionDecision s.session command s.world.currentTick.index = .none)
      (hqueue : queueDecision s.world (CommandSession.translate command) = .accepted)
      (room : s.pipeline.evidence.records.length < vectorMaxSize commandEvidenceRecordSize)
      (queueRoom : s.world.pendingCommands.length < vectorMaxSize World.velocityCommandSize) :
      SubmitStep s command (.submitted ⟨.none, some .accepted, rfl⟩)
        (withEntry (committed s command) (evidenceEntry s (committed s command) fingerprint command
          .none .accepted))
  | queueFull (hqueue : queueDecision s.world (CommandSession.translate command) = .accepted)
      (full : ¬ s.world.pendingCommands.length < vectorMaxSize World.velocityCommandSize) :
      SubmitStep s command (.threw (.lengthError "vector"))
        { s with world := withMarks s.world (CommandSession.translate command) }

theorem call_ok {α : Type} {answer : α → Answer} {action : Member Exchange α} {s s' : Exchange}
    {a : α} (h : action s = .ok a s') : Member.call answer action s = (answer a, s') := by
  rw [Member.call, h]

theorem call_error {α : Type} {answer : α → Answer} {action : Member Exchange α} {s s' : Exchange}
    {fault : Fault} (h : action s = .error fault s') :
    Member.call answer action s = (.threw fault, s') := by
  rw [Member.call, h]

/-- The log is no longer than a vector can be. -/
def LogFits (log : CommandEvidenceLog) : Prop :=
  log.records.length ≤ vectorMaxSize commandEvidenceRecordSize

/-- INTERNAL: the log is at its maximum size. -/
theorem submit_logFull {s : Exchange} {command : CommandEnvelope}
    (hfull : s.pipeline.evidence.records.length = vectorMaxSize commandEvidenceRecordSize) :
    AuthoritativeCommandPipeline.submit command s =
      .error (.lengthError "command evidence log reached its maximum size") s := by
  have hcount : s.pipeline.evidence.records.length < 2 ^ 64 := hfull ▸ vectorMaxSize_lt _
  have hprepare : Exchange.onEvidence CommandEvidenceLog.prepareAppend s =
      .error (.lengthError "command evidence log reached its maximum size") s := by
    rw [prepareAppend_eq, if_neg (not_not.mpr hcount), if_pos hfull]
  exact Member.bind_error hprepare

/-- **Every submission** to a world with the invariant is one of the steps.
SRC: authoritative_command_pipeline.cpp:94-184 -/
theorem submitStep {s : Exchange} (h : Sound s.world) (hlog : LogFits s.pipeline.evidence)
    (command : CommandEnvelope) :
    SubmitStep s command (Exchange.machine.answer (.submit command) s)
      (Exchange.machine.next (.submit command) s) := by
  simp only [Machine.answer, Machine.next, Exchange.machine]
  rcases Nat.eq_or_lt_of_le hlog with hfull | hroom
  · rw [call_error (submit_logFull hfull)]
    exact .logFull hfull
  obtain ⟨fingerprint, hfp⟩ := fingerprintWorldState_ok h
  by_cases hcode : admissionDecision s.session command s.world.currentTick.index = .none
  · by_cases hqueue : queueDecision s.world (CommandSession.translate command) = .accepted
    · by_cases hqueueRoom :
          s.world.pendingCommands.length < vectorMaxSize World.velocityCommandSize
      · rw [call_ok (submit_accepted h hroom hfp hcode hqueue hqueueRoom)]
        exact .accepted fingerprint hfp hcode hqueue hroom hqueueRoom
      · rw [call_error (submit_queueFull h hroom hfp hcode hqueue hqueueRoom)]
        exact .queueFull hqueue hqueueRoom
    · rw [call_ok (submit_declined h hroom hfp hcode rfl hqueue)]
      exact .declined fingerprint _ hfp hcode rfl hqueue hroom
  · rw [call_ok (submit_refused h hroom hfp rfl hcode)]
    exact .refused fingerprint _ hfp rfl hcode hroom

section Steps

variable {s s' : Exchange} {command : CommandEnvelope} {answer : Answer}

/-- A submission throws for exhausted memory only. -/
theorem SubmitStep.answer_cases (hstep : SubmitStep s command answer s') :
    (∃ result, answer = .submitted result) ∨ ∃ what, answer = .threw (.lengthError what) := by
  cases hstep with
  | logFull => exact Or.inr ⟨_, rfl⟩
  | queueFull => exact Or.inr ⟨_, rfl⟩
  | _ => exact Or.inl ⟨_, rfl⟩

/-- A submission does to the world what queueing a command does, or nothing. -/
theorem SubmitStep.world (hstep : SubmitStep s command answer s') :
    s'.world = s.world ∨
      ∃ worldAnswer, WorldStep s.world (.queueVelocity (CommandSession.translate command))
        worldAnswer s'.world := by
  cases hstep with
  | logFull => exact Or.inl rfl
  | refused => exact Or.inl rfl
  | declined => exact Or.inl rfl
  | accepted _ _ _ hqueue _ hroom => exact Or.inr ⟨_, .queued _ hqueue hroom⟩
  | queueFull hqueue hfull => exact Or.inr ⟨_, .queueFull _ hqueue hfull⟩

/-- A submission keeps the invariant of its world. -/
theorem SubmitStep.sound (h : Sound s.world) (hstep : SubmitStep s command answer s') :
    Sound s'.world := by
  rcases hstep.world with heq | ⟨worldAnswer, hworld⟩
  · rwa [heq]
  · exact ⟨hworld.invariant h.invariant, hworld.fits h.fits⟩

/-- A submission keeps the log within the bound of a vector. -/
theorem SubmitStep.logFits (hlog : LogFits s.pipeline.evidence)
    (hstep : SubmitStep s command answer s') : LogFits s'.pipeline.evidence := by
  have happended : ∀ entry, s.pipeline.evidence.records.length <
      vectorMaxSize commandEvidenceRecordSize → LogFits (appended s.pipeline.evidence entry) := by
    intro entry hroom
    rw [LogFits, appended, List.length_append, List.length_singleton]
    exact hroom
  cases hstep with
  | logFull => exact hlog
  | refused _ _ _ _ _ hroom => exact happended _ hroom
  | declined _ _ _ _ _ _ hroom => exact happended _ hroom
  | accepted _ _ _ _ hroom => exact happended _ hroom
  | queueFull => exact hlog

/-- The one record a submission that returned has made. -/
structure Recorded (s : Exchange) (command : CommandEnvelope) (result : CommandSubmissionResult)
    (s' : Exchange) (entry : CommandEvidenceEntry) : Prop where
  log : s'.pipeline.evidence = appended s.pipeline.evidence entry
  room : s.pipeline.evidence.records.length < vectorMaxSize commandEvidenceRecordSize
  fingerprint : fingerprintWorldState s.world = .ok entry.worldFingerprintBefore
  observedTick : entry.observedTick = s.world.currentTick.index
  envelope : entry.envelope = command
  sessionBefore : entry.sessionSequenceBefore = s.session.highestAcceptedSequence
  sessionAfter : entry.sessionSequenceAfter = s'.session.highestAcceptedSequence
  pendingBefore : entry.pendingCommandsBefore.toNat = s.world.pendingCommandCount
  pendingAfter : entry.pendingCommandsAfter.toNat = s'.world.pendingCommandCount
  rejectionCode : entry.rejectionCode = result.code
  queueOutcome : entry.queueOutcome =
    (result.queueResult.map commandQueueOutcome).getD .notAttempted

/-- INTERNAL: the recorded count is the count. -/
theorem toNat_pendingCount {world : World} (h : Fits world) :
    (UInt64.ofNat world.pendingCommandCount).toNat = world.pendingCommandCount := by
  rw [UInt64.toNat_ofNat']
  exact Nat.mod_eq_of_lt (Nat.lt_of_le_of_lt h (vectorMaxSize_lt _))

end Steps

/-! ## Records decode -/

/-- INTERNAL: the invariants of a rejection.
SRC: command_evidence.cpp:263-331 -/
theorem validateRecordInvariants_rejected {record : CommandEvidenceRecord}
    (hcode : record.entry.rejectionCode ≠ .none) (houtcome : record.entry.queueOutcome ≠ .accepted)
    (hexpected : ∀ code, expectedRejectionCode record.entry.queueOutcome = some code →
      code = record.entry.rejectionCode)
    (hsequence : record.entry.sessionSequenceAfter = record.entry.sessionSequenceBefore)
    (hpending : record.entry.pendingCommandsAfter = record.entry.pendingCommandsBefore) :
    validateRecordInvariants record = .ok () := by
  have hmatch : ¬ ((expectedRejectionCode record.entry.queueOutcome).isSome = true ∧
      expectedRejectionCode record.entry.queueOutcome ≠ some record.entry.rejectionCode) := by
    rintro ⟨hsome, hne⟩
    obtain ⟨code, hcode⟩ := Option.isSome_iff_exists.mp hsome
    exact hne (by rw [hcode, hexpected code hcode])
  simp only [validateRecordInvariants, hcode, houtcome, hmatch, hsequence, hpending, decide_false,
    ne_eq, not_true_eq_false, if_false, or_self, Bool.false_eq_true, bind, Except.bind, pure,
    Except.pure]

/-- INTERNAL: the invariants of an acceptance.
SRC: command_evidence.cpp:263-331 -/
theorem validateRecordInvariants_accepted {record : CommandEvidenceRecord}
    (hcode : record.entry.rejectionCode = .none) (houtcome : record.entry.queueOutcome = .accepted)
    (hsequence : record.entry.sessionSequenceAfter = record.entry.envelope.sequence)
    (hless : record.entry.sessionSequenceBefore < record.entry.envelope.sequence)
    (hcount : record.entry.pendingCommandsBefore ≠ UInt64.ofNat (2 ^ 64 - 1))
    (hpending : record.entry.pendingCommandsAfter = record.entry.pendingCommandsBefore + 1) :
    validateRecordInvariants record = .ok () := by
  have hmatch : expectedRejectionCode CommandQueueOutcome.accepted = some .none := by decide
  simp only [validateRecordInvariants, hcode, houtcome, hmatch, hsequence, hpending, hcount,
    UInt64.not_le.mpr hless, decide_true, ne_eq, not_true_eq_false, if_false, if_true, or_self,
    and_false, bind, Except.bind, pure, Except.pure]

/-- INTERNAL: the record of a refusal, by the session or by the world, decodes. -/
theorem recordOk_rejected {log : CommandEvidenceLog} {s : Exchange}
    {fingerprint : StateFingerprint} {command : CommandEnvelope} {code : CommandRejectionCode}
    {outcome : CommandQueueOutcome} (hknown : isKnownRejectionCode code = true)
    (houtcome : isKnownQueueOutcome outcome = true) (hcode : code ≠ .none)
    (hne : outcome ≠ .accepted)
    (hexpected : ∀ expected, expectedRejectionCode outcome = some expected → expected = code) :
    RecordOk (nextRecord log (evidenceEntry s s fingerprint command code outcome)) :=
  ⟨hknown, houtcome, command.payload.entityId.nonzero,
    validateRecordInvariants_rejected hcode hne hexpected rfl rfl⟩

/-- INTERNAL: the world's refusals are known, and the decoder expects the same codes. -/
theorem queueResult_known {queueResult : QueueCommandResult} (hne : queueResult ≠ .accepted) :
    isKnownRejectionCode (commandRejectionFromQueueResult queueResult) = true ∧
      isKnownQueueOutcome (commandQueueOutcome queueResult) = true ∧
      commandQueueOutcome queueResult ≠ .accepted ∧
      expectedRejectionCode (commandQueueOutcome queueResult) =
        some (commandRejectionFromQueueResult queueResult) := by
  cases queueResult with
  | accepted => exact absurd rfl hne
  | _ => decide

/-- **A submission that returned** has appended one record, which says what it saw and did
and which the decoder accepts.
SRC: authoritative_command_pipeline.cpp:94-184, command_evidence.cpp:263-331 -/
theorem SubmitStep.recorded {s s' : Exchange} {command : CommandEnvelope}
    {result : CommandSubmissionResult} (h : Sound s.world)
    (hstep : SubmitStep s command (.submitted result) s') :
    ∃ entry, Recorded s command result s' entry ∧
      RecordOk (nextRecord s.pipeline.evidence entry) := by
  have hbefore := toNat_pendingCount h.fits
  have hafter := toNat_pendingCount (hstep.sound h).fits
  cases hstep with
  | refused fingerprint code hfp hcode hne hroom =>
    refine ⟨_, ⟨rfl, hroom, hfp, rfl, rfl, rfl, rfl, hbefore, hafter, rfl, rfl⟩,
      recordOk_rejected (hcode ▸ isKnown_admissionDecision _ _ _) (by decide) hne (by decide) ?_⟩
    intro expected hexpected
    exact absurd hexpected (by decide +revert)
  | declined fingerprint queueResult hfp hcode hqueue hne hroom =>
    obtain ⟨hknown, houtcome, hrefused, hexpected⟩ := queueResult_known hne
    refine ⟨_, ⟨rfl, hroom, hfp, rfl, rfl, rfl, rfl, hbefore, hafter, rfl, rfl⟩,
      recordOk_rejected hknown houtcome (commandRejectionFromQueueResult_eq_none.not.mpr hne)
        hrefused fun expected hsome => ?_⟩
    exact Option.some.inj (hsome.symm.trans hexpected)
  | accepted fingerprint hfp hcode hqueue hroom hqueueRoom =>
    have hless := (admissionDecision_eq_none.mp hcode).2
    have hknown : isKnownRejectionCode .none = true := by decide
    have houtcome : isKnownQueueOutcome .accepted = true := by decide
    refine ⟨_, ⟨rfl, hroom, hfp, rfl, rfl, rfl, rfl, hbefore, hafter, rfl, rfl⟩, hknown, houtcome,
      command.payload.entityId.nonzero,
      validateRecordInvariants_accepted rfl rfl rfl hless (fun hmax => ?_) ?_⟩
    · have hcount := (congrArg UInt64.toNat hmax).symm.trans hbefore
      have hmaximum := vectorMaxSize_lt World.velocityCommandSize
      change 2 ^ 64 - 1 = s.world.pendingCommands.length at hcount
      omega
    · change UInt64.ofNat (withCommand s.world _).pendingCommands.length =
        UInt64.ofNat s.world.pendingCommands.length + 1
      rw [length_withCommand, UInt64.ofNat_add]
      rfl

/-! ## The decision -/

/-- What an accepted submission has changed: the session's sequence, the two marks of the
entity, and one more command in the queue. -/
structure Committed (s : Exchange) (command : CommandEnvelope) (s' : Exchange) : Prop where
  session : s'.session = { s.session with highestAcceptedSequence := command.sequence }
  world : s'.world = { s.world with
    pendingCommands := s'.world.pendingCommands
    highestSequence := s.world.highestSequence.insert command.payload.entityId command.sequence
    latestTargetTick :=
      s.world.latestTargetTick.insert command.payload.entityId command.targetTick }
  queue : s'.world.pendingCommands.Perm
    (CommandSession.translate command :: s.world.pendingCommands)

/-- A submission that was answered by a result returned it. -/
theorem submit_of_answer {s : Exchange} {command : CommandEnvelope}
    {result : CommandSubmissionResult}
    (h : Exchange.machine.answer (.submit command) s = .submitted result) :
    AuthoritativeCommandPipeline.submit command s =
      .ok result (Exchange.machine.next (.submit command) s) := by
  simp only [Machine.answer, Machine.next, Exchange.machine, Member.call] at h ⊢
  cases hrun : AuthoritativeCommandPipeline.submit command s with
  | ok a s' =>
    rw [hrun] at h
    cases h
    rfl
  | error fault s' =>
    rw [hrun] at h
    cases h

/-- **A submission is all or nothing and decides exactly.**  To a reachable world, while
neither the log nor the queue is at its maximum size, a submission returns; it accepts
exactly the admissible envelopes; an accepted one changes the session's sequence, the
queue and the entity's two marks, and a refused one changes neither session nor world;
and the log gets one record that says so.
SRC: authoritative_command_pipeline.cpp:94-184 -/
theorem submission_decides {s : Exchange} (hreach : s.world.Reachable)
    (hlog : s.pipeline.evidence.records.length < vectorMaxSize commandEvidenceRecordSize)
    (hqueue : s.world.pendingCommands.length < vectorMaxSize World.velocityCommandSize)
    (command : CommandEnvelope) :
    ∃ result s', AuthoritativeCommandPipeline.submit command s = .ok result s' ∧
      (result.accepted = true ↔ Admissible s.session s.world command) ∧
      (result.accepted = true → Committed s command s') ∧
      (result.accepted = false → s'.session = s.session ∧ s'.world = s.world) ∧
      ∃ entry, Recorded s command result s' entry := by
  have h := reachable_sound hreach
  have hstep := submitStep h hlog.le command
  have hreturned : ∀ result, Exchange.machine.answer (.submit command) s = .submitted result →
      AuthoritativeCommandPipeline.submit command s =
        .ok result (Exchange.machine.next (.submit command) s) := fun _ => submit_of_answer
  generalize Exchange.machine.answer (.submit command) s = answer at hstep hreturned
  generalize Exchange.machine.next (.submit command) s = s' at hstep hreturned
  have hrecorded : ∀ result, answer = .submitted result →
      ∃ entry, Recorded s command result s' entry := by
    rintro result rfl
    obtain ⟨entry, hentry, -⟩ := hstep.recorded h
    exact ⟨entry, hentry⟩
  rw [← admissible_iff]
  cases hstep with
  | logFull full => exact absurd full hlog.ne
  | queueFull _ full => exact absurd hqueue full
  | refused fingerprint code hfp hcode hne =>
    have hrefused : decide (code = .none) = false := decide_eq_false hne
    refine ⟨_, _, hreturned _ rfl, ?_, ?_, fun _ => ⟨rfl, rfl⟩, hrecorded _ rfl⟩
    · simp [CommandSubmissionResult.accepted, hcode, hne]
    · intro haccepted
      exact absurd (hrefused.symm.trans haccepted) (by decide)
  | declined fingerprint queueResult hfp hcode hdecision hne =>
    have hrefused : decide (commandRejectionFromQueueResult queueResult = .none) = false :=
      decide_eq_false (commandRejectionFromQueueResult_eq_none.not.mpr hne)
    refine ⟨_, _, hreturned _ rfl, ?_, ?_, fun _ => ⟨rfl, rfl⟩, hrecorded _ rfl⟩
    · simp [CommandSubmissionResult.accepted, hdecision, hne,
        commandRejectionFromQueueResult_eq_none]
    · intro haccepted
      exact absurd (hrefused.symm.trans haccepted) (by decide)
  | accepted fingerprint hfp hcode hdecision =>
    refine ⟨_, _, hreturned _ rfl, ?_, fun _ => ⟨rfl, rfl, ?_⟩, ?_, hrecorded _ rfl⟩
    · simp [CommandSubmissionResult.accepted, hcode, hdecision]
    · exact (sortCommands_perm _).trans List.perm_append_comm
    · intro hrefused
      exact absurd hrefused (by simp [CommandSubmissionResult.accepted])

/-! ## A sample -/

/-- A world of hundred-millisecond ticks with one entity at rest. -/
def sampleWorld : World :=
  World.machine.final (freshWorld ⟨100000⟩ {}) [.addEntity (originEntity sampleEntityId 0)]

theorem sampleWorld_reachable : sampleWorld.Reachable := ⟨⟨100000⟩, {}, _, _, rfl, rfl⟩

/-- A session that has accepted nothing, with the default policy. -/
def sampleSession : CommandSession where
  clientId := ⟨1⟩
  sessionId := ⟨1⟩
  validator := ⟨{}, by decide, by decide⟩
  client_valid := by decide
  session_valid := by decide

/-- That session and that world with an empty log. -/
abbrev sampleExchange : Exchange where
  session := sampleSession
  world := sampleWorld

/-- A command for that entity and the next tick. -/
def sampleEnvelope : CommandEnvelope where
  clientId := ⟨1⟩
  sessionId := ⟨1⟩
  sequence := 1
  targetTick := 1
  payload := { entityId := sampleEntityId, velocity := ⟨⟨1000⟩, ⟨0⟩⟩ }

theorem sampleEnvelope_admissible : Admissible sampleSession sampleWorld sampleEnvelope where
  schemaVersion := rfl
  type := rfl
  clientId := by decide
  sessionId := by decide
  sequence := by decide
  future := by decide
  near := by decide
  sessionVelocity := by decide
  worldVelocity := by decide
  known := by decide
  entitySequence := by decide
  entityTarget := by decide

/-- That command is accepted there. -/
theorem submission_decides_sample :
    ∃ result s', AuthoritativeCommandPipeline.submit sampleEnvelope sampleExchange =
        .ok result s' ∧ result.accepted = true ∧ Committed sampleExchange sampleEnvelope s' := by
  obtain ⟨result, s', hrun, hdecides, hcommitted, -⟩ := submission_decides (s := sampleExchange)
    sampleWorld_reachable (by decide) (by decide) sampleEnvelope
  have haccepted := hdecides.mpr sampleEnvelope_admissible
  exact ⟨result, s', hrun, haccepted, hcommitted haccepted⟩

end Tickline.Analysis
