import Mathlib.Data.List.DropRight
import Tickline.Analysis.PipelineLog
import Tickline.Analysis.Regeneration

/-!
# Replay completeness

The log of every run from a reachable world is verified by a replay with enough budget.
`Retraced` says where a run stands towards its replay: the log regenerates up to the last
submission, and the ticks that have succeeded since are still to be made up for, because
the replay ticks only when the next record asks for it.  Every call keeps it
(`retraced_run`).

Only exhausted memory can come in between: a submission that throws with both marks of an
entity written leaves no record.  `memorySuffices` bounds where that can happen.
-/

set_option autoImplicit false

namespace Tickline.Analysis

open Tickline.Library Tickline.Model Tickline.Model.CommandEvidenceReplayer

/-- The envelope that a call submits. -/
def envelope? : ExchangeCall → Option CommandEnvelope
  | .submit command => some command
  | .advance => none

/-! ## Retracing a run -/

/-- A run up to and including its last submission. -/
def throughLastSubmission (calls : List ExchangeCall) : List ExchangeCall :=
  calls.rdropWhile fun call => call = .advance

/-- Where a run stands towards its own replay: the records so far regenerate in `n` ticks up
to the last submission, and `m` more ticks have succeeded since. -/
structure Retraced (start last s : Exchange) (submissions n m : ℕ) : Prop where
  sound : Sound s.world
  lastSound : Sound last.world
  fits : LogFits s.pipeline.evidence
  linked : evidenceChain.Linked 0 genesisDigest s.pipeline.evidence.records
    s.pipeline.evidence.headDigest
  count : s.pipeline.evidence.records.length = submissions
  pipeline : s.pipeline = last.pipeline
  session : s.session = last.session
  ticks : advanceSteps m last.world = .ok () s.world
  tick : s.world.currentTick.index.toNat = last.world.currentTick.index.toNat + m
  regenerates : Regenerates start s.pipeline.evidence.records n last
  spent : last.world.currentTick.index.toNat = start.world.currentTick.index.toNat + n

/-- INTERNAL: one more tick behind the others. -/
theorem advanceSteps_concat {m : ℕ} {world next : World} {world' : World} {tick : Tick}
    (h : advanceSteps m world = .ok () next) (hadvance : World.advance next = .ok tick world') :
    advanceSteps (m + 1) world = .ok () world' := by
  induction m generalizing world with
  | zero =>
    cases h
    exact Member.bind_ok hadvance
  | succ m ih =>
    obtain ⟨first, between, hfirst, hrest⟩ := bind_eq_ok h
    rw [advanceSteps, Member.bind_ok hfirst]
    exact ih hrest

/-- Regenerating one more record. -/
theorem Regenerates.concat {start s s' : Exchange} {records : List CommandEvidenceRecord} {n : ℕ}
    (h : Regenerates start records n s) (record : CommandEvidenceRecord) {world : World}
    {result : CommandSubmissionResult}
    (past : s.world.currentTick.index ≤ record.entry.observedTick)
    (ticks : advanceSteps (requiredAdvances s record) s.world = .ok () world)
    (observed : Observed { s with world } record)
    (submitted : AuthoritativeCommandPipeline.submit record.entry.envelope { s with world } =
      .ok result s')
    (log : s'.pipeline.evidence =
      ⟨s.pipeline.evidence.records ++ [record], digestCommandEvidence record⟩) :
    Regenerates start (records ++ [record]) (n + requiredAdvances s record) s' := by
  induction h with
  | done s =>
    rw [Nat.zero_add]
    exact .round past ticks observed submitted log (.done s')
  | round past' ticks' observed' submitted' log' _ ih =>
    rw [Nat.add_assoc]
    exact .round past' ticks' observed' submitted' log'
      (ih past ticks observed submitted log)

/-- A submission leaves the clock. -/
theorem SubmitStep.currentTick {s s' : Exchange} {command : CommandEnvelope} {answer : Answer}
    (hstep : SubmitStep s command answer s') :
    s'.world.currentTick.index = s.world.currentTick.index := by
  cases hstep <;> rfl

section Retraced

variable {start last s s' : Exchange} {submissions n m : ℕ}

/-- A tick that succeeds is owed to the next submission. -/
theorem Retraced.advanced (h : Retraced start last s submissions n m) {world' : World}
    (hrun : World.advance s.world = .ok world'.currentTick world')
    (hadv : Advanced s.world world') :
    Retraced start last { s with world := world' } submissions n (m + 1) where
  sound := ⟨hadv.invariant h.sound.invariant,
    (WorldStep.advanced world' hadv).fits h.sound.fits⟩
  lastSound := h.lastSound
  fits := h.fits
  linked := h.linked
  count := h.count
  pipeline := h.pipeline
  session := h.session
  ticks := advanceSteps_concat h.ticks hrun
  tick := by
    have hnext : world'.currentTick.index.toNat = s.world.currentTick.index.toNat + 1 :=
      hadv.tickIndex
    rw [hnext, h.tick, Nat.add_assoc]
  regenerates := h.regenerates
  spent := h.spent

/-- **A submission of the run** is the next round of its replay: the replay ticks up to it
from the last submission and finds the state that the run found. -/
theorem Retraced.submitted (h : Retraced start last s submissions n m)
    {command : CommandEnvelope} {result : CommandSubmissionResult}
    (hrun : AuthoritativeCommandPipeline.submit command s = .ok result s')
    (hstep : SubmitStep s command (.submitted result) s') :
    Retraced start s' s' (submissions + 1) (n + m) 0 := by
  obtain ⟨entry, hrec, -⟩ := hstep.recorded h.sound
  have hsame : ({ last with world := s.world } : Exchange) = s := by
    rw [← h.pipeline, ← h.session]
  have htick : s'.world.currentTick.index = s.world.currentTick.index := hstep.currentTick
  have hpast : last.world.currentTick.index ≤ entry.observedTick := by
    rw [hrec.observedTick, UInt64.le_iff_toNat_le, h.tick]
    exact Nat.le_add_right _ _
  have hrequired : requiredAdvances last (nextRecord s.pipeline.evidence entry) = m := by
    rw [requiredAdvances, nextRecord, UInt64.toNat_sub_of_le _ _ hpast, hrec.observedTick, h.tick]
    exact Nat.add_sub_cancel_left _ _
  have hobserved : Observed s (nextRecord s.pipeline.evidence entry) :=
    ⟨hrec.sessionBefore.symm, hrec.pendingBefore.symm, hrec.fingerprint⟩
  have hregen := h.regenerates.concat (nextRecord s.pipeline.evidence entry) hpast
    (hrequired.symm ▸ h.ticks) (hsame.symm ▸ hobserved) (hsame.symm ▸ hrec.envelope.symm ▸ hrun)
    (h.pipeline ▸ hrec.log)
  rw [hrequired] at hregen
  exact {
    sound := hstep.sound h.sound
    lastSound := hstep.sound h.sound
    fits := hstep.logFits h.fits
    linked := hrec.log ▸ linked_appended entry hrec.room h.linked
    count := by rw [hrec.log, appended, List.length_append, h.count, List.length_singleton]
    pipeline := rfl
    session := rfl
    ticks := rfl
    tick := rfl
    regenerates := hrec.log ▸ hregen
    spent := by rw [htick, h.tick, h.spent, Nat.add_assoc] }

/-- **A run that is retraced is verified** by a replay with enough budget, and the replay
reports the last submission. -/
theorem Retraced.replay_eq {session : CommandSession} {world : World}
    (h : Retraced { session, world } last s submissions n m) (policy : CommandEvidenceReplayPolicy)
    (hbudget : n ≤ policy.maximumTickAdvances.toNat) :
    ∃ result, replay policy session world s.pipeline.evidence.records
        s.pipeline.evidence.headDigest = .ok result ∧ result.code = .verified ∧
      makeResult .verified submissions none (UInt64.ofNat n) last = .ok result := by
  obtain ⟨fingerprint, hfp⟩ := fingerprintWorldState_ok h.lastSound
  have hn : (UInt64.ofNat n).toNat = n := by
    have hlt := policy.maximumTickAdvances.toNat_lt
    rw [UInt64.toNat_ofNat']
    exact Nat.mod_eq_of_lt (by omega)
  have hle : UInt64.ofNat n ≤ policy.maximumTickAdvances := by
    rwa [UInt64.le_iff_toNat_le, hn]
  have hchain : verifyCommandEvidenceChain s.pipeline.evidence.records
      s.pipeline.evidence.headDigest = true :=
    verifyCommandEvidenceChain_iff.mpr ⟨h.fits.trans (vectorMaxSize_lt _).le, h.linked⟩
  obtain ⟨result, hresult⟩ : ∃ result, makeResult .verified s.pipeline.evidence.records.length none
      (UInt64.ofNat n) last = .ok result := ⟨_, makeResult_eq_ok.mpr ⟨fingerprint, hfp, rfl⟩⟩
  obtain ⟨hreplay, hverified⟩ :=
    replay_iff.mpr ⟨hchain, n, last, _, h.regenerates, hn, hle, hresult⟩
  exact ⟨_, hreplay, hverified, h.count ▸ hresult⟩

end Retraced

/-- No call failed to get memory. -/
def MemorySuffices (s : Exchange) (calls : List ExchangeCall) : Prop :=
  ∀ entry ∈ Exchange.machine.trace s calls, ∀ what, entry.2 ≠ .threw (.lengthError what)

theorem MemorySuffices.cons {s : Exchange} {call : ExchangeCall} {calls : List ExchangeCall}
    (hanswer : ∀ what, Exchange.machine.answer call s ≠ .threw (.lengthError what))
    (hrest : MemorySuffices (Exchange.machine.next call s) calls) :
    MemorySuffices s (call :: calls) := by
  rw [MemorySuffices, Machine.trace_cons, List.forall_mem_cons]
  exact ⟨hanswer, hrest⟩

/-- **Every run is retraced.**  By induction on the calls: a tick that succeeds is owed to
the next submission, a tick that fails is no call at all, a submission is the next round. -/
theorem retraced_run {session : CommandSession} {world : World} (h : Sound world)
    {calls : List ExchangeCall} (hmemory : MemorySuffices { session, world } calls) :
    ∃ n m, Retraced { session, world }
      (Exchange.machine.final { session, world } (throughLastSubmission calls))
      (Exchange.machine.final { session, world } calls) (calls.filterMap envelope?).length n m := by
  induction calls using List.reverseRecOn with
  | nil =>
    exact ⟨0, 0, h, h, Nat.zero_le _, rfl, rfl, rfl, rfl, rfl, rfl, .done _, rfl⟩
  | append_singleton calls call ih =>
    rw [MemorySuffices, Machine.trace_append] at hmemory
    obtain ⟨n, m, hretraced⟩ := ih fun entry hentry => hmemory entry (List.mem_append_left _ hentry)
    have hcall := hmemory _ (List.mem_append_right _ (List.mem_cons_self ..))
    rw [Machine.final_append, List.filterMap_append, List.length_append]
    cases call with
    | advance =>
      rw [throughLastSubmission, List.rdropWhile_concat_pos _ _ _ (by decide)]
      generalize Exchange.machine.final { session, world } calls = s at hretraced ⊢
      rcases advance_eq hretraced.sound.invariant with ⟨world', hrun, hadv⟩ | ⟨what, hrun, -⟩
      · have hnext : Exchange.machine.next .advance s = { s with world := world' } :=
          congrArg Prod.snd (call_ok (onWorld_ok hrun))
        rw [Machine.final_cons, hnext]
        exact ⟨n, m + 1, hretraced.advanced hrun hadv⟩
      · have hnext : Exchange.machine.next .advance s = s :=
          congrArg Prod.snd (call_error (onWorld_error hrun))
        rw [Machine.final_cons, hnext]
        exact ⟨n, m, hretraced⟩
    | submit command =>
      rw [throughLastSubmission, List.rdropWhile_concat_neg _ _ _ (by simp), Machine.final_append]
      generalize Exchange.machine.final { session, world } calls = s at hretraced hcall ⊢
      have hstep := submitStep hretraced.sound hretraced.fits command
      rcases hstep.answer_cases with ⟨result, hanswer⟩ | ⟨what, hanswer⟩
      · rw [hanswer] at hstep
        exact ⟨n + m, 0, hretraced.submitted (submit_of_answer hanswer) hstep⟩
      · exact absurd hanswer (hcall what)

/-- **Replay completeness.**  Of every run from a reachable world, with ticks that succeed
or throw and submissions in any order, the log is verified by a replay whose budget covers
the ticks up to the last submission; the replay processes every submission, ends at the
log's head and reports the session, the queue and the world right after the last one.
SRC: command_evidence_replay.cpp:42-222, authoritative_command_pipeline.cpp:94-184 -/
theorem replay_complete {session : CommandSession} {world : World} (hreach : world.Reachable)
    {calls : List ExchangeCall} (hmemory : MemorySuffices { session, world } calls)
    (policy : CommandEvidenceReplayPolicy)
    (hbudget : (Exchange.machine.final { session, world }
        (throughLastSubmission calls)).world.currentTick.index.toNat -
      world.currentTick.index.toNat ≤ policy.maximumTickAdvances.toNat) :
    let log := (Exchange.machine.final { session, world } calls).pipeline.evidence
    let last := Exchange.machine.final { session, world } (throughLastSubmission calls)
    ∃ result, replay policy session world log.records log.headDigest = .ok result ∧
      result.code = .verified ∧
      result.processedRecords = (calls.filterMap envelope?).length ∧
      result.replayedHeadDigest = log.headDigest ∧
      result.finalTick = last.world.currentTick.index ∧
      result.finalSessionSequence = last.session.highestAcceptedSequence ∧
      result.finalPendingCommandCount = last.world.pendingCommandCount ∧
      fingerprintWorldState last.world = .ok result.finalWorldFingerprint := by
  intro log last
  obtain ⟨n, m, hretraced⟩ := retraced_run (reachable_sound hreach) hmemory
  have hn : n ≤ policy.maximumTickAdvances.toNat := by
    rw [hretraced.spent, Nat.add_sub_cancel_left] at hbudget
    exact hbudget
  obtain ⟨result, hreplay, hverified, hresult⟩ := hretraced.replay_eq policy hn
  obtain ⟨fingerprint, hfp, rfl⟩ := makeResult_eq_ok.mp hresult
  exact ⟨_, hreplay, hverified, rfl, congrArg (·.evidence.headDigest) hretraced.pipeline.symm, rfl,
    rfl, rfl, hfp⟩

/-! ## Memory -/

/-- What a submission needs: room for one record and for one command. -/
theorem SubmitStep.room {s s' : Exchange} {command : CommandEnvelope} {answer : Answer}
    (hstep : SubmitStep s command answer s')
    (hlog : s.pipeline.evidence.records.length < vectorMaxSize commandEvidenceRecordSize)
    (hqueue : s.world.pendingCommands.length < vectorMaxSize World.velocityCommandSize) :
    (∃ result, answer = .submitted result) ∧
      s'.pipeline.evidence.records.length = s.pipeline.evidence.records.length + 1 ∧
      s'.world.pendingCommands.length ≤ s.world.pendingCommands.length + 1 := by
  have happended : ∀ entry, (appended s.pipeline.evidence entry).records.length =
      s.pipeline.evidence.records.length + 1 := fun entry => by
    rw [appended, List.length_append, List.length_singleton]
  cases hstep with
  | logFull full => exact absurd full hlog.ne
  | queueFull _ full => exact absurd hqueue full
  | refused => exact ⟨⟨_, rfl⟩, happended _, Nat.le_succ _⟩
  | declined => exact ⟨⟨_, rfl⟩, happended _, Nat.le_succ _⟩
  | accepted => exact ⟨⟨_, rfl⟩, happended _, (length_withCommand _ _).le⟩

/-- **Memory suffices** for a run that is not longer than the room in the log and the queue. -/
theorem memorySuffices {s : Exchange} (h : Sound s.world) {calls : List ExchangeCall}
    (hlog : s.pipeline.evidence.records.length + calls.length ≤
      vectorMaxSize commandEvidenceRecordSize)
    (hqueue : s.world.pendingCommands.length + calls.length ≤
      vectorMaxSize World.velocityCommandSize) : MemorySuffices s calls := by
  induction calls generalizing s with
  | nil => simp [MemorySuffices]
  | cons call calls ih =>
    rw [List.length_cons] at hlog hqueue
    cases call with
    | submit command =>
      have hstep := submitStep h (Nat.le_of_add_right_le hlog) command
      obtain ⟨⟨result, hanswer⟩, hlog', hqueue'⟩ := hstep.room (by omega) (by omega)
      apply MemorySuffices.cons
      · rw [hanswer]
        simp
      · exact ih (hstep.sound h) (by omega) (by omega)
    | advance =>
      rcases advance_eq h.invariant with ⟨world', hrun, hadv⟩ | ⟨fault, hrun, -⟩
      · have hcall : Exchange.machine.perform .advance s =
            (.advanced world'.currentTick, { s with world := world' }) := call_ok (onWorld_ok hrun)
        have hworld := WorldStep.advanced world' hadv
        have hfewer : world'.pendingCommands.length ≤ s.world.pendingCommands.length := by
          rw [hadv.pendingCommands]
          exact List.length_filter_le _ _
        apply MemorySuffices.cons
        · rw [Machine.answer, hcall]
          simp
        · rw [Machine.next, hcall]
          exact ih ⟨hworld.invariant h.invariant, hworld.fits h.fits⟩ (by simp only; omega)
            (by simp only; omega)
      · have hcall : Exchange.machine.perform .advance s = (.threw (.overflowError fault), s) :=
          call_error (onWorld_error hrun)
        apply MemorySuffices.cons
        · rw [Machine.answer, hcall]
          simp
        · have hrest := ih h (by omega) (by omega)
          rw [Machine.next, hcall]
          exact hrest

/-! ## A sample -/

/-- Submit, tick and submit again. -/
def sampleRun : List ExchangeCall := [.submit sampleEnvelope, .advance, .submit sampleEnvelope]

theorem sampleRun_memorySuffices : MemorySuffices sampleExchange sampleRun :=
  memorySuffices (reachable_sound sampleWorld_reachable) (by decide) (by decide)

/-- The last submission of the sample run is one tick after its start. -/
theorem sampleRun_tick : (Exchange.machine.final sampleExchange
    (throughLastSubmission sampleRun)).world.currentTick.index = 1 := by
  decide +kernel

/-- The log of the sample run is verified with the default budget. -/
theorem replay_complete_sample :
    let log := (Exchange.machine.final sampleExchange sampleRun).pipeline.evidence
    ∃ result, replay {} sampleSession sampleWorld log.records log.headDigest = .ok result ∧
      result.code = .verified ∧ result.processedRecords = 2 := by
  have hbudget : (Exchange.machine.final sampleExchange
      (throughLastSubmission sampleRun)).world.currentTick.index.toNat -
        sampleWorld.currentTick.index.toNat ≤ 1000000 := by
    rw [sampleRun_tick]
    decide
  obtain ⟨result, hreplay, hverified, hprocessed, -⟩ :=
    replay_complete sampleWorld_reachable sampleRun_memorySuffices {} hbudget
  exact ⟨result, hreplay, hverified, hprocessed⟩

end Tickline.Analysis
