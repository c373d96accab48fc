import Tickline.Analysis.ReplayCompleteness

/-!
# Replay soundness

Whatever records a replay verifies, forged or not, are the log of a run from the initial
session and world.  `Regenerates.run` turns the rounds of the loop into calls, and
`Regenerates.head` shows that the head is the one the records are linked to.
-/

set_option autoImplicit false

namespace Tickline.Analysis

open Tickline.Library Tickline.Model Tickline.Model.CommandEvidenceReplayer

/-! ## Rounds as calls -/

/-- A run in which every call returned. -/
def Returns (s : Exchange) (calls : List ExchangeCall) : Prop :=
  ∀ entry ∈ Exchange.machine.trace s calls, entry.2.returned = true

/-- Runs that return, one behind the other. -/
theorem Returns.append {s : Exchange} {calls calls' : List ExchangeCall} (h : Returns s calls)
    (h' : Returns (Exchange.machine.final s calls) calls') : Returns s (calls ++ calls') := by
  rw [Returns, Machine.trace_append, List.forall_mem_append]
  exact ⟨h, h'⟩

theorem Returns.cons {s : Exchange} {call : ExchangeCall} {calls : List ExchangeCall}
    (hanswer : (Exchange.machine.answer call s).returned = true)
    (hrest : Returns (Exchange.machine.next call s) calls) : Returns s (call :: calls) := by
  rw [Returns, Machine.trace_cons, List.forall_mem_cons]
  exact ⟨hanswer, hrest⟩

/-- The ticks of a replay as calls. -/
theorem advanceSteps_run {n : ℕ} {s : Exchange} {world : World}
    (h : advanceSteps n s.world = .ok () world) :
    Exchange.machine.final s (List.replicate n .advance) = { s with world } ∧
      Returns s (List.replicate n .advance) := by
  induction n generalizing s with
  | zero =>
    cases h
    exact ⟨rfl, by simp [Returns]⟩
  | succ n ih =>
    obtain ⟨tick, next, hadvance, hrest⟩ := bind_eq_ok h
    have hcall : Exchange.machine.perform .advance s =
        (.advanced tick, { s with world := next }) := call_ok (onWorld_ok hadvance)
    have hnext : Exchange.machine.next .advance s = { s with world := next } := by
      rw [Machine.next, hcall]
    have hanswer : Exchange.machine.answer .advance s = .advanced tick := by
      rw [Machine.answer, hcall]
    obtain ⟨hfinal, hreturns⟩ := ih (s := { s with world := next }) hrest
    rw [List.replicate_succ]
    constructor
    · rw [Machine.final_cons, hnext, hfinal]
    · apply Returns.cons
      · rw [hanswer]
        rfl
      · rwa [hnext]

/-- **Regenerating is a run** of ticks that succeed and of submissions of the envelopes. -/
theorem Regenerates.run {s t : Exchange} {records : List CommandEvidenceRecord} {n : ℕ}
    (h : Regenerates s records n t) :
    ∃ calls, Exchange.machine.final s calls = t ∧ Returns s calls ∧
      calls.filterMap envelope? = records.map (·.entry.envelope) ∧ calls.count .advance = n ∧
      t.pipeline.evidence.records = s.pipeline.evidence.records ++ records := by
  induction h with
  | done s => exact ⟨[], rfl, by simp [Returns], rfl, rfl, (List.append_nil _).symm⟩
  | @round s s' t world record rest result n past ticks observed submitted log _ ih =>
    obtain ⟨calls, hfinal, hreturns, henvelopes, hcount, hrecords⟩ := ih
    obtain ⟨hticks, hticksReturn⟩ := advanceSteps_run ticks
    have hcall : Exchange.machine.perform (.submit record.entry.envelope) { s with world } =
        (.submitted result, s') := call_ok submitted
    have hnext : Exchange.machine.next (.submit record.entry.envelope) { s with world } = s' := by
      rw [Machine.next, hcall]
    have hanswer : Exchange.machine.answer (.submit record.entry.envelope) { s with world } =
        .submitted result := by
      rw [Machine.answer, hcall]
    refine ⟨List.replicate (requiredAdvances s record) .advance ++
      .submit record.entry.envelope :: calls, ?_, hticksReturn.append ?_, ?_, ?_, ?_⟩
    · rw [Machine.final_append, hticks, Machine.final_cons, hnext, hfinal]
    · rw [hticks]
      apply Returns.cons
      · rw [hanswer]
        rfl
      · rwa [hnext]
    · rw [List.filterMap_append, List.filterMap_replicate_of_none rfl, List.filterMap_cons,
        List.nil_append]
      simp only [envelope?, henvelopes, List.map_cons]
    · rw [List.count_append, List.count_replicate_self, List.count_cons, hcount]
      simp
    · rw [hrecords, log]
      simp

/-- The head after regenerating is the head that the records are linked to. -/
theorem Regenerates.head {s t : Exchange} {records : List CommandEvidenceRecord} {n index : ℕ}
    (h : Regenerates s records n t) {head : Sha256Digest}
    (hlinked : evidenceChain.Linked index s.pipeline.evidence.headDigest records head) :
    t.pipeline.evidence.headDigest = head := by
  induction h generalizing index with
  | done s => exact hlinked
  | @round s s' t world record rest result n past ticks observed submitted log _ ih =>
    have hrest : evidenceChain.Linked (index + 1) s'.pipeline.evidence.headDigest rest head := by
      rw [log]
      exact hlinked.2.2
    exact ih hrest

/-- **Replay soundness.**  When a replay of records under a head is verified, the records
and the head are those of a run from the initial session and world, in which every call
returned, the submissions are of the records' envelopes in order, and the ticks are within
the budget; and the result reports the end of that run.
SRC: command_evidence_replay.cpp:42-222 -/
theorem replay_sound {policy : CommandEvidenceReplayPolicy} {session : CommandSession}
    {world : World} {records : List CommandEvidenceRecord} {head : Sha256Digest}
    {result : CommandEvidenceReplayResult}
    (hreplay : replay policy session world records head = .ok result)
    (hverified : result.verified = true) :
    ∃ calls, let last := Exchange.machine.final { session, world } calls
      Returns { session, world } calls ∧
      calls.filterMap envelope? = records.map (·.entry.envelope) ∧
      calls.count .advance ≤ policy.maximumTickAdvances.toNat ∧
      last.pipeline.evidence = { records, headDigest := head } ∧
      result.finalTick = last.world.currentTick.index ∧
      result.finalSessionSequence = last.session.highestAcceptedSequence ∧
      result.finalPendingCommandCount = last.world.pendingCommandCount ∧
      fingerprintWorldState last.world = .ok result.finalWorldFingerprint := by
  obtain ⟨hchain, n, t, performed, hregen, hn, hbudget, hresult⟩ :=
    replay_iff.mp ⟨hreplay, of_decide_eq_true hverified⟩
  obtain ⟨fingerprint, hfp, rfl⟩ := makeResult_eq_ok.mp hresult
  obtain ⟨calls, hfinal, hreturns, henvelopes, hcount, hrecords⟩ := hregen.run
  have hhead : t.pipeline.evidence.headDigest = head :=
    hregen.head (verifyCommandEvidenceChain_iff.mp hchain).2
  refine ⟨calls, ?_⟩
  intro last
  have hlast : last = t := hfinal
  rw [hlast]
  refine ⟨hreturns, henvelopes, ?_, ?_, rfl, rfl, rfl, hfp⟩
  · rw [hcount, ← hn]
    exact UInt64.le_iff_toNat_le.mp hbudget
  · rw [← hhead, ← hrecords.trans (List.nil_append records)]

/-- The verified replay of the sample run is of a run with that log. -/
theorem replay_sound_sample :
    ∃ calls, Returns { session := sampleSession, world := sampleWorld } calls ∧
      (Exchange.machine.final { session := sampleSession, world := sampleWorld }
          calls).pipeline.evidence =
        (Exchange.machine.final { session := sampleSession, world := sampleWorld }
          sampleRun).pipeline.evidence := by
  obtain ⟨n, m, hretraced⟩ :=
    retraced_run (reachable_sound sampleWorld_reachable) sampleRun_memorySuffices
  have hn : n ≤ ({} : CommandEvidenceReplayPolicy).maximumTickAdvances.toNat := by
    have hspent : (1 : UInt64).toNat = sampleWorld.currentTick.index.toNat + n :=
      (congrArg UInt64.toNat sampleRun_tick).symm.trans hretraced.spent
    have hle : n ≤ (1 : UInt64).toNat := by
      rw [hspent]
      exact Nat.le_add_left _ _
    exact hle.trans (by decide)
  obtain ⟨result, hreplay, hverified, -⟩ := hretraced.replay_eq {} hn
  obtain ⟨calls, hreturns, -, -, hlog, -⟩ := replay_sound hreplay (decide_eq_true hverified)
  exact ⟨calls, hreturns, hlog⟩

end Tickline.Analysis
