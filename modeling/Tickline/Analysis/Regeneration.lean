import Tickline.Analysis.Submission
import Tickline.Model.CommandEvidenceReplay

/-!
# What a verified replay is

`Regenerates` is the meaning of the record loop of a replay: from a state, tick to each
record's observed tick, find there the state that the record was made in, submit its
envelope, and get that very record.  `replay_iff` shows that a replay is verified exactly
when the chain check passes and the records regenerate within the tick budget.

Nothing here needs a reachable world: that a submission which returned has appended one
record (`submit_appends`) holds in whatever state.
-/

set_option autoImplicit false

namespace Tickline.Analysis

open Tickline.Library Tickline.Model Tickline.Model.CommandEvidenceReplayer

/-! ## What a verified replay is -/

/-- The state before a submission is the one its record states. -/
structure Observed (s : Exchange) (record : CommandEvidenceRecord) : Prop where
  session : s.session.highestAcceptedSequence = record.entry.sessionSequenceBefore
  pending : s.world.pendingCommandCount = record.entry.pendingCommandsBefore.toNat
  fingerprint : fingerprintWorldState s.world = .ok record.entry.worldFingerprintBefore

/-- The ticks that a replay performs before a record. -/
def requiredAdvances (s : Exchange) (record : CommandEvidenceRecord) : ℕ :=
  (record.entry.observedTick - s.world.currentTick.index).toNat

/-- From `s`, ticking to each record's observed tick and submitting its envelope makes the
records of the list, one by one, after `n` ticks in all, and ends in `t`. -/
inductive Regenerates : Exchange → List CommandEvidenceRecord → ℕ → Exchange → Prop
  | done (s : Exchange) : Regenerates s [] 0 s
  | round {s s' t : Exchange} {world : World} {record : CommandEvidenceRecord}
      {rest : List CommandEvidenceRecord} {result : CommandSubmissionResult} {n : ℕ}
      (past : s.world.currentTick.index ≤ record.entry.observedTick)
      (ticks : advanceSteps (requiredAdvances s record) s.world = .ok () world)
      (observed : Observed { s with world } record)
      (submitted : AuthoritativeCommandPipeline.submit record.entry.envelope { s with world } =
        .ok result s')
      (log : s'.pipeline.evidence =
        ⟨s.pipeline.evidence.records ++ [record], digestCommandEvidence record⟩)
      (rest_regenerates : Regenerates s' rest n t) :
      Regenerates s (record :: rest) (requiredAdvances s record + n) t

/-- What a result reports, when the fingerprint can be computed. -/
theorem makeResult_eq_ok {code : CommandEvidenceReplayCode} {processed : ℕ}
    {failed : Option UInt64} {performed : UInt64} {s : Exchange}
    {result : CommandEvidenceReplayResult} :
    makeResult code processed failed performed s = .ok result ↔
      ∃ fingerprint, fingerprintWorldState s.world = .ok fingerprint ∧ result = {
        code := code
        processedRecords := processed
        failedOrdinal := failed
        performedTickAdvances := performed
        finalTick := s.world.currentTick.index
        finalSessionSequence := s.session.highestAcceptedSequence
        finalPendingCommandCount := s.world.pendingCommandCount
        finalWorldFingerprint := fingerprint
        replayedHeadDigest := s.pipeline.evidence.headDigest } := by
  unfold makeResult
  cases fingerprintWorldState s.world with
  | error fault => simp [bind, Except.bind]
  | ok fingerprint => simp [bind, Except.bind, pure, Except.pure, eq_comm]

/-- A result has the code it was made with. -/
theorem makeResult_code {code : CommandEvidenceReplayCode} {processed : ℕ}
    {failed : Option UInt64} {performed : UInt64} {s : Exchange}
    {result : CommandEvidenceReplayResult}
    (h : makeResult code processed failed performed s = .ok result) : result.code = code := by
  obtain ⟨fingerprint, -, rfl⟩ := makeResult_eq_ok.mp h
  rfl

/-- INTERNAL: a computation that touches no object leaves it. -/
theorem lift_eq_ok {σ α : Type} {x : Except Fault α} {s s' : σ} {a : α}
    (h : (liftM x : Member σ α) s = .ok a s') : s' = s := by
  cases x with
  | ok b =>
    cases h
    rfl
  | error fault => cases h

/-- INTERNAL: a member of the world leaves the pipeline. -/
theorem onWorld_eq_ok {s s' : Exchange} {α : Type} {action : Member World α} {a : α}
    (h : Exchange.onWorld action s = .ok a s') : s'.pipeline = s.pipeline := by
  simp only [Exchange.onWorld, Member.within] at h
  cases hrun : action s.world with
  | ok b world =>
    rw [hrun] at h
    cases h
    rfl
  | error fault world =>
    rw [hrun] at h
    cases h

/-- INTERNAL: preparing the log leaves everything. -/
theorem prepareAppend_eq_ok {s s' : Exchange} {u : Unit}
    (h : Exchange.onEvidence CommandEvidenceLog.prepareAppend s = .ok u s') : s' = s := by
  rw [prepareAppend_eq] at h
  split_ifs at h
  cases h
  rfl

/-- INTERNAL: how every submission ends. -/
theorem appends_of_eq_ok {s s' : Exchange} {result returned : CommandSubmissionResult}
    {entry : Exchange → UInt64 → CommandEvidenceEntry}
    (h : (do
      let after ← get
      let pendingCommandsAfter ← checkedCount after.world.pendingCommandCount
      Exchange.onEvidence (CommandEvidenceLog.append (entry after pendingCommandsAfter))
      return result : Member Exchange CommandSubmissionResult) s = .ok returned s') :
    ∃ entry, s'.pipeline.evidence = appended s.pipeline.evidence entry := by
  obtain ⟨after, s1, e1, h1⟩ := bind_eq_ok h
  obtain ⟨pendingAfter, s2, e2, h2⟩ := bind_eq_ok h1
  obtain ⟨_, s3, e3, h3⟩ := bind_eq_ok h2
  cases e1
  obtain rfl := lift_eq_ok e2
  cases e3
  cases h3
  exact ⟨_, rfl⟩

/-- A submission that returned has appended one record, in whatever state. -/
theorem submit_appends {s s' : Exchange} {command : CommandEnvelope}
    {result : CommandSubmissionResult}
    (h : AuthoritativeCommandPipeline.submit command s = .ok result s') :
    ∃ entry, s'.pipeline.evidence = appended s.pipeline.evidence entry := by
  unfold AuthoritativeCommandPipeline.submit at h
  obtain ⟨_, s1, e1, h1⟩ := bind_eq_ok h
  obtain ⟨before, s2, e2, h2⟩ := bind_eq_ok h1
  obtain ⟨fingerprint, s3, e3, h3⟩ := bind_eq_ok h2
  obtain ⟨pendingBefore, s4, e4, h4⟩ := bind_eq_ok h3
  obtain ⟨admission, s5, e5, h5⟩ := bind_eq_ok h4
  obtain rfl := prepareAppend_eq_ok e1
  cases e2
  obtain rfl := lift_eq_ok e3
  obtain rfl := lift_eq_ok e4
  obtain rfl := lift_eq_ok e5
  by_cases haccepted : (!admission.accepted) = true
  · rw [if_pos haccepted] at h5
    obtain ⟨refusal, s6, e6, h6⟩ := bind_eq_ok h5
    obtain rfl := lift_eq_ok e6
    exact appends_of_eq_ok h6
  · rw [if_neg haccepted] at h5
    cases hcommand : admission.command with
    | none =>
      rw [hcommand] at h5
      cases h5
    | some velocityCommand =>
      simp only [hcommand] at h5
      obtain ⟨queueResult, s6, e6, h6⟩ := bind_eq_ok h5
      obtain ⟨answer, s7, e7, h7⟩ := bind_eq_ok h6
      have hpipeline := onWorld_eq_ok e6
      obtain rfl := lift_eq_ok e7
      rw [← hpipeline]
      by_cases hcommits : answer.accepted = true
      · rw [if_pos hcommits] at h7
        obtain ⟨_, s8, e8, h8⟩ := bind_eq_ok h7
        cases e8
        obtain ⟨entry, hentry⟩ := appends_of_eq_ok h8
        exact ⟨entry, hentry⟩
      · rw [if_neg hcommits] at h7
        exact appends_of_eq_ok h7

/-- INTERNAL: a check that ends the replay with another code has not fired in a verified one. -/
theorem verified_guard {c : Prop} [Decidable c] {code : CommandEvidenceReplayCode}
    (hcode : code ≠ .verified) {processed : ℕ} {failed : Option UInt64} {performed : UInt64}
    {s : Exchange} {y : Except Fault CommandEvidenceReplayResult}
    {result : CommandEvidenceReplayResult} :
    (if c then makeResult code processed failed performed s else y) = .ok result ∧
        result.code = .verified ↔
      ¬ c ∧ y = .ok result ∧ result.code = .verified := by
  by_cases hc : c
  · rw [if_pos hc]
    refine iff_of_false ?_ fun h => h.1 hc
    rintro ⟨hmade, hverified⟩
    exact hcode ((makeResult_code hmade).symm.trans hverified)
  · rw [if_neg hc]
    exact (and_iff_right hc).symm

/-- **One round of the loop**, when the replay goes on to be verified.
SRC: command_evidence_replay.cpp:70-211 -/
theorem replayRecords_cons_iff {policy : CommandEvidenceReplayPolicy}
    {record : CommandEvidenceRecord} {rest : List CommandEvidenceRecord} {index : ℕ}
    {performed : UInt64} {s : Exchange} {result : CommandEvidenceReplayResult} :
    replayRecords policy index performed s (record :: rest) = .ok result ∧
        result.code = .verified ↔
      s.world.currentTick.index ≤ record.entry.observedTick ∧
      record.entry.observedTick - s.world.currentTick.index ≤
        policy.maximumTickAdvances - performed ∧
      ∃ world, advanceSteps (requiredAdvances s record) s.world = .ok () world ∧
        Observed { s with world } record ∧
        ∃ returned s', AuthoritativeCommandPipeline.submit record.entry.envelope
            { s with world } = .ok returned s' ∧
          s'.pipeline.evidence.records.length = index + 1 ∧
          s'.pipeline.evidence.records[index]? = some record ∧
          replayRecords policy (index + 1)
              (performed + (record.entry.observedTick - s.world.currentTick.index)) s' rest =
            .ok result ∧ result.code = .verified := by
  conv_lhs => unfold replayRecords
  rw [verified_guard (by decide), verified_guard (by decide), UInt64.not_lt, UInt64.not_lt]
  refine and_congr_right fun _ => and_congr_right fun _ => ?_
  simp only [requiredAdvances]
  cases hticks : advanceSteps (record.entry.observedTick - s.world.currentTick.index).toNat
      s.world with
  | error fault world =>
    simp only [reduceCtorEq, false_and, exists_false, iff_false]
    rintro ⟨hrun, hverified⟩
    split_ifs at hrun
    have hcode := (makeResult_code hrun).symm.trans hverified
    exact absurd hcode (by decide)
  | ok u world =>
    simp only [EStateM.Result.ok.injEq, true_and, exists_eq_left']
    rw [verified_guard (by decide), verified_guard (by decide)]
    constructor
    · rintro ⟨hsession, hpending, hrun, hverified⟩
      obtain ⟨fingerprint, hfp, hrun⟩ := except_bind_iff.mp hrun
      obtain ⟨hsame, hrun, -⟩ := (verified_guard (by decide)).mp ⟨hrun, hverified⟩
      obtain ⟨⟨returned, s'⟩, hsubmit, hrun⟩ := except_bind_iff.mp hrun
      obtain ⟨hrecord, hrun, -⟩ := (verified_guard (by decide)).mp ⟨hrun, hverified⟩
      obtain ⟨hlength, hget⟩ := not_or.mp hrecord
      exact ⟨⟨not_not.mp hsession, not_not.mp hpending, not_not.mp hsame ▸ hfp⟩, returned, s',
        Member.onCopy_iff.mp hsubmit, not_not.mp hlength, not_not.mp hget, hrun, hverified⟩
    · rintro ⟨hobserved, returned, s', hsubmit, hlength, hget, hrun, hverified⟩
      refine ⟨not_not.mpr hobserved.session, not_not.mpr hobserved.pending, ?_, hverified⟩
      refine except_bind_iff.mpr ⟨_, hobserved.fingerprint, ?_⟩
      refine ((verified_guard (by decide)).mpr ⟨not_not.mpr rfl, ?_, hverified⟩).1
      refine except_bind_iff.mpr ⟨_, Member.onCopy_iff.mpr hsubmit, ?_⟩
      exact ((verified_guard (by decide)).mpr
        ⟨not_or.mpr ⟨not_not.mpr hlength, not_not.mpr hget⟩, hrun, hverified⟩).1

/-- What is left of a budget covers a further amount when the two amounts fit it. -/
theorem le_budget_iff {budget spent amount : UInt64} (h : spent ≤ budget) :
    amount ≤ budget - spent ↔ spent.toNat + amount.toNat ≤ budget.toNat := by
  have hle := UInt64.le_iff_toNat_le.mp h
  rw [UInt64.le_iff_toNat_le, UInt64.toNat_sub_of_le _ _ h]
  omega

/-- Amounts within a budget add without wrapping around. -/
theorem spend {budget spent amount : UInt64} (h : spent.toNat + amount.toNat ≤ budget.toNat) :
    (spent + amount).toNat = spent.toNat + amount.toNat ∧ spent + amount ≤ budget := by
  have hlt := budget.toNat_lt
  have hsum : (spent + amount).toNat = spent.toNat + amount.toNat := by
    rw [UInt64.toNat_add]
    exact Nat.mod_eq_of_lt (by omega)
  exact ⟨hsum, UInt64.le_iff_toNat_le.mpr (hsum ▸ h)⟩

/-- INTERNAL: the record that the replay finds at its index is the one just appended. -/
theorem log_of_appended {log log' : CommandEvidenceLog} {entry : CommandEvidenceEntry}
    {record : CommandEvidenceRecord} (happended : log' = appended log entry)
    (hget : log'.records[log.records.length]? = some record) :
    log' = ⟨log.records ++ [record], digestCommandEvidence record⟩ := by
  subst happended
  rw [appended, List.getElem?_concat_length, Option.some.injEq] at hget
  rw [appended, hget]

/-- **The record loop** ends verified exactly where the records regenerate within the budget.
SRC: command_evidence_replay.cpp:70-222 -/
theorem replayRecords_iff {policy : CommandEvidenceReplayPolicy}
    {records : List CommandEvidenceRecord} {index : ℕ} {performed : UInt64} {s : Exchange}
    {result : CommandEvidenceReplayResult}
    (hindex : s.pipeline.evidence.records.length = index)
    (hperformed : performed ≤ policy.maximumTickAdvances) :
    replayRecords policy index performed s records = .ok result ∧ result.code = .verified ↔
      ∃ n t performed', Regenerates s records n t ∧ performed'.toNat = performed.toNat + n ∧
        performed' ≤ policy.maximumTickAdvances ∧
        makeResult .verified (index + records.length) none performed' t = .ok result := by
  induction records generalizing index performed s with
  | nil =>
    constructor
    · rintro ⟨h, -⟩
      exact ⟨0, s, performed, .done s, rfl, hperformed, h⟩
    · rintro ⟨n, t, performed', hregen, hn, -, h⟩
      cases hregen
      obtain rfl := UInt64.toNat_inj.mp hn
      exact ⟨h, makeResult_code h⟩
  | cons record rest ih =>
    have hcount : index + (record :: rest).length = index + 1 + rest.length := by
      rw [List.length_cons]
      omega
    rw [replayRecords_cons_iff, le_budget_iff hperformed, hcount]
    constructor
    · rintro ⟨hpast, hbudget, world, hticks, hobserved, returned, s', hsubmit, hlength, hget, hrun⟩
      obtain ⟨entry, hentry⟩ := submit_appends hsubmit
      have hlog := log_of_appended hentry (hindex ▸ hget)
      obtain ⟨hspent, hwithin⟩ := spend hbudget
      obtain ⟨n, t, performed', hregen, hn, hle, hresult⟩ := (ih hlength hwithin).mp hrun
      refine ⟨_, t, performed', .round hpast hticks hobserved hsubmit hlog hregen, ?_, hle, hresult⟩
      rw [hn, hspent, requiredAdvances]
      omega
    · rintro ⟨n, t, performed', hregen, hn, hle, hresult⟩
      cases hregen with
      | round hpast hticks hobserved hsubmit hlog hregen =>
        rename_i s' world result n
        have hle' := UInt64.le_iff_toNat_le.mp hle
        rw [requiredAdvances] at hn
        have hbudget : performed.toNat + (record.entry.observedTick -
            s.world.currentTick.index).toNat ≤ policy.maximumTickAdvances.toNat := by omega
        obtain ⟨hspent, hwithin⟩ := spend hbudget
        have hlength : s'.pipeline.evidence.records.length = index + 1 := by
          rw [hlog, List.length_append, hindex, List.length_singleton]
        have hget : s'.pipeline.evidence.records[index]? = some record := by
          rw [hlog, ← hindex, List.getElem?_concat_length]
        exact ⟨hpast, hbudget, world, hticks, hobserved, result, s', hsubmit, hlength, hget,
          (ih hlength hwithin).mpr ⟨n, t, performed', hregen, by omega, hle, hresult⟩⟩

/-- **A replay is verified** exactly on a verified chain that regenerates within the budget.
SRC: command_evidence_replay.cpp:42-222 -/
theorem replay_iff {policy : CommandEvidenceReplayPolicy} {session : CommandSession}
    {world : World} {records : List CommandEvidenceRecord} {head : Sha256Digest}
    {result : CommandEvidenceReplayResult} :
    replay policy session world records head = .ok result ∧ result.code = .verified ↔
      verifyCommandEvidenceChain records head = true ∧
      ∃ n t performed, Regenerates { session, world } records n t ∧ performed.toNat = n ∧
        performed ≤ policy.maximumTickAdvances ∧
        makeResult .verified records.length none performed t = .ok result := by
  have hzero : (0 : UInt64) ≤ policy.maximumTickAdvances := UInt64.zero_le
  have hloop : replayRecords policy 0 0 { session, world } records = .ok result ∧
      result.code = .verified ↔ _ := replayRecords_iff rfl hzero
  simp only [replay]
  rw [verified_guard (by decide)]
  refine and_congr (by simp) (hloop.trans ?_)
  simp

end Tickline.Analysis
