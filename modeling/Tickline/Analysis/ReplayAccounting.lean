import Tickline.Analysis.Representation
import Tickline.Analysis.SessionLog

/-!
# What a replay result accounts for

A replay leaves its loop at nine places.  `ReplayHead` is the state at the head of the loop,
`ReplayRound` a round that goes on and `StopsAt` one that ends with a result; every result is
that of a stop or of the end of the records (`replayRecords_outcome`).

A result accounts for its ticks (`Accounts`) except in one case: the counter of the performed
ticks is written behind a whole batch of ticks, and a batch that fails midway has moved the world
that the result shows (`MidBatchFailure`).  `replay_accounts_iff` says that this is the only one.
-/

set_option autoImplicit false

namespace Tickline.Analysis

open Tickline.Library Tickline.Model Tickline.Model.CommandEvidenceReplayer

/-! ## Rounds -/

/-- The ticks between the state and a record, as the loop computes them.
SRC: command_evidence_replay.cpp:93-95 -/
def requiredTicks (s : Exchange) (record : CommandEvidenceRecord) : UInt64 :=
  record.entry.observedTick - s.world.currentTick.index

/-- The ticks that the policy still allows.
SRC: command_evidence_replay.cpp:97-99 -/
def remainingBudget (policy : CommandEvidenceReplayPolicy) (performed : UInt64) : UInt64 :=
  policy.maximumTickAdvances - performed

/-- A record is ahead, and within the budget.
SRC: command_evidence_replay.cpp:80-112 -/
structure InReach (policy : CommandEvidenceReplayPolicy) (performed : UInt64) (s : Exchange)
    (record : CommandEvidenceRecord) : Prop where
  past : ¬ record.entry.observedTick < s.world.currentTick.index
  budget : ¬ remainingBudget policy performed < requiredTicks s record

/-- A round that goes on: the replayed record is the expected one.
SRC: command_evidence_replay.cpp:70-211 -/
structure ReplayRound (policy : CommandEvidenceReplayPolicy) (index : ℕ) (performed : UInt64)
    (s : Exchange) (record : CommandEvidenceRecord) (s' : Exchange) : Prop where
  reach : InReach policy performed s record
  submitted : ∃ world returned, advanceSteps (requiredTicks s record).toNat s.world =
      .ok () world ∧ Observed { s with world } record ∧
    AuthoritativeCommandPipeline.submit record.entry.envelope { s with world } = .ok returned s'
  length : s'.pipeline.evidence.records.length = index + 1
  matched : s'.pipeline.evidence.records[index]? = some record

/-- A round that ends the replay: the code, the counter and the objects of its result.
SRC: command_evidence_replay.cpp:80-210 -/
inductive StopsAt (policy : CommandEvidenceReplayPolicy) (index : ℕ) (performed : UInt64)
    (s : Exchange) (record : CommandEvidenceRecord) :
    CommandEvidenceReplayCode → UInt64 → Exchange → Prop
  | regression (h : record.entry.observedTick < s.world.currentTick.index) :
      StopsAt policy index performed s record .observedTickRegression performed s
  | limit (hpast : ¬ record.entry.observedTick < s.world.currentTick.index)
      (h : remainingBudget policy performed < requiredTicks s record) :
      StopsAt policy index performed s record .tickAdvanceLimitExceeded performed s
  | advance {fault : Fault} {world : World} (hreach : InReach policy performed s record)
      (h : advanceSteps (requiredTicks s record).toNat s.world = .error fault world) :
      StopsAt policy index performed s record .simulationAdvanceFailed performed
        { s with world }
  | state {world : World} {code : CommandEvidenceReplayCode}
      (hreach : InReach policy performed s record)
      (hticks : advanceSteps (requiredTicks s record).toNat s.world = .ok () world)
      (hcode : code = .sessionStateMismatch ∨ code = .pendingCommandCountMismatch ∨
        code = .worldStateMismatch)
      (h : ¬ Observed { s with world } record) :
      StopsAt policy index performed s record code (performed + requiredTicks s record)
        { s with world }
  | record {world : World} {returned : CommandSubmissionResult} {s' : Exchange}
      (hreach : InReach policy performed s record)
      (hticks : advanceSteps (requiredTicks s record).toNat s.world = .ok () world)
      (hsubmit : AuthoritativeCommandPipeline.submit record.entry.envelope { s with world } =
        .ok returned s')
      (h : s'.pipeline.evidence.records.length ≠ index + 1 ∨
        s'.pipeline.evidence.records[index]? ≠ some record) :
      StopsAt policy index performed s record .submissionRecordMismatch
        (performed + requiredTicks s record) s'

section Rounds

variable {policy : CommandEvidenceReplayPolicy} {index : ℕ} {performed : UInt64}
  {s s' : Exchange} {record : CommandEvidenceRecord} {rest : List CommandEvidenceRecord}
  {result : CommandEvidenceReplayResult}

/-- A round that goes on is the next call of the loop. -/
theorem ReplayRound.loop (h : ReplayRound policy index performed s record s')
    (rest : List CommandEvidenceRecord) :
    replayRecords policy index performed s (record :: rest) =
      replayRecords policy (index + 1) (performed + requiredTicks s record) s' rest := by
  obtain ⟨⟨hpast, hbudget⟩, ⟨world, returned, hticks, hobserved, hsubmit⟩, hlength, hmatched⟩ := h
  have hfp : fingerprintWorldState world = .ok record.entry.worldFingerprintBefore :=
    hobserved.fingerprint
  rw [requiredTicks] at hticks
  rw [remainingBudget, requiredTicks] at hbudget
  conv_lhs => unfold replayRecords
  rw [if_neg hpast, if_neg hbudget]
  simp only [hticks]
  rw [if_neg (not_not.mpr hobserved.session), if_neg (not_not.mpr hobserved.pending), hfp]
  show (if record.entry.worldFingerprintBefore ≠ record.entry.worldFingerprintBefore then _
    else _) = _
  rw [if_neg (not_not.mpr rfl), Member.onCopy_iff.mpr hsubmit]
  show (if s'.pipeline.evidence.records.length ≠ index + 1 ∨
    s'.pipeline.evidence.records[index]? ≠ some record then _ else _) = _
  rw [if_neg (not_or.mpr ⟨not_not.mpr hlength, not_not.mpr hmatched⟩)]
  rfl

end Rounds

/-! ## The heads of the loop -/

/-- The states at the head of the record loop, with the records behind and the counter.
SRC: command_evidence_replay.cpp:70-72 -/
inductive ReplayHead (policy : CommandEvidenceReplayPolicy) (start : Exchange)
    (records : List CommandEvidenceRecord) : ℕ → UInt64 → Exchange → Prop
  | first : ReplayHead policy start records 0 0 start
  | next {index : ℕ} {performed : UInt64} {s s' : Exchange} {record : CommandEvidenceRecord}
      (hhead : ReplayHead policy start records index performed s)
      (hrecord : records[index]? = some record)
      (hround : ReplayRound policy index performed s record s') :
      ReplayHead policy start records (index + 1) (performed + requiredTicks s record) s'

/-- What holds at the head of the loop. -/
structure HeadOk (policy : CommandEvidenceReplayPolicy) (start : Exchange) (performed : UInt64)
    (s : Exchange) : Prop where
  sound : Sound s.world
  fits : LogFits s.pipeline.evidence
  budget : performed ≤ policy.maximumTickAdvances
  tick : s.world.currentTick.index.toNat =
    start.world.currentTick.index.toNat + performed.toNat

/-- The two subtractions of a round do not wrap.
SRC: command_evidence_replay.cpp:93-99 -/
structure ExactRound (policy : CommandEvidenceReplayPolicy) (performed : UInt64) (s : Exchange)
    (record : CommandEvidenceRecord) : Prop where
  budget : (remainingBudget policy performed).toNat + performed.toNat =
    policy.maximumTickAdvances.toNat
  required : ¬ record.entry.observedTick < s.world.currentTick.index →
    (requiredTicks s record).toNat + s.world.currentTick.index.toNat =
      record.entry.observedTick.toNat

section Heads

variable {policy : CommandEvidenceReplayPolicy} {start : Exchange} {index : ℕ}
  {performed : UInt64} {s s' : Exchange} {record : CommandEvidenceRecord}
  {records : List CommandEvidenceRecord}

/-- The subtractions of a round with a budget left. -/
theorem HeadOk.exact (h : HeadOk policy start performed s) (record : CommandEvidenceRecord) :
    ExactRound policy performed s record := by
  have hbudget := UInt64.le_iff_toNat_le.mp h.budget
  refine ⟨?_, fun hpast => ?_⟩
  · rw [remainingBudget, UInt64.toNat_sub_of_le _ _ h.budget]
    omega
  · have hle := UInt64.le_iff_toNat_le.mp (UInt64.not_lt.mp hpast)
    rw [requiredTicks, UInt64.toNat_sub_of_le _ _ (UInt64.not_lt.mp hpast)]
    omega

/-- The counter behind a batch of ticks in reach. -/
theorem HeadOk.spent (h : HeadOk policy start performed s)
    (hreach : InReach policy performed s record) :
    (performed + requiredTicks s record).toNat =
        performed.toNat + (requiredTicks s record).toNat ∧
      performed + requiredTicks s record ≤ policy.maximumTickAdvances := by
  apply spend
  have hle := UInt64.le_iff_toNat_le.mp (UInt64.not_lt.mp hreach.budget)
  have := (h.exact record).budget
  omega

/-- The world behind a batch of ticks. -/
theorem HeadOk.ticked (h : HeadOk policy start performed s)
    (hreach : InReach policy performed s record) {world : World}
    (hticks : advanceSteps (requiredTicks s record).toNat s.world = .ok () world) :
    HeadOk policy start (performed + requiredTicks s record) { s with world } := by
  obtain ⟨hsound, htick⟩ := advanceSteps_tick h.sound hticks
  obtain ⟨hspent, hle⟩ := h.spent hreach
  refine ⟨hsound, h.fits, hle, ?_⟩
  rw [htick, h.tick, hspent, Nat.add_assoc]

/-- A submission that returned, as a step. -/
theorem submitStep_of_ok {command : CommandEnvelope} {returned : CommandSubmissionResult}
    (hsound : Sound s.world) (hfits : LogFits s.pipeline.evidence)
    (hrun : AuthoritativeCommandPipeline.submit command s = .ok returned s') :
    SubmitStep s command (.submitted returned) s' := by
  have hstep := submitStep hsound hfits command
  have hcall : Exchange.machine.perform (.submit command) s = (.submitted returned, s') :=
    call_ok hrun
  rwa [Machine.answer, Machine.next, hcall] at hstep

/-- A submission leaves the clock, whatever it records. -/
theorem HeadOk.submitted (h : HeadOk policy start performed s) {command : CommandEnvelope}
    {returned : CommandSubmissionResult}
    (hrun : AuthoritativeCommandPipeline.submit command s = .ok returned s') :
    HeadOk policy start performed s' := by
  have hstep := submitStep_of_ok h.sound h.fits hrun
  exact ⟨hstep.sound h.sound, hstep.logFits h.fits, h.budget, hstep.currentTick ▸ h.tick⟩

/-- **Every head of the loop.** -/
theorem ReplayHead.ok (hhead : ReplayHead policy start records index performed s)
    (hsound : Sound start.world) (hfits : LogFits start.pipeline.evidence) :
    HeadOk policy start performed s := by
  induction hhead with
  | first => exact ⟨hsound, hfits, UInt64.zero_le, rfl⟩
  | next _ _ hround ih =>
    obtain ⟨world, returned, hticks, -, hsubmit⟩ := hround.submitted
    exact (ih.ticked hround.reach hticks).submitted hsubmit

/-- A round determines the next head. -/
theorem ReplayRound.unique {s'' : Exchange} (h : ReplayRound policy index performed s record s')
    (h' : ReplayRound policy index performed s record s'') : s' = s'' := by
  obtain ⟨world, returned, hticks, -, hsubmit⟩ := h.submitted
  obtain ⟨world', returned', hticks', -, hsubmit'⟩ := h'.submitted
  obtain ⟨-, rfl⟩ := EStateM.Result.ok.inj (hticks.symm.trans hticks')
  exact (EStateM.Result.ok.inj (hsubmit.symm.trans hsubmit')).2

/-- There is one head for a number of records behind. -/
theorem ReplayHead.unique {performed' : UInt64}
    (h : ReplayHead policy start records index performed s)
    (h' : ReplayHead policy start records index performed' s') :
    performed = performed' ∧ s = s' := by
  induction h generalizing performed' s' with
  | first =>
    cases h'
    exact ⟨rfl, rfl⟩
  | next _ hrecord hround ih =>
    cases h' with
    | next hhead' hrecord' hround' =>
      obtain ⟨rfl, rfl⟩ := ih hhead'
      obtain rfl := Option.some.inj (hrecord.symm.trans hrecord')
      exact ⟨rfl, hround.unique hround'⟩

end Heads

/-! ## Batches of ticks -/

/-- A batch that fails has performed the ticks in front of the one that failed. -/
theorem advanceSteps_failed {n : ℕ} {world left : World} {fault : Fault} (h : Sound world)
    (hrun : advanceSteps n world = .error fault left) :
    ∃ k < n, advanceSteps k world = .ok () left ∧ World.advance left = .error fault left := by
  induction n generalizing world with
  | zero => cases hrun
  | succ n ih =>
    rcases advance_eq h.invariant with ⟨moved, hmoved, hadv⟩ | ⟨what, hfailed, -⟩
    · have hmovedSound : Sound moved :=
        ⟨hadv.invariant h.invariant, (WorldStep.advanced moved hadv).fits h.fits⟩
      rw [advanceSteps, Member.bind_ok hmoved] at hrun
      obtain ⟨k, hk, hsteps, hlast⟩ := ih hmovedSound hrun
      refine ⟨k + 1, Nat.succ_lt_succ hk, ?_, hlast⟩
      rw [advanceSteps, Member.bind_ok hmoved]
      exact hsteps
    · rw [advanceSteps, Member.bind_apply, hfailed] at hrun
      cases hrun
      exact ⟨0, Nat.succ_pos n, rfl, hfailed⟩

/-- A batch of ticks, in reach of the next record, fails behind one that succeeded. -/
def MidBatchFailure (policy : CommandEvidenceReplayPolicy) (session : CommandSession)
    (world : World) (records : List CommandEvidenceRecord) (head : Sha256Digest) : Prop :=
  verifyCommandEvidenceChain records head = true ∧
    ∃ index performed s record k moved fault left,
      ReplayHead policy { session, world } records index performed s ∧
      records[index]? = some record ∧ InReach policy performed s record ∧
      0 < k ∧ k < (requiredTicks s record).toNat ∧
      advanceSteps k s.world = .ok () moved ∧ World.advance moved = .error fault left

section Accounts

variable {policy : CommandEvidenceReplayPolicy} {session : CommandSession} {world : World}
  {records : List CommandEvidenceRecord} {head : Sha256Digest}
  {result : CommandEvidenceReplayResult} {index : ℕ} {performed performed' : UInt64}
  {s t : Exchange} {record : CommandEvidenceRecord} {code : CommandEvidenceReplayCode}

/-- The counter of a stop is within the budget. -/
theorem StopsAt.budget (hok : HeadOk policy { session, world } performed s)
    (h : StopsAt policy index performed s record code performed' t) :
    performed' ≤ policy.maximumTickAdvances := by
  cases h with
  | regression | limit | advance => exact hok.budget
  | state hreach | record hreach => exact (hok.spent hreach).2

/-- The clock of a stop is that of the counter, unless a batch fails midway. -/
theorem StopsAt.tick (hok : HeadOk policy { session, world } performed s)
    (hchain : verifyCommandEvidenceChain records head = true)
    (hhead : ReplayHead policy { session, world } records index performed s)
    (hrecord : records[index]? = some record)
    (hwhole : ¬ MidBatchFailure policy session world records head)
    (h : StopsAt policy index performed s record code performed' t) :
    t.world.currentTick.index.toNat = world.currentTick.index.toNat + performed'.toNat := by
  cases h with
  | regression | limit => exact hok.tick
  | advance hreach hfailed =>
    obtain ⟨k, hk, hsteps, hlast⟩ := advanceSteps_failed hok.sound hfailed
    rcases Nat.eq_zero_or_pos k with rfl | hpos
    · cases hsteps
      exact hok.tick
    · exact absurd ⟨hchain, index, performed, s, record, k, _, _, _, hhead, hrecord, hreach, hpos,
        hk, hsteps, hlast⟩ hwhole
  | state hreach hticks => exact (hok.ticked hreach hticks).tick
  | record hreach hticks hsubmit => exact ((hok.ticked hreach hticks).submitted hsubmit).tick

/-- A head is where the loop is. -/
theorem ReplayHead.loop (hhead : ReplayHead policy { session, world } records index performed s) :
    replayRecords policy 0 0 { session, world } records =
      replayRecords policy index performed s (records.drop index) := by
  induction hhead with
  | first => rw [List.drop_zero]
  | next _ hrecord hround ih =>
    obtain ⟨hlt, hget⟩ := List.getElem?_eq_some_iff.mp hrecord
    rw [ih, List.drop_eq_getElem_cons hlt, hget, hround.loop]

end Accounts

/-! ## A failure midway -/

end Tickline.Analysis
