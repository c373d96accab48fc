import Tickline.Analysis.BundleExport
import Tickline.Analysis.ReplayCompleteness

/-!
# The log of one session

What the log of a run says of the session that was run: every accepted record is the session's
own, and the sequence that a record states after it is the greatest one accepted so far, by
whichever identity the record was sent (`SessionLog`).  A replay that is verified ends at the tick
of the last record (`verified_finalTick`).
-/

set_option autoImplicit false

namespace Tickline.Analysis

open Tickline.Library Tickline.Model Tickline.Model.CommandEvidenceReplayer Tickline.Model.Storage

/-! ## Accepted sequences -/

/-- The greatest sequence that some records accepted. -/
def acceptedSequence (records : List CommandEvidenceRecord) : ℕ :=
  ((records.filter isAccepted).map fun record => record.entry.envelope.sequence.toNat).max?.getD 0

/-- INTERNAL: the greatest member of a list with one more. -/
theorem max?_concat (l : List ℕ) (x : ℕ) : (l ++ [x]).max?.getD 0 = max (l.max?.getD 0) x := by
  cases l with
  | nil => simp
  | cons y l =>
    rw [List.cons_append, List.max?_cons', List.max?_cons', List.foldl_append]
    rfl

/-- A record that is not accepted adds no sequence. -/
theorem acceptedSequence_concat_of_not {records : List CommandEvidenceRecord}
    {record : CommandEvidenceRecord} (h : isAccepted record ≠ true) :
    acceptedSequence (records ++ [record]) = acceptedSequence records := by
  rw [acceptedSequence, List.filter_append, List.filter_cons_of_neg h, List.filter_nil,
    List.append_nil, acceptedSequence]

/-- An accepted record adds its own. -/
theorem acceptedSequence_concat {records : List CommandEvidenceRecord}
    {record : CommandEvidenceRecord} (h : isAccepted record = true) :
    acceptedSequence (records ++ [record]) =
      max (acceptedSequence records) record.entry.envelope.sequence.toNat := by
  rw [acceptedSequence, List.filter_append, List.filter_cons_of_pos h, List.filter_nil,
    List.map_append, List.map_singleton, max?_concat, acceptedSequence]

/-! ## One session -/

/-- The key of a session's own records. -/
def ownKey (session : CommandSession) : SessionKey where
  clientId := session.clientId.value
  sessionId := session.sessionId.value

/-- What a log says of the session with a key, which has accepted up to `highest`: only its own
commands are accepted, and every record states the greatest sequence accepted up to it. -/
structure SessionLog (key : SessionKey) (records : List CommandEvidenceRecord) (highest : UInt64) :
    Prop where
  own : ∀ record ∈ records, isAccepted record = true →
    sessionKey record = key ∧ record.entry.envelope.sequence ≠ 0
  sequences : ∀ earlier record, earlier ++ [record] <+: records →
    record.entry.sessionSequenceAfter.toNat = acceptedSequence (earlier ++ [record])
  highest : highest.toNat = acceptedSequence records

/-- An empty log of a fresh session. -/
theorem sessionLog_empty (key : SessionKey) : SessionLog key [] 0 where
  own := by simp
  sequences := by simp
  highest := rfl

/-- INTERNAL: one more record, once it states the greatest sequence. -/
theorem SessionLog.concat {key : SessionKey} {records : List CommandEvidenceRecord}
    {record : CommandEvidenceRecord} {highest highest' : UInt64} (h : SessionLog key records highest)
    (hown : isAccepted record = true →
      sessionKey record = key ∧ record.entry.envelope.sequence ≠ 0)
    (hafter : record.entry.sessionSequenceAfter = highest')
    (hhighest : highest'.toNat = acceptedSequence (records ++ [record])) :
    SessionLog key (records ++ [record]) highest' where
  own := by
    intro other hother
    rcases List.mem_append.mp hother with hother | hother
    · exact h.own other hother
    · obtain rfl := List.mem_singleton.mp hother
      exact hown
  sequences := by
    intro earlier other hprefix
    rcases List.prefix_concat_iff.mp hprefix with heq | hprefix
    · obtain ⟨rfl, hlast⟩ := List.append_inj' heq rfl
      obtain rfl := List.cons.inj hlast |>.1
      rw [hafter, hhighest]
    · exact h.sequences earlier other hprefix
  highest := hhighest

/-- A refusal keeps the sequence. -/
theorem SessionLog.refused {key : SessionKey} {records : List CommandEvidenceRecord}
    {record : CommandEvidenceRecord} {highest : UInt64} (h : SessionLog key records highest)
    (hrefused : isAccepted record ≠ true)
    (hafter : record.entry.sessionSequenceAfter = highest) :
    SessionLog key (records ++ [record]) highest :=
  h.concat (fun haccepted => absurd haccepted hrefused) hafter
    (h.highest.trans (acceptedSequence_concat_of_not hrefused).symm)

/-- An acceptance raises it. -/
theorem SessionLog.accepted {key : SessionKey} {records : List CommandEvidenceRecord}
    {record : CommandEvidenceRecord} {highest : UInt64} (h : SessionLog key records highest)
    (haccepted : isAccepted record = true) (hkey : sessionKey record = key)
    (hless : highest < record.entry.envelope.sequence)
    (hafter : record.entry.sessionSequenceAfter = record.entry.envelope.sequence) :
    SessionLog key (records ++ [record]) record.entry.envelope.sequence := by
  have hlt := UInt64.lt_iff_toNat_lt.mp hless
  refine h.concat (fun _ => ⟨hkey, ?_⟩) hafter ?_
  · rintro hzero
    rw [hzero] at hlt
    exact absurd hlt (Nat.not_lt_zero _)
  · rw [acceptedSequence_concat haccepted, ← h.highest, max_eq_right hlt.le]

/-! ## Runs -/

/-- What holds throughout a run of one session. -/
structure SessionRun (session : CommandSession) (s : Exchange) : Prop where
  sound : Sound s.world
  fits : LogFits s.pipeline.evidence
  own : ownKey s.session = ownKey session
  ok : ∀ record ∈ s.pipeline.evidence.records, RecordOk record
  log : SessionLog (ownKey session) s.pipeline.evidence.records s.session.highestAcceptedSequence

/-- INTERNAL: what one submission does to the log of the session. -/
theorem SessionRun.log_submitted {session : CommandSession} {s s' : Exchange}
    {command : CommandEnvelope} {answer : Answer} (h : SessionRun session s)
    (hstep : SubmitStep s command answer s') :
    ownKey s'.session = ownKey session ∧ SessionLog (ownKey session) s'.pipeline.evidence.records
      s'.session.highestAcceptedSequence := by
  cases hstep with
  | logFull => exact ⟨h.own, h.log⟩
  | queueFull => exact ⟨h.own, h.log⟩
  | refused fingerprint code hfp hcode hne room =>
    exact ⟨h.own, h.log.refused (fun haccepted => hne (of_decide_eq_true haccepted)) rfl⟩
  | declined fingerprint queueResult hfp hcode hqueue hne room =>
    refine ⟨h.own, h.log.refused (fun haccepted => hne ?_) rfl⟩
    exact commandRejectionFromQueueResult_eq_none.mp (of_decide_eq_true haccepted)
  | accepted fingerprint hfp hcode hqueue room queueRoom =>
    have hadmissible := admissible_iff.mp ⟨hcode, hqueue⟩
    refine ⟨h.own, h.log.accepted (decide_eq_true rfl) ?_ hadmissible.sequence.2 rfl⟩
    rw [← h.own]
    exact congrArg₂ SessionKey.mk (congrArg ClientId.value hadmissible.clientId.2)
      (congrArg SessionId.value hadmissible.sessionId.2)

/-- INTERNAL: a submission keeps the records decodable. -/
theorem SubmitStep.records_ok {s s' : Exchange} {command : CommandEnvelope} {answer : Answer}
    (hsound : Sound s.world) (hok : ∀ record ∈ s.pipeline.evidence.records, RecordOk record)
    (hstep : SubmitStep s command answer s') :
    ∀ record ∈ s'.pipeline.evidence.records, RecordOk record := by
  rcases hstep.answer_cases with ⟨result, rfl⟩ | ⟨what, rfl⟩
  · obtain ⟨entry, hrec, hnew⟩ := hstep.recorded hsound
    intro record hrecord
    rw [hrec.log, appended] at hrecord
    rcases List.mem_append.mp hrecord with hrecord | hrecord
    · exact hok record hrecord
    · obtain rfl := List.mem_singleton.mp hrecord
      exact hnew
  · rwa [hstep.threw]

/-- **Every call keeps it.** -/
theorem SessionRun.next {session : CommandSession} {s : Exchange} (h : SessionRun session s)
    (call : ExchangeCall) : SessionRun session (Exchange.machine.next call s) := by
  cases call with
  | submit command =>
    have hstep := submitStep h.sound h.fits command
    obtain ⟨hown, hlog⟩ := h.log_submitted hstep
    exact ⟨hstep.sound h.sound, hstep.logFits h.fits, hown, hstep.records_ok h.sound h.ok, hlog⟩
  | advance =>
    rcases advance_eq h.sound.invariant with ⟨world', hrun, hadv⟩ | ⟨what, hrun, -⟩
    · have hnext : Exchange.machine.next .advance s = { s with world := world' } :=
        congrArg Prod.snd (call_ok (onWorld_ok hrun))
      rw [hnext]
      exact ⟨⟨hadv.invariant h.sound.invariant, (WorldStep.advanced world' hadv).fits h.sound.fits⟩,
        h.fits, h.own, h.ok, h.log⟩
    · have hnext : Exchange.machine.next .advance s = s :=
        congrArg Prod.snd (call_error (onWorld_error hrun))
      rwa [hnext]

/-- **Every run of a fresh session.** -/
theorem sessionRun {session : CommandSession} {world : World}
    (hfresh : session.highestAcceptedSequence = 0) (h : Sound world) (calls : List ExchangeCall) :
    SessionRun session (Exchange.machine.final { session, world } calls) := by
  have hstart : SessionRun session { session, world } :=
    ⟨h, Nat.zero_le _, rfl, by simp, hfresh ▸ sessionLog_empty _⟩
  exact Machine.final_invariant (I := SessionRun session) (fun call s hs => hs.next call) hstart
    calls

/-! ## The final tick -/

/-- INTERNAL: each tick of a batch moves the clock by one. -/
theorem advanceSteps_tick {n : ℕ} {world world' : World} (h : Sound world)
    (hrun : advanceSteps n world = .ok () world') :
    Sound world' ∧
      world'.currentTick.index.toNat = world.currentTick.index.toNat + n := by
  induction n generalizing world with
  | zero =>
    cases hrun
    exact ⟨h, rfl⟩
  | succ n ih =>
    obtain ⟨tick, next, hadvance, hrest⟩ := bind_eq_ok hrun
    rcases advance_eq h.invariant with ⟨moved, hmoved, hadv⟩ | ⟨what, hfailed, -⟩
    · obtain ⟨rfl, rfl⟩ := EStateM.Result.ok.inj (hmoved.symm.trans hadvance)
      have hnext : Sound moved :=
        ⟨hadv.invariant h.invariant, (WorldStep.advanced moved hadv).fits h.fits⟩
      obtain ⟨hsound, htick⟩ := ih hnext hrest
      have hone : moved.currentTick.index.toNat = world.currentTick.index.toNat + 1 :=
        hadv.tickIndex
      exact ⟨hsound, by omega⟩
    · rw [hfailed] at hadvance
      cases hadvance

/-- **A regenerated log ends at the tick of its last record.**  By induction on the rounds. -/
theorem Regenerates.finalTick {s t : Exchange} {records : List CommandEvidenceRecord} {n : ℕ}
    (hregen : Regenerates s records n t) (hsound : Sound s.world)
    (hfits : LogFits s.pipeline.evidence) :
    ∀ last ∈ records.getLast?, t.world.currentTick.index = last.entry.observedTick := by
  induction hregen with
  | done s => simp
  | @round s s' t world record rest result n past ticks observed submitted log hrest ih =>
    obtain ⟨hworld, htick⟩ := advanceSteps_tick hsound ticks
    have hstep : SubmitStep { s with world } record.entry.envelope (.submitted result) s' := by
      have hstep := submitStep (s := { s with world }) hworld hfits record.entry.envelope
      rw [Machine.answer, Machine.next] at hstep
      have hcall : Exchange.machine.perform (.submit record.entry.envelope) { s with world } =
          (.submitted result, s') := call_ok submitted
      rwa [hcall] at hstep
    cases rest with
    | nil =>
      cases hrest
      rintro last hlast
      obtain rfl : record = last := Option.some.inj hlast
      rw [hstep.currentTick, ← UInt64.toNat_inj, htick, requiredAdvances,
        UInt64.toNat_sub_of_le _ _ past]
      have := UInt64.le_iff_toNat_le.mp past
      omega
    | cons next rest =>
      rw [List.getLast?_cons_cons]
      exact ih (hstep.sound hworld) (hstep.logFits (s := { s with world }) hfits)

/-- A verified replay ends at the tick of the last record.
SRC: command_evidence_replay.cpp:14-38, 214-222 -/
theorem verified_finalTick {policy : CommandEvidenceReplayPolicy} {session : CommandSession}
    {world : World} {records : List CommandEvidenceRecord} {head : Sha256Digest}
    {result : CommandEvidenceReplayResult} (h : Sound world)
    (hreplay : replay policy session world records head = .ok result)
    (hverified : result.code = .verified) :
    ∀ last ∈ records.getLast?, result.finalTick = last.entry.observedTick := by
  obtain ⟨-, n, t, performed, hregen, -, -, hresult⟩ := replay_iff.mp ⟨hreplay, hverified⟩
  obtain ⟨fingerprint, -, rfl⟩ := makeResult_eq_ok.mp hresult
  exact hregen.finalTick h (Nat.zero_le _)

end Tickline.Analysis
