import Tickline.Analysis.AnalyticsConsistency
import Tickline.Analysis.SessionLog
import Tickline.Analysis.StoreProgress

/-!
# Native exports in the analytics

The export of a run, through the archive, the store and a verified replay, read by the analytics.
The analytics ask three things of it that the run does not promise (`Analysable`): that no target
tick is behind the tick of the last submission, where the verified replay ends; that each identity
names its least target tick first and its greatest last, where the exporter looks for them; and
that after an acceptance only the session's own identity is heard, because the exporter shows the
session's counter for every identity.  `native_export_accepted_iff`: they are all that they ask.
-/

set_option autoImplicit false

namespace Tickline.Analysis

open Tickline.Library Tickline.Model Tickline.Model.CommandEvidenceReplayer Tickline.Model.Storage
open Tickline.Model.Storage.InvestigationStore Tickline.Model.Analytics

/-! ## What the analytics ask of a log -/

/-- What the analytics ask of the log of the session with a key. -/
structure Analysable (key : SessionKey) (records : List CommandEvidenceRecord) : Prop where
  reached : ∀ last ∈ records.getLast?, ∀ record ∈ records,
    record.entry.envelope.targetTick ≤ last.entry.observedTick
  firstTarget : ∀ record ∈ records,
    ∀ first ∈ (records.filter (sessionKey · = sessionKey record)).head?,
      first.entry.envelope.targetTick ≤ record.entry.envelope.targetTick
  lastTarget : ∀ record ∈ records,
    ∀ last ∈ (records.filter (sessionKey · = sessionKey record)).getLast?,
      record.entry.envelope.targetTick ≤ last.entry.envelope.targetTick
  ownAfterAccepted : records.Pairwise fun earlier later =>
    isAccepted earlier = true → sessionKey later = key

/-- INTERNAL: the last of the records that pass a test, and what is behind it. -/
theorem getLast?_filter {α : Type} {p : α → Bool} {l : List α} {x : α}
    (h : (l.filter p).getLast? = some x) :
    ∃ before behind, l = before ++ x :: behind ∧ ∀ y ∈ behind, ¬ p y = true := by
  obtain ⟨front, hfront⟩ := List.getLast?_eq_some_iff.mp h
  obtain ⟨first, second, rfl, -, hsecond⟩ := List.filter_eq_append_iff.mp hfront
  obtain ⟨middle, behind, rfl, -, -, hnone⟩ := List.filter_eq_cons_iff.mp hsecond
  exact ⟨first ++ middle, behind, by simp, List.filter_eq_nil_iff.mp hnone⟩

section Log

variable {key : SessionKey} {records : List CommandEvidenceRecord} {highest : UInt64}

/-- INTERNAL: no record is accepted exactly where no sequence is. -/
theorem acceptedSequence_eq_zero_iff
    (hown : ∀ record ∈ records, isAccepted record = true → record.entry.envelope.sequence ≠ 0) :
    acceptedSequence records = 0 ↔ ∀ record ∈ records, isAccepted record ≠ true := by
  constructor
  · intro hzero record hrecord haccepted
    have hmem : record.entry.envelope.sequence.toNat ∈ (records.filter isAccepted).map
        fun record => record.entry.envelope.sequence.toNat :=
      List.mem_map.mpr ⟨record, List.mem_filter.mpr ⟨hrecord, haccepted⟩, rfl⟩
    obtain ⟨greatest, hgreatest⟩ := Option.isSome_iff_exists.mp (List.isSome_max?_of_mem hmem)
    have hle := (List.max?_eq_some_iff.mp hgreatest).2 _ hmem
    rw [acceptedSequence, hgreatest, Option.getD_some] at hzero
    rw [hzero, Nat.le_zero] at hle
    exact hown record hrecord haccepted (UInt64.toNat_inj.mp hle)
  · intro hnone
    rw [acceptedSequence, List.filter_eq_nil_iff.mpr hnone]
    rfl

/-- INTERNAL: the counter shown for an identity is the one at its last record. -/
theorem SessionLog.shown (h : SessionLog key records highest) {last : CommandEvidenceRecord}
    {before behind : List CommandEvidenceRecord} (hsplit : records = before ++ last :: behind) :
    last.entry.sessionSequenceAfter.toNat = acceptedSequence (before ++ [last]) := by
  refine h.sequences before last ⟨behind, ?_⟩
  rw [hsplit, List.append_assoc]
  rfl

/-- INTERNAL: the counter shown for the session's own identity is right. -/
theorem SessionLog.shown_own (h : SessionLog key records highest) {last : CommandEvidenceRecord}
    (hlast : (records.filter (sessionKey · = key)).getLast? = some last) :
    last.entry.sessionSequenceAfter.toNat =
      acceptedSequence (records.filter (sessionKey · = key)) := by
  obtain ⟨before, behind, hsplit, hbehind⟩ := getLast?_filter hlast
  -- behind the last own record nothing is accepted
  have hrefused : behind.filter isAccepted = [] := by
    refine List.filter_eq_nil_iff.mpr fun record hrecord haccepted => hbehind record hrecord ?_
    have hmem : record ∈ records := by
      rw [hsplit]
      exact List.mem_append_right _ (List.mem_cons_of_mem _ hrecord)
    exact decide_eq_true (h.own record hmem haccepted).1
  have hall : (records.filter (sessionKey · = key)).filter isAccepted =
      (before ++ [last]).filter isAccepted := by
    rw [List.filter_filter]
    have hsame : records.filter (fun record => isAccepted record && decide (sessionKey record = key))
        = records.filter isAccepted := by
      refine List.filter_congr fun record hrecord => ?_
      rw [Bool.and_eq_left_iff_imp]
      exact fun haccepted => decide_eq_true (h.own record hrecord haccepted).1
    rw [hsame, hsplit, List.append_cons, List.filter_append, hrefused, List.append_nil]
  rw [h.shown hsplit, acceptedSequence, acceptedSequence, hall]

/-- INTERNAL: the counter shown for another identity is right while nothing has been accepted. -/
theorem SessionLog.shown_other (h : SessionLog key records highest) {other : SessionKey}
    (hne : other ≠ key) {last : CommandEvidenceRecord}
    {before behind : List CommandEvidenceRecord} (hsplit : records = before ++ last :: behind) :
    last.entry.sessionSequenceAfter.toNat =
        acceptedSequence (records.filter (sessionKey · = other)) ↔
      ∀ record ∈ before ++ [last], isAccepted record ≠ true := by
  have hnone : (records.filter (sessionKey · = other)).filter isAccepted = [] := by
    refine List.filter_eq_nil_iff.mpr fun record hrecord haccepted => ?_
    obtain ⟨hmem, hkey⟩ := List.mem_filter.mp hrecord
    exact hne ((of_decide_eq_true hkey).symm.trans (h.own record hmem haccepted).1)
  have hzero : acceptedSequence (records.filter (sessionKey · = other)) = 0 := by
    rw [acceptedSequence, hnone]
    rfl
  rw [hzero, h.shown hsplit, acceptedSequence_eq_zero_iff]
  intro record hrecord haccepted
  refine (h.own record ?_ haccepted).2
  rw [hsplit, List.append_cons]
  exact List.mem_append_left _ hrecord

/-- **Which counters are right**: those of all identities are, exactly where after an acceptance
only the session's own is heard. -/
theorem SessionLog.committed_iff (h : SessionLog key records highest) :
    (∀ record ∈ records,
      (projectionOf (sessionKey record) records).lastCommittedSequence.toNat =
        acceptedSequence (records.filter (sessionKey · = sessionKey record))) ↔
      records.Pairwise fun earlier later => isAccepted earlier = true → sessionKey later = key := by
  constructor
  · intro hall
    rw [List.pairwise_iff_forall_sublist]
    intro earlier later hsublist haccepted
    by_contra hne
    have hlater : later ∈ records := hsublist.subset (by simp)
    obtain ⟨first, last, -, hlast, hprojection⟩ := projectionOf_eq ⟨later, hlater, rfl⟩
    obtain ⟨before, behind, hsplit, hbehind⟩ := getLast?_filter hlast
    have hcommitted := hall later hlater
    rw [hprojection, h.shown_other hne hsplit] at hcommitted
    -- the later record is not behind the last one of its identity, so the earlier one is before it
    have hearlier : earlier ∈ before ++ [last] := by
      rw [hsplit, List.append_cons, List.sublist_append_iff] at hsublist
      obtain ⟨front, rest, hpair, hfront, hrest⟩ := hsublist
      cases front with
      | nil =>
        have hmem : later ∈ rest := by
          rw [← List.nil_append rest, ← hpair]
          exact List.mem_cons_of_mem _ (List.mem_cons_self ..)
        exact absurd (decide_eq_true rfl) (hbehind later (hrest.subset hmem))
      | cons record front =>
        obtain rfl := (List.cons.inj hpair).1
        exact hfront.subset (List.mem_cons_self ..)
    exact hcommitted earlier hearlier haccepted
  · intro hpairwise record hrecord
    obtain ⟨first, last, -, hlast, hprojection⟩ := projectionOf_eq ⟨record, hrecord, rfl⟩
    rw [hprojection]
    by_cases hkey : sessionKey record = key
    · rw [hkey] at hlast ⊢
      exact h.shown_own hlast
    · obtain ⟨before, behind, hsplit, -⟩ := getLast?_filter hlast
      refine (h.shown_other hkey hsplit).mpr fun earlier hearlier haccepted => ?_
      have hown : sessionKey last = sessionKey record :=
        of_decide_eq_true (List.mem_filter.mp (List.mem_of_getLast? hlast)).2
      rcases List.mem_append.mp hearlier with hbefore | heq
      · rw [hsplit] at hpairwise
        have hlater := (List.pairwise_append.mp hpairwise).2.2 earlier hbefore last
          (List.mem_cons_self ..) haccepted
        exact hkey (hown.symm.trans hlater)
      · obtain rfl := List.mem_singleton.mp heq
        have hmem : earlier ∈ records := by
          rw [hsplit]
          exact List.mem_append_right _ (List.mem_cons_self ..)
        exact hkey (hown.symm.trans (h.own earlier hmem haccepted).1)

/-- **What the analytics ask of a session's log**, when the replay ends at its last record. -/
theorem SessionLog.analysable_iff (h : SessionLog key records highest) {finalTick : UInt64}
    (hfinal : ∀ last ∈ records.getLast?, finalTick = last.entry.observedTick) :
    ((∀ record ∈ records, record.entry.envelope.targetTick ≤ finalTick) ∧
        ∀ record ∈ records, Projected records (sessionKey record)) ↔
      Analysable key records := by
  constructor
  · rintro ⟨hreached, hprojected⟩
    refine ⟨fun last hlast record hrecord => hfinal last hlast ▸ hreached record hrecord, ?_, ?_,
      h.committed_iff.mp fun record hrecord => (hprojected record hrecord).committed⟩
    · intro record hrecord first hfirst
      obtain ⟨head, tail, hhead, -, hprojection⟩ := projectionOf_eq ⟨record, hrecord, rfl⟩
      obtain rfl := Option.some.inj (hhead.symm.trans hfirst)
      have hle := (hprojected record hrecord).first record hrecord rfl
      rwa [hprojection] at hle
    · intro record hrecord last hlast
      obtain ⟨head, tail, -, htail, hprojection⟩ := projectionOf_eq ⟨record, hrecord, rfl⟩
      obtain rfl := Option.some.inj (htail.symm.trans hlast)
      have hle := (hprojected record hrecord).last record hrecord rfl
      rwa [hprojection] at hle
  · intro hanalysable
    refine ⟨fun record hrecord => ?_, fun record hrecord => ?_⟩
    · have hlast := List.getLast?_eq_some_getLast (List.ne_nil_of_mem hrecord)
      rw [hfinal _ hlast]
      exact hanalysable.reached _ hlast record hrecord
    · obtain ⟨first, last, hfirst, hlast, hprojection⟩ := projectionOf_eq ⟨record, hrecord, rfl⟩
      refine ⟨h.committed_iff.mpr hanalysable.ownAfterAccepted record hrecord, ?_, ?_⟩
      · intro other hother hkey
        rw [hprojection]
        exact hanalysable.firstTarget other hother first (hkey.symm ▸ hfirst)
      · intro other hother hkey
        rw [hprojection]
        exact hanalysable.lastTarget other hother last (hkey.symm ▸ hlast)

end Log

/-! ## Exported runs -/

/-- A run of a fresh session whose log a store keeps as an archive, with the result of a verified
replay, and the text of its export. -/
structure ExportedRun (session : CommandSession) (world : World) (calls : List ExchangeCall)
    (storeCalls : List Call) (text : List Char) : Prop where
  fresh : session.highestAcceptedSequence = 0
  reachable : world.Reachable
  exported :
    let log := (Exchange.machine.final { session, world } calls).pipeline.evidence
    ∃ kept ∈ archivesOf Statement.boundText (machine.trace opened storeCalls),
      encodeCommandEvidenceArchive log.records log.headDigest = .ok kept.encoded ∧
      (∃ policy session' world' result, World.Reachable world' ∧
        replay policy session' world' log.records log.headDigest = .ok result ∧
        result.code = .verified ∧ kept.replay = some result) ∧
      exportInvestigationBundleJson (machine.final opened storeCalls).committed kept.archiveId =
        .ok text

/-- INTERNAL: archives of one content have one head. -/
theorem archiveBytes_head {records records' : List CommandEvidenceRecord}
    {head head' : Sha256Digest} (h : archiveBytes records head = archiveBytes records' head') :
    head = head' := by
  have hheader := (List.append_inj h (by rw [length_archiveHeader, length_archiveHeader])).1
  exact appendDigest_injective (List.append_inj_right' hheader (by simp))

/-- INTERNAL: an archive holds the records it was encoded from. -/
theorem KeptArchive.records_eq {kept : KeptArchive} {log : CommandEvidenceLog}
    (hok : ∀ record ∈ log.records, RecordOk record)
    (hencoded : encodeCommandEvidenceArchive log.records log.headDigest = .ok kept.encoded) :
    kept.records = log.records := by
  obtain ⟨hverify, hcount, hbytes⟩ := encodeCommandEvidenceArchive_iff.mp hencoded
  obtain ⟨-, -, -, hkept, -⟩ := decodeCommandEvidenceArchive_iff.mp kept.genuine
  have hhead : kept.head = log.headDigest := archiveBytes_head (hkept.symm.trans hbytes)
  have hdecoded : decodeCommandEvidenceArchive kept.encoded kept.head =
      .ok ⟨log.records, kept.head⟩ :=
    decodeCommandEvidenceArchive_iff.mpr ⟨rfl, hhead ▸ hverify, hcount, hhead ▸ hbytes, hok⟩
  exact congrArg (·.records) (Except.ok.inj (kept.genuine.symm.trans hdecoded))

/-- INTERNAL: an archive of a store is told by its identifier. -/
theorem Represents.eq_of_archiveId {set : List KeptArchive} {tables : Tables}
    (h : Represents set tables) {kept other : KeptArchive} (hkept : kept ∈ set)
    (hother : other ∈ set) (hid : kept.archiveId = other.archiveId) : kept = other := by
  have hnodup : (set.map fun kept => kept.archiveId.toInt).Nodup :=
    List.pairwise_map.mpr (h.ascending.imp ne_of_lt)
  exact List.inj_on_of_nodup_map hnodup hkept hother (congrArg Int64.toInt hid)

/-- INTERNAL: when the analytics accept the export of a run. -/
theorem ExportedRun.accepted_iff {session : CommandSession} {world : World}
    {calls : List ExchangeCall} {storeCalls : List Call} {text : List Char}
    (h : ExportedRun session world calls storeCalls text) (message : DecodeMessage) :
    (∃ bundle, parseInvestigationBundleJson message text = .ok bundle) ↔
      Analysable (ownKey session)
        (Exchange.machine.final { session, world } calls).pipeline.evidence.records := by
  obtain ⟨kept, hkept, hencoded, ⟨policy, session', world', result, hworld', hreplay, hverified,
    hresult⟩, hexport⟩ := h.exported
  have hrun := sessionRun h.fresh (reachable_sound h.reachable) calls
  have hfinal := verified_finalTick (reachable_sound hworld') hreplay hverified
  have hrecords := KeptArchive.records_eq hrun.ok hencoded
  obtain ⟨-, hrepresents⟩ := represents_run storeCalls
  obtain ⟨other, hother, hid, shown, hshown, hordinals, haccepted, hrejected, rfl⟩ :=
    of_export_ok hrepresents hexport
  obtain rfl : other = kept := hrepresents.eq_of_archiveId hother hkept hid
  obtain rfl := Option.some.inj (hshown.symm.trans hresult)
  rw [accepts_export_iff message (hrepresents.records other hother) shown hordinals haccepted
    hrejected, hrecords]
  exact hrun.log.analysable_iff hfinal

/-- **When the analytics accept a native export**: exactly when the log of the run names no target
tick that the last submission has not reached, no identity's target ticks out of their first and
last, and no other identity after an acceptance.
SRC: investigation_bundle_exporter.cpp:279-666, investigation_bundle.py:400-586,
command_evidence_replay.cpp:14-38 -/
theorem native_export_accepted_iff {session : CommandSession} {world : World}
    {calls : List ExchangeCall} {storeCalls : List Call} {text : List Char}
    (h : ExportedRun session world calls storeCalls text) (message : DecodeMessage) :
    (∃ bundle, parseInvestigationBundleJson message text = .ok bundle) ↔
      Analysable (ownKey session)
        (Exchange.machine.final { session, world } calls).pipeline.evidence.records :=
  h.accepted_iff message

/-! ## Every run can be exported -/

/-- INTERNAL: every log that verifies has an export of fewer than 2^31 records, with any result
that the store takes. -/
theorem exists_export {log : CommandEvidenceLog} (hverify : log.verify = true) (hfits : LogFits log)
    (hok : ∀ record ∈ log.records, RecordOk record) (hshort : log.records.length < 2 ^ 31)
    (hdistinct : log.records.Pairwise fun a b => digestCommandEvidence a ≠ digestCommandEvidence b)
    {result : CommandEvidenceReplayResult} (hprocessed : result.processedRecords < 2 ^ 63)
    (hpending : result.finalPendingCommandCount < 2 ^ 64) :
    ∃ storeCalls text, ∃ kept ∈ archivesOf Statement.boundText (machine.trace opened storeCalls),
      encodeCommandEvidenceArchive log.records log.headDigest = .ok kept.encoded ∧
      kept.replay = some result ∧
      exportInvestigationBundleJson (machine.final opened storeCalls).committed kept.archiveId =
        .ok text := by
  have hencode : encodeCommandEvidenceArchive log.records log.headDigest =
      .ok (archiveBytes log.records log.headDigest) :=
    encodeCommandEvidenceArchive_iff.mpr ⟨hverify, hfits, rfl⟩
  have hdecode : decodeCommandEvidenceArchive (archiveBytes log.records log.headDigest)
      log.headDigest = .ok ⟨log.records, log.headDigest⟩ :=
    decodeCommandEvidenceArchive_iff.mpr ⟨rfl, hverify, hfits, rfl, hok⟩
  have hset := archivesOf_keepOne hdecode hdistinct
    (show textIsNonempty (Statement.boundText [97]) = true by decide) (by decide) hprocessed hpending
  have hrepresents := (represents_run
    (keepOne (archiveBytes log.records log.headDigest) log.headDigest [97] result)).2
  rw [hset] at hrepresents
  have hexport := export_of_length hrepresents (List.mem_singleton.mpr rfl) rfl hshort
  exact ⟨keepOne (archiveBytes log.records log.headDigest) log.headDigest [97] result, _,
    keptOne hdecode (Statement.boundText [97]) result, hset ▸ List.mem_singleton.mpr rfl, hencode,
    rfl, hexport⟩

/-- **Every run has an export** of fewer than 2^31 submissions, if memory suffices and its records
have different digests. -/
theorem exists_exportedRun {session : CommandSession} {world : World}
    (hfresh : session.highestAcceptedSequence = 0) (hreach : world.Reachable)
    {calls : List ExchangeCall} (hmemory : MemorySuffices { session, world } calls)
    (hshort : (calls.filterMap envelope?).length < 2 ^ 31)
    (hdistinct : (Exchange.machine.final { session, world } calls).pipeline.evidence.records.Pairwise
      fun a b => digestCommandEvidence a ≠ digestCommandEvidence b) :
    ∃ storeCalls text, ExportedRun session world calls storeCalls text := by
  have hrun := sessionRun hfresh (reachable_sound hreach) calls
  obtain ⟨n, m, hretraced⟩ := retraced_run (reachable_sound hreach) hmemory
  generalize hend : Exchange.machine.final { session, world } calls = s at *
  generalize Exchange.machine.final { session, world } (throughLastSubmission calls) = last at *
  let policy : CommandEvidenceReplayPolicy := ⟨UInt64.ofNat (2 ^ 64 - 1)⟩
  have hbudget : n ≤ policy.maximumTickAdvances.toNat := by
    have htick := last.world.currentTick.index.toNat_lt
    have hmax : policy.maximumTickAdvances.toNat = 2 ^ 64 - 1 := by decide
    rw [hretraced.spent] at htick
    omega
  obtain ⟨result, hreplay, hverified, hresult⟩ := hretraced.replay_eq policy hbudget
  obtain ⟨hverify, -⟩ := replay_iff.mp ⟨hreplay, hverified⟩
  have hprocessed : result.processedRecords < 2 ^ 63 := by
    obtain ⟨fingerprint, -, rfl⟩ := makeResult_eq_ok.mp hresult
    exact hshort.trans (by norm_num)
  have hpending : result.finalPendingCommandCount < 2 ^ 64 := by
    obtain ⟨fingerprint, -, rfl⟩ := makeResult_eq_ok.mp hresult
    exact Nat.lt_of_le_of_lt hretraced.lastSound.fits (vectorMaxSize_lt _)
  obtain ⟨storeCalls, text, kept, hkept, hencode, hrecorded, hexport⟩ := exists_export hverify
    hrun.fits hrun.ok (hretraced.count.trans_lt hshort) hdistinct hprocessed hpending
  refine ⟨storeCalls, text, hfresh, hreach, ?_⟩
  rw [hend]
  exact ⟨kept, hkept, hencode, ⟨policy, session, world, result, hreach, hreplay, hverified,
    hrecorded⟩, hexport⟩

/-- INTERNAL: a run of one submission. -/
theorem one_submission (session : CommandSession) {world : World} (h : Sound world)
    (hroom : world.pendingCommands.length < vectorMaxSize World.velocityCommandSize)
    (command : CommandEnvelope) :
    MemorySuffices { session, world } [.submit command] ∧
      ∃ record, (Exchange.machine.final { session, world } [.submit command]).pipeline.evidence.records =
          [record] ∧ record.entry.envelope = command ∧
        record.entry.observedTick = world.currentTick.index := by
  have hmemory : MemorySuffices { session, world } [.submit command] :=
    memorySuffices (s := { session, world }) h (show 0 + 1 ≤ _ by decide) hroom
  refine ⟨hmemory, ?_⟩
  have hstep := submitStep (s := { session, world }) h (Nat.zero_le _) command
  rcases hstep.answer_cases with ⟨result, hanswer⟩ | ⟨what, hanswer⟩
  · rw [hanswer] at hstep
    obtain ⟨entry, hrec, -⟩ := hstep.recorded h
    exact ⟨nextRecord _ entry, congrArg (·.records) hrec.log, hrec.envelope, hrec.observedTick⟩
  · exact absurd hanswer (hmemory _ (List.mem_cons_self ..) what)

/-- **One submission is analysed** exactly if its target tick has been reached already. -/
theorem one_submission_accepted_iff (session : CommandSession) {world : World}
    (hfresh : session.highestAcceptedSequence = 0) (hreach : world.Reachable)
    (hroom : world.pendingCommands.length < vectorMaxSize World.velocityCommandSize)
    (command : CommandEnvelope) :
    ∃ storeCalls text, ExportedRun session world [.submit command] storeCalls text ∧
      ∀ message, (∃ bundle, parseInvestigationBundleJson message text = .ok bundle) ↔
        command.targetTick ≤ world.currentTick.index := by
  obtain ⟨hmemory, record, hrecords, rfl, hobserved⟩ :=
    one_submission session (reachable_sound hreach) hroom command
  obtain ⟨storeCalls, text, h⟩ := exists_exportedRun hfresh hreach hmemory
    (show 1 < 2 ^ 31 by norm_num)
    (by rw [hrecords]; exact List.pairwise_singleton ..)
  refine ⟨storeCalls, text, h, fun message => ?_⟩
  rw [h.accepted_iff message, hrecords]
  constructor
  · intro hanalysable
    exact hobserved ▸ hanalysable.reached record rfl record (List.mem_singleton.mpr rfl)
  · intro hreached
    have hfilter : [record].filter (sessionKey · = sessionKey record) = [record] := by simp
    constructor
    case reached =>
      intro last hlast other hother
      obtain rfl : record = last := Option.some.inj hlast
      obtain rfl := List.mem_singleton.mp hother
      exact hobserved.symm ▸ hreached
    case firstTarget =>
      intro other hother first hfirst
      obtain rfl := List.mem_singleton.mp hother
      rw [hfilter] at hfirst
      obtain rfl : other = first := Option.some.inj hfirst
      exact UInt64.le_refl _
    case lastTarget =>
      intro other hother last hlast
      obtain rfl := List.mem_singleton.mp hother
      rw [hfilter] at hlast
      obtain rfl : other = last := Option.some.inj hlast
      exact UInt64.le_refl _
    case ownAfterAccepted => exact List.pairwise_singleton ..

/-- A command for the tick that the sample world is at comes too late and is refused; the
analytics accept the export of that run. -/
theorem native_export_accepted_sample :
    ∃ storeCalls text, ExportedRun sampleSession sampleWorld
        [.submit { sampleEnvelope with targetTick := 0 }] storeCalls text ∧
      ∀ message, Analysable (ownKey sampleSession) (Exchange.machine.final
        { session := sampleSession, world := sampleWorld }
          [.submit { sampleEnvelope with targetTick := 0 }]).pipeline.evidence.records ∧
        ∃ bundle, parseInvestigationBundleJson message text = .ok bundle := by
  obtain ⟨storeCalls, text, h, haccepted⟩ := one_submission_accepted_iff sampleSession
    rfl sampleWorld_reachable (by decide) { sampleEnvelope with targetTick := 0 }
  refine ⟨storeCalls, text, h, fun message => ?_⟩
  have hbundle := (haccepted message).mpr (by decide)
  exact ⟨(native_export_accepted_iff h message).mp hbundle, hbundle⟩

/-- **The analytics reject the export of an accepted command**: it is for the next tick, which the
verified replay of the run does not reach. -/
theorem native_export_rejected :
    ∃ storeCalls text, ExportedRun sampleSession sampleWorld [.submit sampleEnvelope] storeCalls
        text ∧
      ∀ message, ¬ ∃ bundle, parseInvestigationBundleJson message text = .ok bundle := by
  obtain ⟨storeCalls, text, h, haccepted⟩ := one_submission_accepted_iff sampleSession
    rfl sampleWorld_reachable (by decide) sampleEnvelope
  exact ⟨storeCalls, text, h, fun message => (haccepted message).not.mpr (by decide)⟩

end Tickline.Analysis
