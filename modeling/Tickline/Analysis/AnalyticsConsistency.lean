import Mathlib.Data.List.Nodup
import Tickline.Analysis.AnalyticsFields

/-!
# When the analytics accept an export

Each check of `validateConsistency` as a statement (`validateSessions_iff`, `validateReplay_iff`,
`validateSummary_iff`), and what is left of them for the export of an archive.  Its sessions are
different, its evidence is the chain it was decoded to and its counts are right; what decides is
that no target tick is behind the final tick and that the exporter's projection of each session
is the summary that the analytics compute (`accepts_export_iff`).
-/

set_option autoImplicit false

namespace Tickline.Analysis

open Tickline.Library Tickline.Model Tickline.Model.Storage
open Tickline.Model.Storage.InvestigationStore Tickline.Model.Analytics
open Tickline.Library.Json (units)

/-! ## The checks -/

/-- INTERNAL: in a validation that returned, no check has fired. -/
theorem validation_guard_iff {α : Type} {c : Prop} [Decidable c] {code : String}
    {path message : Str} {f : PUnit → Except Raised α} {y : Except Raised α} {a : α} :
    (if c then Analytics.fail code path message >>= f else y) = .ok a ↔ ¬ c ∧ y = .ok a :=
  except_guard_iff

/-- INTERNAL: the same of a check at the end. -/
theorem validation_check_iff {c : Prop} [Decidable c] {code : String} {path message : Str}
    {u : Unit} : (if c then Analytics.fail code path message else pure ()) = .ok u ↔ ¬ c := by
  split_ifs with h
  · exact iff_of_false (by rintro ⟨⟩) (not_not.mpr h)
  · exact iff_of_true rfl h

/-- **The checks of the sessions.**
SRC: investigation_bundle.py:408-427 -/
theorem validateSessions_iff {sessions : List Analytics.InvestigationSession} :
    ∀ {index : ℕ} (before : List Analytics.InvestigationSession) {u : Unit},
      (before.map (·.key)).Nodup →
      (validateSessions index before sessions = .ok u ↔
        ((before ++ sessions).map (·.key)).Nodup ∧
          ∀ session ∈ sessions, session.firstTargetTick ≤ session.lastTargetTick) := by
  induction sessions with
  | nil =>
    intro index before u hbefore
    exact iff_of_true rfl ⟨by rwa [List.append_nil], by simp⟩
  | cons session sessions ih =>
    intro index before u hbefore
    have hsplit : before ++ session :: sessions = (before ++ [session]) ++ sessions := by simp
    have hfresh : ((before ++ [session]).map (·.key)).Nodup ↔
        ¬ before.any (·.key = session.key) = true := by
      rw [List.map_append, List.map_singleton, List.nodup_append, List.any_eq_true]
      constructor
      · rintro ⟨-, -, hdisjoint⟩ ⟨other, hother, heq⟩
        exact hdisjoint _ (List.mem_map.mpr ⟨other, hother, rfl⟩) _ (List.mem_singleton.mpr rfl)
          (of_decide_eq_true heq)
      · intro hnone
        refine ⟨hbefore, List.nodup_singleton _, ?_⟩
        intro key hkey other hother heq
        obtain ⟨found, hfound, rfl⟩ := List.mem_map.mp hkey
        exact hnone ⟨found, hfound, decide_eq_true (heq.trans (List.mem_singleton.mp hother))⟩
    simp only [validateSessions, validation_guard_iff, Nat.not_lt, gt_iff_lt]
    rw [hsplit, List.forall_mem_cons]
    constructor
    · rintro ⟨hnew, hticks, hrest⟩
      obtain ⟨hnodup, hall⟩ := (ih _ (hfresh.mpr hnew)).mp hrest
      exact ⟨hnodup, hticks, hall⟩
    · rintro ⟨hnodup, hticks, hall⟩
      have hnew : ((before ++ [session]).map (·.key)).Nodup := by
        rw [List.map_append] at hnodup
        exact (List.nodup_append.mp hnodup).1
      exact ⟨hfresh.mp hnew, hticks, (ih _ hnew).mpr ⟨hnodup, hall⟩⟩

/-- **The checks of the replay summary.**
SRC: investigation_bundle.py:495-526 -/
theorem validateReplay_iff {replay : ReplaySummary} {evidence : List InvestigationEvidenceRecord}
    {u : Unit} : validateReplay replay evidence = .ok u ↔
      replay.acceptedCommands = evidence.countP (·.isAccepted) ∧
      replay.rejectedCommands = evidence.countP (·.isRejected) ∧
      ∀ record ∈ evidence, record.targetTick ≤ replay.finalTick := by
  simp only [validateReplay, validation_guard_iff, ne_eq, not_not]
  refine and_congr_right fun _ => and_congr_right fun _ => ?_
  cases hmax : (evidence.map (·.targetTick)).max? with
  | none =>
    have hempty : evidence = [] := by
      rw [List.max?_eq_none_iff, List.map_eq_nil_iff] at hmax
      exact hmax
    subst hempty
    exact iff_of_true rfl (by simp)
  | some lastTargetTick =>
    obtain ⟨hmem, hall⟩ := List.max?_eq_some_iff.mp hmax
    rw [validation_check_iff, Nat.not_lt]
    constructor
    · intro hle record hrecord
      exact (hall _ (List.mem_map.mpr ⟨record, hrecord, rfl⟩)).trans hle
    · intro hle
      obtain ⟨record, hrecord, rfl⟩ := List.mem_map.mp hmem
      exact hle record hrecord

/-- A session's summary is the one of its records. -/
structure Summarises (evidence : List InvestigationEvidenceRecord)
    (session : Analytics.InvestigationSession) : Prop where
  accepted : session.acceptedCommands =
    (evidence.filter (·.key = session.key)).countP (·.isAccepted)
  rejected : session.rejectedCommands =
    (evidence.filter (·.key = session.key)).countP (·.isRejected)
  committed : session.lastCommittedSequence =
    (((evidence.filter (·.key = session.key)).filter (·.isAccepted)).map
      (·.sessionSequence)).max?.getD 0
  first : session.firstTargetTick =
    ((evidence.filter (·.key = session.key)).map (·.targetTick)).min?.getD 0
  last : session.lastTargetTick =
    ((evidence.filter (·.key = session.key)).map (·.targetTick)).max?.getD 0

/-- **The checks of a session against its records.**
SRC: investigation_bundle.py:529-586 -/
theorem validateSummary_iff {evidence : List InvestigationEvidenceRecord} {index : ℕ}
    {session : Analytics.InvestigationSession} {u : Unit} :
    validateSummary evidence index session = .ok u ↔ Summarises evidence session := by
  simp only [validateSummary, validation_guard_iff, validation_check_iff, ne_eq, not_not,
    ← List.countP_eq_length_filter]
  constructor
  · rintro ⟨haccepted, hrejected, hcommitted, hfirst, hlast⟩
    exact ⟨haccepted, hrejected, hcommitted, hfirst, hlast⟩
  · rintro ⟨haccepted, hrejected, hcommitted, hfirst, hlast⟩
    exact ⟨haccepted, hrejected, hcommitted, hfirst, hlast⟩

/-- The checks of all sessions against their records. -/
theorem validateSummaries_iff {evidence : List InvestigationEvidenceRecord}
    {sessions : List Analytics.InvestigationSession} {index : ℕ} {u : Unit} :
    validateSummaries evidence index sessions = .ok u ↔
      ∀ session ∈ sessions, Summarises evidence session := by
  induction sessions generalizing index with
  | nil => exact iff_of_true rfl (by simp)
  | cons session sessions ih =>
    simp only [validateSummaries, except_bind_iff, validateSummary_iff, ih, exists_const,
      List.forall_mem_cons]

/-! ## The export of an archive -/

/-- INTERNAL: the outcome of a record as the analytics read it. -/
theorem outcome_analysed (stored : StoredEvidenceRecord) (h : RecordOk stored.record) :
    (analysedRecord stored).isAccepted = isAccepted stored.record ∧
      (analysedRecord stored).isRejected = !isAccepted stored.record := by
  have hnames : ∀ accepted : Bool,
      decide (str (if accepted then "accepted" else "rejected") = str "accepted") = accepted ∧
        decide (str (if accepted then "accepted" else "rejected") = str "rejected") =
          !accepted := by
    decide
  unfold InvestigationEvidenceRecord.isAccepted InvestigationEvidenceRecord.isRejected
    analysedRecord
  rw [recordWasAccepted_eq h]
  exact hnames _

/-- INTERNAL: the rejection code of a record fits its outcome. -/
theorem rejectionCode_analysed (stored : StoredEvidenceRecord) (h : RecordOk stored.record) :
    (analysedRecord stored).rejectionCode = str "none" ↔ isAccepted stored.record = true := by
  unfold analysedRecord isAccepted
  rw [rejectionName_eq h, (commandRejectionCodeName_known h.knownRejection).2, decide_eq_true_eq]

/-- INTERNAL: the outcome of a record is one of the two. -/
theorem outcome_known (stored : StoredEvidenceRecord) :
    (analysedRecord stored).outcome = str "accepted" ∨
      (analysedRecord stored).outcome = str "rejected" := by
  unfold analysedRecord
  cases recordWasAccepted stored.record
  · exact Or.inr rfl
  · exact Or.inl rfl

/-- INTERNAL: the loop over the records of a chain. -/
theorem validateEvidence_linked {sessions : List Analytics.InvestigationSession}
    {archiveId : Int64} {records : List CommandEvidenceRecord} :
    ∀ {index : ℕ} {previous head : Sha256Digest} {recordDigests : List Str},
      evidenceChain.Linked index previous records head →
      (∀ record ∈ records, RecordOk record ∧
        sessions.any (·.key = (analysedRecord (storedAs archiveId record)).key) = true) →
      (recordDigests ++ records.map fun record =>
        units (digestCommandEvidence record).toHex).Nodup →
      validateEvidence sessions index (units previous.toHex) recordDigests
        (records.map fun record => analysedRecord (storedAs archiveId record)) =
          .ok (units head.toHex) := by
  induction records with
  | nil =>
    rintro index previous head recordDigests rfl - -
    rfl
  | cons record records ih =>
    rintro index previous head recordDigests ⟨hordinal, hprevious, hrest⟩ hall hnodup
    obtain ⟨hok, hknown⟩ := hall record (List.mem_cons_self ..)
    obtain ⟨haccepted, hrejected⟩ := outcome_analysed (storedAs archiveId record) hok
    have hcode := rejectionCode_analysed (storedAs archiveId record) hok
    have hdigest : (analysedRecord (storedAs archiveId record)).recordDigest =
        units (digestCommandEvidence record).toHex := by
      simp only [analysedRecord, storedAs_recordDigest]
    have hsplit : recordDigests ++ (record :: records).map
        (fun record => units (digestCommandEvidence record).toHex) =
        (recordDigests ++ [units (digestCommandEvidence record).toHex]) ++
          records.map fun record => units (digestCommandEvidence record).toHex := by
      simp
    have hnew : units (digestCommandEvidence record).toHex ∉ recordDigests := fun hmem =>
      (List.nodup_append.mp hnodup).2.2 _ hmem _ (List.mem_cons_self ..) rfl
    rw [hsplit] at hnodup
    simp only [List.map_cons, validateEvidence, validation_guard_iff, hdigest]
    refine ⟨?_, ?_, ?_, ?_, ?_, ?_, ?_, ih hrest
      (fun other hother => hall other (List.mem_cons_of_mem _ hother)) hnodup⟩
    · exact not_not.mpr hordinal
    · simp [hknown]
    · exact not_not.mpr (congrArg (fun digest : Sha256Digest => units digest.toHex) hprevious)
    · simpa using hnew
    · rintro ⟨hnone, hnone'⟩
      exact (outcome_known (storedAs archiveId record)).elim hnone hnone'
    · rintro ⟨htrue, hother⟩
      exact hother (hcode.mpr (haccepted ▸ htrue))
    · rintro ⟨htrue, hother⟩
      rw [hrejected, hcode.mp hother] at htrue
      cases htrue

/-- INTERNAL: which member of a list is its least. -/
theorem eq_min_iff {l : List ℕ} {x : ℕ} (hx : x ∈ l) : x = l.min?.getD 0 ↔ ∀ y ∈ l, x ≤ y := by
  obtain ⟨least, hleast⟩ := Option.isSome_iff_exists.mp (List.isSome_min?_of_mem hx)
  obtain ⟨hmem, hall⟩ := List.min?_eq_some_iff.mp hleast
  rw [hleast, Option.getD_some]
  constructor
  · rintro rfl
    exact hall
  · intro hle
    exact Nat.le_antisymm (hle _ hmem) (hall _ hx)

/-- INTERNAL: which member of a list is its greatest. -/
theorem eq_max_iff {l : List ℕ} {x : ℕ} (hx : x ∈ l) : x = l.max?.getD 0 ↔ ∀ y ∈ l, y ≤ x := by
  obtain ⟨greatest, hgreatest⟩ := Option.isSome_iff_exists.mp (List.isSome_max?_of_mem hx)
  obtain ⟨hmem, hall⟩ := List.max?_eq_some_iff.mp hgreatest
  rw [hgreatest, Option.getD_some]
  constructor
  · rintro rfl
    exact hall
  · intro hle
    exact Nat.le_antisymm (hall _ hx) (hle _ hmem)

/-- INTERNAL: the key of a session as the analytics read it. -/
theorem key_analysed_iff {archiveId : Int64} {record : CommandEvidenceRecord} {key : SessionKey} :
    (analysedRecord (storedAs archiveId record)).key = (key.clientId.toNat, key.sessionId.toNat) ↔
      sessionKey record = key := by
  obtain ⟨clientId, sessionId⟩ := key
  show (record.entry.envelope.clientId.value.toNat, record.entry.envelope.sessionId.value.toNat) =
    (clientId.toNat, sessionId.toNat) ↔ _
  rw [Prod.mk.injEq, UInt64.toNat_inj, UInt64.toNat_inj, sessionKey, SessionKey.mk.injEq]

/-- INTERNAL: the records of a session as the analytics read them. -/
theorem filter_analysed (archiveId : Int64) (records : List CommandEvidenceRecord)
    (key : SessionKey) :
    (records.map fun record => analysedRecord (storedAs archiveId record)).filter
        (·.key = (key.clientId.toNat, key.sessionId.toNat)) =
      (records.filter (sessionKey · = key)).map fun record =>
        analysedRecord (storedAs archiveId record) := by
  rw [List.filter_map]
  refine congrArg _ (List.filter_congr fun record _ => ?_)
  exact decide_eq_decide.mpr key_analysed_iff

/-- INTERNAL: the projection of a session with records. -/
theorem projectionOf_eq {records : List CommandEvidenceRecord} {key : SessionKey}
    (h : ∃ record ∈ records, sessionKey record = key) :
    ∃ first last, (records.filter (sessionKey · = key)).head? = some first ∧
      (records.filter (sessionKey · = key)).getLast? = some last ∧
      projectionOf key records = {
        lastCommittedSequence := last.entry.sessionSequenceAfter
        firstTargetTick := first.entry.envelope.targetTick
        lastTargetTick := last.entry.envelope.targetTick } := by
  obtain ⟨record, hrecord, hkey⟩ := h
  have hne : records.filter (sessionKey · = key) ≠ [] :=
    List.ne_nil_of_mem (List.mem_filter.mpr ⟨hrecord, decide_eq_true hkey⟩)
  refine ⟨_, _, List.head?_eq_some_head hne, List.getLast?_eq_some_getLast hne, ?_⟩
  rw [projectionOf, projection?, List.head?_eq_some_head hne, List.getLast?_eq_some_getLast hne]
  rfl

/-- The summary that the analytics compute of a session's records: its greatest accepted
sequence, and that no target tick is outside the projected ones. -/
structure Projected (records : List CommandEvidenceRecord) (key : SessionKey) : Prop where
  committed : (projectionOf key records).lastCommittedSequence.toNat =
    (((records.filter (sessionKey · = key)).filter isAccepted).map fun record =>
      record.entry.envelope.sequence.toNat).max?.getD 0
  first : ∀ record ∈ records, sessionKey record = key →
    (projectionOf key records).firstTargetTick ≤ record.entry.envelope.targetTick
  last : ∀ record ∈ records, sessionKey record = key →
    record.entry.envelope.targetTick ≤ (projectionOf key records).lastTargetTick

/-- INTERNAL: the outcomes of records as the analytics count them. -/
theorem outcomes_analysed (archiveId : Int64) (records : List CommandEvidenceRecord)
    (hok : ∀ record ∈ records, RecordOk record) :
    (records.map fun record => analysedRecord (storedAs archiveId record)).countP (·.isAccepted) =
        records.countP isAccepted ∧
      (records.map fun record => analysedRecord (storedAs archiveId record)).countP
        (·.isRejected) = records.countP (!isAccepted ·) ∧
      (records.map fun record => analysedRecord (storedAs archiveId record)).filter
        (·.isAccepted) = (records.filter isAccepted).map fun record =>
          analysedRecord (storedAs archiveId record) := by
  have houtcome := fun record hrecord =>
    outcome_analysed (storedAs archiveId record) (hok record hrecord)
  rw [List.countP_map, List.countP_map, List.filter_map]
  refine ⟨List.countP_congr fun record hrecord => ?_, List.countP_congr fun record hrecord => ?_,
    congrArg _ (List.filter_congr fun record hrecord => (houtcome record hrecord).1)⟩
  · rw [Function.comp_apply, (houtcome record hrecord).1]
    rfl
  · rw [Function.comp_apply, (houtcome record hrecord).2]
    rfl

/-- INTERNAL: which sessions of an export are summarised. -/
theorem summarises_analysed_iff {kept : KeptArchive} {entry : SessionKey × SessionAggregate}
    (hentry : entry ∈ (aggregatesOf kept.records).entries) :
    Summarises (kept.records.map fun record => analysedRecord (storedAs kept.archiveId record))
        (analysedSession (summaryOf entry.1 entry.2) (projectionOf entry.1 kept.records)) ↔
      Projected kept.records entry.1 := by
  obtain ⟨-, -, -, hok⟩ := kept.decoded
  obtain ⟨haccepted, hrejected⟩ := entry_counts hentry
  have hown : ∃ record ∈ kept.records, sessionKey record = entry.1 :=
    mem_session_keys.mp (List.mem_map.mpr ⟨entry, hentry, rfl⟩)
  obtain ⟨first, last, hfirst, hlast, hprojection⟩ := projectionOf_eq hown
  have hfilter : (kept.records.map fun record =>
      analysedRecord (storedAs kept.archiveId record)).filter (·.key = (analysedSession
        (summaryOf entry.1 entry.2) (projectionOf entry.1 kept.records)).key) = _ :=
    filter_analysed kept.archiveId kept.records entry.1
  obtain ⟨hcountAccepted, hcountRejected, hfilterAccepted⟩ := outcomes_analysed kept.archiveId
    (kept.records.filter (sessionKey · = entry.1)) fun record hrecord => hok record (List.mem_of_mem_filter hrecord)
  -- the ticks of the session's records
  have hticks : ((kept.records.filter (sessionKey · = entry.1)).map fun record =>
      analysedRecord (storedAs kept.archiveId record)).map (·.targetTick) =
        (kept.records.filter (sessionKey · = entry.1)).map fun record =>
          record.entry.envelope.targetTick.toNat := by
    rw [List.map_map]
    rfl
  have htick : ∀ {P : ℕ → Prop}, (∀ tick ∈ (kept.records.filter (sessionKey · = entry.1)).map
      (fun record => record.entry.envelope.targetTick.toNat), P tick) ↔
        ∀ record ∈ kept.records, sessionKey record = entry.1 →
          P record.entry.envelope.targetTick.toNat := by
    intro P
    rw [List.forall_mem_map]
    simp only [List.mem_filter, decide_eq_true_eq, and_imp]
  have hfirstMem : first.entry.envelope.targetTick.toNat ∈
      (kept.records.filter (sessionKey · = entry.1)).map fun record =>
        record.entry.envelope.targetTick.toNat :=
    List.mem_map.mpr ⟨first, List.mem_of_head? hfirst, rfl⟩
  have hlastMem : last.entry.envelope.targetTick.toNat ∈
      (kept.records.filter (sessionKey · = entry.1)).map fun record =>
        record.entry.envelope.targetTick.toNat :=
    List.mem_map.mpr ⟨last, List.mem_of_getLast? hlast, rfl⟩
  have hmin := (eq_min_iff hfirstMem).trans htick
  have hmax := (eq_max_iff hlastMem).trans htick
  constructor
  · rintro ⟨-, -, hcommitted, hfirstTick, hlastTick⟩
    rw [hfilter, hfilterAccepted, List.map_map] at hcommitted
    rw [hfilter, hticks] at hfirstTick hlastTick
    rw [hprojection] at hfirstTick hlastTick
    refine ⟨hcommitted, ?_, ?_⟩
    · rw [hprojection]
      exact fun record hrecord hkey => hmin.mp hfirstTick record hrecord hkey
    · rw [hprojection]
      exact fun record hrecord hkey => hmax.mp hlastTick record hrecord hkey
  · rintro ⟨hcommitted, hfirstTick, hlastTick⟩
    rw [hprojection] at hfirstTick hlastTick
    constructor
    case accepted => rw [hfilter, hcountAccepted, ← haccepted]; rfl
    case rejected => rw [hfilter, hcountRejected, ← hrejected]; rfl
    case committed =>
      rw [hfilter, hfilterAccepted, List.map_map]
      exact hcommitted
    case first =>
      rw [hfilter, hticks, hprojection]
      exact hmin.mpr hfirstTick
    case last =>
      rw [hfilter, hticks, hprojection]
      exact hmax.mpr hlastTick

/-- INTERNAL: the sessions of an export are different. -/
theorem analysedSessions_nodup (kept : KeptArchive) :
    ((kept.shownSessions.map fun shown => analysedSession shown.1 shown.2).map
      (·.key)).Nodup := by
  have hkeys : (aggregatesOf kept.records).keys.Nodup :=
    (aggregatesOf kept.records).keys_ascending.imp ne_of_lt
  have hinjective : Function.Injective fun key : SessionKey =>
      (key.clientId.toNat, key.sessionId.toNat) := by
    rintro ⟨c, s⟩ ⟨c', s'⟩ h
    obtain ⟨hc, hs⟩ := Prod.mk.inj h
    exact SessionKey.mk.injEq .. ▸ ⟨UInt64.toNat_inj.mp hc, UInt64.toNat_inj.mp hs⟩
  have hmap := hkeys.map hinjective
  rw [OrderedMap.keys, List.map_map] at hmap
  rw [KeptArchive.shownSessions, List.map_map, List.map_map]
  exact hmap

/-- **When the analytics accept the export of an archive**: no target tick is behind the final
tick, and every session is summarised.
SRC: investigation_bundle.py:400-586 -/
theorem accepts_export_iff (message : DecodeMessage) {kept : KeptArchive}
    (hdistinct : kept.records.Pairwise fun a b => digestCommandEvidence a ≠ digestCommandEvidence b)
    (result : CommandEvidenceReplayResult)
    (hordinals : ∀ record ∈ kept.records, record.ordinal.toNat < 2 ^ 31)
    (haccepted : kept.acceptedCount < 2 ^ 31) (hrejected : kept.rejectedCount < 2 ^ 31) :
    (∃ bundle, parseInvestigationBundleJson message (kept.exportText result) = .ok bundle) ↔
      (∀ record ∈ kept.records, record.entry.envelope.targetTick ≤ result.finalTick) ∧
        ∀ record ∈ kept.records, Projected kept.records (sessionKey record) := by
  obtain ⟨-, hlinked, -, hok⟩ := kept.decoded
  obtain ⟨hcountAccepted, hcountRejected, -⟩ := outcomes_analysed kept.archiveId _ hok
  -- what every export satisfies
  have hknown : ∀ record ∈ kept.records, RecordOk record ∧
      (analysedBundle kept result).sessions.any
        (·.key = (analysedRecord (storedAs kept.archiveId record)).key) = true := by
    intro record hrecord
    obtain ⟨entry, hentry, hkey⟩ := List.mem_map.mp (mem_session_keys.mpr ⟨record, hrecord, rfl⟩)
    refine ⟨hok record hrecord, List.any_eq_true.mpr ⟨_, List.mem_map.mpr ⟨_, List.mem_map.mpr
      ⟨entry, hentry, rfl⟩, rfl⟩, decide_eq_true ?_⟩⟩
    exact (key_analysed_iff.mpr hkey.symm).symm
  have hdigests : ([] ++ kept.records.map fun record =>
      units (digestCommandEvidence record).toHex).Nodup := by
    rw [List.nil_append, List.nodup_iff_pairwise_ne, List.pairwise_map]
    exact hdistinct.imp fun hne heq => hne (units_toHex_injective heq)
  have hevidence : validateEvidence (analysedBundle kept result).sessions 0
      (units genesisDigest.toHex) [] (analysedBundle kept result).evidence =
        .ok (units kept.head.toHex) :=
    validateEvidence_linked hlinked hknown hdigests
  have hsummaries : (∀ session ∈ (analysedBundle kept result).sessions,
      Summarises (analysedBundle kept result).evidence session) ↔
        ∀ record ∈ kept.records, Projected kept.records (sessionKey record) := by
    constructor
    · intro hall record hrecord
      obtain ⟨entry, hentry, hkey⟩ :=
        List.mem_map.mp (mem_session_keys.mpr ⟨record, hrecord, rfl⟩)
      rw [← hkey]
      exact (summarises_analysed_iff hentry).mp
        (hall _ (List.mem_map.mpr ⟨_, List.mem_map.mpr ⟨entry, hentry, rfl⟩, rfl⟩))
    · intro hall session hsession
      obtain ⟨shown, hshown, rfl⟩ := List.mem_map.mp hsession
      obtain ⟨entry, hentry, rfl⟩ := List.mem_map.mp hshown
      obtain ⟨record, hrecord, hkey⟩ := mem_session_keys.mp (List.mem_map.mpr ⟨entry, hentry, rfl⟩)
      exact (summarises_analysed_iff hentry).mpr (hkey ▸ hall record hrecord)
  have hordered : (∀ record ∈ kept.records, Projected kept.records (sessionKey record)) →
      ∀ session ∈ (analysedBundle kept result).sessions,
        session.firstTargetTick ≤ session.lastTargetTick := by
    intro hall session hsession
    obtain ⟨shown, hshown, rfl⟩ := List.mem_map.mp hsession
    obtain ⟨entry, hentry, rfl⟩ := List.mem_map.mp hshown
    obtain ⟨record, hrecord, hkey⟩ := mem_session_keys.mp (List.mem_map.mpr ⟨entry, hentry, rfl⟩)
    have hprojected := hall record hrecord
    rw [hkey] at hprojected
    exact UInt64.le_iff_toNat_le.mp (UInt64.le_trans (hprojected.first record hrecord hkey)
      (hprojected.last record hrecord hkey))
  have hticks : (∀ record ∈ (analysedBundle kept result).evidence,
      record.targetTick ≤ (analysedBundle kept result).replay.finalTick) ↔
        ∀ record ∈ kept.records, record.entry.envelope.targetTick ≤ result.finalTick :=
    List.forall_mem_map
  -- the consistency of what is read
  have hconsistent : validateConsistency (analysedBundle kept result) = .ok () ↔
      (∀ record ∈ kept.records, record.entry.envelope.targetTick ≤ result.finalTick) ∧
        ∀ record ∈ kept.records, Projected kept.records (sessionKey record) := by
    rw [validateConsistency]
    simp only [except_bind_iff, validation_guard_iff,
      validateSessions_iff [] List.nodup_nil, validateSummaries_iff,
      validateReplay_iff, hsummaries, hticks]
    constructor
    · rintro ⟨-, -, digest, -, -, -, ⟨-, -, hfinal⟩, hprojected⟩
      exact ⟨hfinal, hprojected⟩
    · rintro ⟨hfinal, hprojected⟩
      refine ⟨(), ⟨analysedSessions_nodup kept, hordered hprojected⟩, _, hevidence, not_not.mpr rfl,
        (), ⟨hcountAccepted.symm, hcountRejected.symm, hfinal⟩, hprojected⟩
  rw [parse_exportText message kept result hordinals haccepted hrejected]
  simp only [except_bind_iff]
  constructor
  · rintro ⟨bundle, u, hvalid, -⟩
    exact hconsistent.mp hvalid
  · intro h
    exact ⟨_, (), hconsistent.mpr h, rfl⟩

end Tickline.Analysis
