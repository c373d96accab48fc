import Tickline.Analysis.BundleExport
import Tickline.Analysis.ExportText

/-!
# Exports are faithful

What a reader of the JSON finds in the export of an archive: its records one by one, its sessions
in the order of their keys with their counts, and the totals (`ShowsArchive`).  `export_faithful`:
every archive that the store has, with a replay result and fewer than 2^31 records, has an export
that shows it.
-/

set_option autoImplicit false

namespace Tickline.Analysis

open Tickline.Library Tickline.Library.Json Tickline.Model Tickline.Model.Storage
open Tickline.Model.Storage.InvestigationStore

/-- A string member. -/
def HasString (object : Json) (name : String) (text : List Char) : Prop :=
  object.member? name = some (.string (units text))

/-- A number member. -/
def HasNumber (object : Json) (name : String) (value : ℕ) : Prop :=
  object.member? name = some (.number (decimal value))

/-- An element of the evidence shows a record. -/
structure ShowsRecord (record : CommandEvidenceRecord) (element : Json) : Prop where
  ordinal : HasNumber element "ordinal" record.ordinal.toNat
  clientId : HasString element "clientId" (decimal record.entry.envelope.clientId.value.toNat)
  sessionId : HasString element "sessionId" (decimal record.entry.envelope.sessionId.value.toNat)
  sequence : HasString element "sessionSequence" (decimal record.entry.envelope.sequence.toNat)
  targetTick : HasString element "targetTick" (decimal record.entry.envelope.targetTick.toNat)
  outcome : HasString element "outcome"
    (if record.entry.rejectionCode = .none then "accepted" else "rejected").toList
  rejectionCode : HasString element "rejectionCode"
    (commandRejectionCodeName record.entry.rejectionCode).toList
  previousDigest : HasString element "previousDigest" record.previousRecordDigest.toHex
  recordDigest : HasString element "recordDigest" (digestCommandEvidence record).toHex

/-- An element of the sessions shows the session of some records with this key. -/
structure ShowsSession (records : List CommandEvidenceRecord) (key : SessionKey) (element : Json) :
    Prop where
  clientId : HasString element "clientId" (decimal key.clientId.toNat)
  sessionId : HasString element "sessionId" (decimal key.sessionId.toNat)
  acceptedCommands : HasNumber element "acceptedCommands"
    (records.countP fun record => sessionKey record = key ∧ record.entry.rejectionCode = .none)
  rejectedCommands : HasNumber element "rejectedCommands"
    (records.countP fun record => sessionKey record = key ∧ record.entry.rejectionCode ≠ .none)

/-- A bundle shows some records. -/
structure ShowsArchive (records : List CommandEvidenceRecord) (bundle : Json) : Prop where
  evidence : ∃ elements, bundle.member? "evidence" = some (.array elements) ∧
    List.Forall₂ ShowsRecord records elements
  sessions : ∃ keys elements, bundle.member? "sessions" = some (.array elements) ∧
    keys.Pairwise (· < ·) ∧ (∀ key, key ∈ keys ↔ ∃ record ∈ records, sessionKey record = key) ∧
    List.Forall₂ (ShowsSession records) keys elements
  replay : ∃ replay, bundle.member? "replay" = some replay ∧
    HasNumber replay "acceptedCommands"
      (records.countP fun record => record.entry.rejectionCode = .none) ∧
    HasNumber replay "rejectedCommands"
      (records.countP fun record => record.entry.rejectionCode ≠ .none)

/-- INTERNAL: a string field under its name. -/
theorem string_shown {object : Json} {name : String} {text : List Char} :
    object.member? (Field.string name text).name = some (Field.string name text).json ↔
      HasString object name text :=
  Iff.rfl

/-- INTERNAL: a number field under its name. -/
theorem number_shown {object : Json} {name : String} {value : ℕ} :
    object.member? (Field.number name value).name = some (Field.number name value).json ↔
      HasNumber object name value :=
  Iff.rfl

/-- INTERNAL: a string field is a string member. -/
theorem hasString_objectOf {fields : List Field} (hnames : NamesDiffer fields) {name : String}
    {text : List Char} (h : Field.string name text ∈ fields) :
    HasString (objectOf fields) name text :=
  member?_objectOf hnames _ h

/-- INTERNAL: a number field is a number member. -/
theorem hasNumber_objectOf {fields : List Field} (hnames : NamesDiffer fields) {name : String}
    {value : ℕ} (h : Field.number name value ∈ fields) :
    HasNumber (objectOf fields) name value :=
  member?_objectOf hnames _ h

/-- INTERNAL: a record that decodes is exported with the name of its rejection code. -/
theorem rejectionName_eq {record : CommandEvidenceRecord} (h : RecordOk record) :
    rejectionName record = commandRejectionCodeName record.entry.rejectionCode := by
  have haccepted := recordWasAccepted_eq h
  unfold rejectionName
  split_ifs with hcode hqueue
  · rfl
  · simp [recordWasAccepted, isAccepted, not_not.mp hcode, hqueue] at haccepted
  · rw [not_not.mp hcode]
    rfl

/-- INTERNAL: a record is shown as its fields. -/
theorem showsRecord_fields (stored : StoredEvidenceRecord) (h : RecordOk stored.record)
    (hdigest : stored.recordDigest = digestCommandEvidence stored.record) :
    ShowsRecord stored.record (objectOf (recordFields stored)) := by
  have haccepted := recordWasAccepted_eq h
  have houtcome : (if recordWasAccepted stored.record then "accepted" else "rejected") =
      if stored.record.entry.rejectionCode = .none then "accepted" else "rejected" := by
    rw [haccepted, isAccepted]
    split_ifs <;> simp_all
  have hname := rejectionName_eq h
  have hnames := recordFields_names stored
  constructor
  case ordinal => exact hasNumber_objectOf hnames (by simp [recordFields])
  case clientId => exact hasString_objectOf hnames (by simp [recordFields])
  case sessionId => exact hasString_objectOf hnames (by simp [recordFields])
  case sequence => exact hasString_objectOf hnames (by simp [recordFields])
  case targetTick => exact hasString_objectOf hnames (by simp [recordFields])
  case outcome =>
    rw [← houtcome]
    exact hasString_objectOf hnames (by simp [recordFields])
  case rejectionCode =>
    rw [← hname]
    exact hasString_objectOf hnames (by simp [recordFields])
  case previousDigest => exact hasString_objectOf hnames (by simp [recordFields])
  case recordDigest =>
    rw [← hdigest]
    exact hasString_objectOf hnames (by simp [recordFields])

/-- INTERNAL: a session is shown as its fields. -/
theorem showsSession_fields {records : List CommandEvidenceRecord}
    {entry : SessionKey × SessionAggregate} (h : entry ∈ (aggregatesOf records).entries)
    (projection : SessionProjection) :
    ShowsSession records entry.1 (objectOf (sessionFields (summaryOf entry.1 entry.2) projection)) := by
  obtain ⟨haccepted, hrejected⟩ := entry_counts h
  have hnames := sessionFields_names (summaryOf entry.1 entry.2) projection
  have hacceptedCount : (records.countP fun record =>
      sessionKey record = entry.1 ∧ record.entry.rejectionCode = .none) = entry.2.acceptedCount := by
    rw [haccepted, List.countP_filter]
    exact List.countP_congr fun record _ => by simp [isAccepted, and_comm]
  have hrejectedCount : (records.countP fun record =>
      sessionKey record = entry.1 ∧ record.entry.rejectionCode ≠ .none) = entry.2.rejectedCount := by
    rw [hrejected, List.countP_filter]
    exact List.countP_congr fun record _ => by simp [isAccepted, and_comm]
  constructor
  case clientId => exact hasString_objectOf hnames (by simp [sessionFields, summaryOf])
  case sessionId => exact hasString_objectOf hnames (by simp [sessionFields, summaryOf])
  case acceptedCommands =>
    rw [hacceptedCount]
    exact hasNumber_objectOf hnames (by simp [sessionFields, summaryOf])
  case rejectedCommands =>
    rw [hrejectedCount]
    exact hasNumber_objectOf hnames (by simp [sessionFields, summaryOf])

/-- INTERNAL: an archive is shown by the value of its export. -/
theorem showsArchive_bundle (kept : KeptArchive) (result : CommandEvidenceReplayResult) :
    ShowsArchive kept.records (bundleJson kept.summary genesisDigest kept.shownSessions
      (kept.records.map (storedAs kept.archiveId)) result kept.acceptedCount
      kept.rejectedCount) := by
  obtain ⟨-, -, -, hok⟩ := kept.decoded
  constructor
  case evidence =>
    refine ⟨_, bundleJson_evidence .., ?_⟩
    rw [List.forall₂_map_right_iff, List.forall₂_map_right_iff, List.forall₂_same]
    intro record hrecord
    exact showsRecord_fields (storedAs kept.archiveId record) (hok record hrecord)
      (storedAs_recordDigest ..)
  case sessions =>
    refine ⟨(aggregatesOf kept.records).keys, _, bundleJson_sessions ..,
      OrderedMap.keys_ascending _, fun key => mem_session_keys, ?_⟩
    rw [KeptArchive.shownSessions, List.forall₂_map_right_iff, List.forall₂_map_right_iff,
      OrderedMap.keys, List.forall₂_map_left_iff, List.forall₂_same]
    exact fun entry hentry => showsSession_fields hentry _
  case replay =>
    have hnames := replayFields_names result kept.acceptedCount kept.rejectedCount
    have haccepted : (kept.records.countP fun record => record.entry.rejectionCode = .none) =
        kept.acceptedCount := rfl
    have hrejected : (kept.records.countP fun record => record.entry.rejectionCode ≠ .none) =
        kept.rejectedCount := by
      simp [KeptArchive.rejectedCount, isAccepted]
    refine ⟨_, bundleJson_replay .., ?_, ?_⟩
    · rw [haccepted]
      exact hasNumber_objectOf hnames (by simp [replayFields])
    · rw [hrejected]
      exact hasNumber_objectOf hnames (by simp [replayFields])

/-- **Exports are faithful.**  After every run of a store, whichever statements failed, every
archive in it with a replay result and fewer than 2^31 records has an export, and the JSON of the
export shows the archive's records as they were imported, its sessions and the totals.
SRC: investigation_bundle_exporter.cpp:190-666, investigation_store.cpp:635-848, 983-1085 -/
theorem export_faithful (calls : List Call) {kept : KeptArchive}
    (hkept : kept ∈ archivesOf Statement.boundText (machine.trace opened calls))
    {result : CommandEvidenceReplayResult} (hreplay : kept.replay = some result)
    (hcount : kept.records.length < 2 ^ 31) :
    ∃ text bundle,
      exportInvestigationBundleJson (machine.final opened calls).committed kept.archiveId =
        .ok text ∧
      decode (fun _ => true) text = some bundle ∧ ShowsArchive kept.records bundle ∧
      kept.records.Pairwise fun a b => a.ordinal < b.ordinal := by
  obtain ⟨-, h⟩ := represents_run calls
  exact ⟨_, _, export_of_length h hkept hreplay hcount,
    decode_bundleText (fun _ _ => rfl) _ _ _ _ _ _ _, showsArchive_bundle kept result,
    kept.ascending⟩

theorem export_faithful_sample :
    ∃ text bundle,
      exportInvestigationBundleJson (machine.final opened sampleStoreCalls).committed 1 =
        .ok text ∧
      decode (fun _ => true) text = some bundle ∧ ShowsArchive [sampleRecord] bundle ∧
      [sampleRecord].Pairwise fun a b => a.ordinal < b.ordinal :=
  @export_faithful sampleStoreCalls (keptOne sample_decodes [97] sampleResult)
    (by rw [archivesOf_sampleStoreCalls]; exact List.mem_singleton.mpr rfl) sampleResult rfl
    (by show 1 < 2 ^ 31; norm_num)

end Tickline.Analysis
