import Tickline.Analysis.ExportFidelity
import Tickline.Analysis.WorkspaceLoad
import Tickline.Model.ForensicsJson

/-!
# Exports load in the viewer

The bundle that the viewer reads from an export is `viewedBundle`.  The validator finds no issue
in it: its numbers are digits, its digests are lowercase hexadecimal, its sessions are those of
its records and each once, and its records are the hash chain that the archive was decoded to.
Its sessions are numeric and different, so the builder opens it.
-/

set_option autoImplicit false

namespace Tickline.Analysis

open Tickline.Library Tickline.Library.Json Tickline.Model Tickline.Model.Storage
open Tickline.Model.Storage.InvestigationStore Tickline.Model.Forensics

/-! ## Texts -/

/-- INTERNAL: the digits of a number are digits. -/
theorem isDigit_units {n : ℕ} {unit : UInt16} (h : unit ∈ units (decimal n)) :
    isDigit unit = true := by
  have hall : ∀ unit ∈ ([48, 49, 50, 51, 52, 53, 54, 55, 56, 57] : List UInt16),
      isDigit unit = true :=
    List.all_iff_forall_prop.mp (by decide)
  exact hall unit (mem_units_toDigits h)

/-- **A number is parsed from its digits.** -/
theorem parseDigits_decimal (n : UInt64) : parseDigits (units (decimal n.toNat)) = .ok n := by
  have htake : (units (decimal n.toNat)).takeWhile isDigit = units (decimal n.toNat) :=
    List.takeWhile_eq_self_iff.mpr fun _ => isDigit_units
  have hdrop : (units (decimal n.toNat)).dropWhile isDigit = [] :=
    List.dropWhile_eq_nil_iff.mpr fun _ => isDigit_units
  have hnonempty : (units (decimal n.toNat)).isEmpty = false :=
    List.isEmpty_eq_false_iff.mpr (units_toDigits_ne_nil _)
  have hvalue : digitsValue (units (decimal n.toNat)) = n.toNat := foldl_units_toDigits _
  unfold parseDigits
  simp only [htake, hdrop, hnonempty, hvalue, List.any_nil, Bool.or_self, Bool.false_eq_true,
    if_false, if_pos n.toNat_lt, UInt64.ofNat_toNat]

/-- INTERNAL: digits pass as a required number. -/
theorem validateUInt64_decimal (n : UInt64) (path : String) :
    validateUInt64 (some (units (decimal n.toNat))) path = [] := by
  unfold validateUInt64
  rw [issueIf_eq_nil, Bool.or_eq_false_iff]
  refine ⟨List.isEmpty_eq_false_iff.mpr (units_toDigits_ne_nil _), ?_⟩
  rw [tryParseUnsigned, parseDigits_decimal]
  rfl

/-- INTERNAL: digits pass as a required text. -/
theorem requireText_decimal (n : ℕ) (path : String) :
    requireText (some (units (decimal n))) path = [] := by
  have hall : ∀ unit ∈ ([48, 49, 50, 51, 52, 53, 54, 55, 56, 57] : List UInt16),
      isWhiteSpace unit = false :=
    List.all_iff_forall_prop.mp (by decide)
  unfold requireText
  rw [issueIf_eq_nil, isNullOrWhiteSpace, ← Bool.not_eq_true, List.all_eq_true]
  intro hspace
  obtain ⟨unit, rest, hunits⟩ := List.exists_cons_of_ne_nil (units_toDigits_ne_nil n)
  have hfirst : unit ∈ units (decimal n) := by
    rw [decimal, hunits]
    exact List.mem_cons_self ..
  have hwhite := hspace unit hfirst
  rw [hall unit (mem_units_toDigits hfirst)] at hwhite
  cases hwhite

/-- INTERNAL: a digest passes as a digest. -/
theorem validateDigest_toHex (digest : Sha256Digest) (path : String) :
    validateDigest (some (units digest.toHex)) path = [] := by
  have hdigit : ∀ unit ∈ ([48, 49, 50, 51, 52, 53, 54, 55, 56, 57, 97, 98, 99, 100, 101, 102] :
      List UInt16), isLowerHexDigit unit = true :=
    List.all_iff_forall_prop.mp (by decide)
  have hall : (units digest.toHex).all isLowerHexDigit = true :=
    List.all_eq_true.mpr fun unit hunit => hdigit unit (mem_units_toHex hunit)
  unfold validateDigest
  rw [issueIf_eq_nil]
  simp [hall, length_units_toHex]

/-! ## The bundle that is read -/

/-- A session as the viewer reads it. -/
def viewedSession (session : EvidenceSessionSummary) (projection : SessionProjection) :
    InvestigationSession where
  clientId := some (units (decimal session.clientId.value.toNat))
  sessionId := some (units (decimal session.sessionId.value.toNat))
  lastCommittedSequence := some (units (decimal projection.lastCommittedSequence.toNat))
  firstTargetTick := some (units (decimal projection.firstTargetTick.toNat))
  lastTargetTick := some (units (decimal projection.lastTargetTick.toNat))
  acceptedCommands := Int32.ofInt session.acceptedCount
  rejectedCommands := Int32.ofInt session.rejectedCount

/-- A record as the viewer reads it. -/
def viewedRecord (stored : StoredEvidenceRecord) : InvestigationEvidenceRecord where
  ordinal := Int32.ofInt stored.record.ordinal.toNat
  clientId := some (units (decimal stored.record.entry.envelope.clientId.value.toNat))
  sessionId := some (units (decimal stored.record.entry.envelope.sessionId.value.toNat))
  sessionSequence := some (units (decimal stored.record.entry.envelope.sequence.toNat))
  targetTick := some (units (decimal stored.record.entry.envelope.targetTick.toNat))
  commandType := some (net (commandTypeName stored.record.entry.envelope.type))
  outcome := some (net (if recordWasAccepted stored.record then "accepted" else "rejected"))
  rejectionCode := some (net (rejectionName stored.record))
  previousDigest := some (units stored.record.previousRecordDigest.toHex)
  recordDigest := some (units stored.recordDigest.toHex)

/-- A replay summary as the viewer reads it. -/
def viewedReplay (replay : CommandEvidenceReplayResult) (acceptedCount rejectedCount : ℕ) :
    ReplaySummary where
  verified := replay.verified
  finalTick := some (units (decimal replay.finalTick.toNat))
  finalWorldFingerprint := some (units (decimal replay.finalWorldFingerprint.value.toNat))
  acceptedCommands := Int32.ofInt acceptedCount
  rejectedCommands := Int32.ofInt rejectedCount

/-- The bundle that the viewer reads from the export of an archive. -/
def viewedBundle (kept : KeptArchive) (result : CommandEvidenceReplayResult) :
    InvestigationBundle where
  schemaVersion := supportedSchemaVersion
  archiveDigest := some (units kept.digest.toHex)
  initialHeadDigest := some (units genesisDigest.toHex)
  trustedHeadDigest := some (units kept.head.toHex)
  importedAtUtc := some (NetString.ofText (normalizeTimestamp kept.importedAt.currentTimestamp))
  sessions := some (kept.shownSessions.map fun entry => some (viewedSession entry.1 entry.2))
  evidence := some (kept.records.map fun record =>
    some (viewedRecord (storedAs kept.archiveId record)))
  replay := some (viewedReplay result kept.acceptedCount kept.rejectedCount)

section

variable {object : Json} {name : String}

/-- INTERNAL: a string field is read. -/
theorem fieldFromJson_string {text : List Char} (h : HasString object name text)
    (default : Option NetString) :
    fieldFromJson stringFromJson default name object = some (some (units text)) := by
  unfold fieldFromJson
  rw [h]
  rfl

/-- INTERNAL: a number field is read. -/
theorem fieldFromJson_int {value : ℕ} (h : HasNumber object name value) (hvalue : value < 2 ^ 31)
    (default : Int32) :
    fieldFromJson intFromJson default name object = some (Int32.ofInt value) := by
  unfold fieldFromJson
  rw [h]
  simp only [intFromJson, decimal, integer?_toDigits, bind, Option.bind]
  rw [if_pos ⟨by omega, by exact_mod_cast hvalue⟩]

/-- INTERNAL: an array field is read. -/
theorem fieldFromJson_array {α β : Type} (read : Json → Option α) {toJson : β → Json}
    (view : β → α) {elements : List β}
    (h : object.member? name = some (.array (elements.map toJson)))
    (hread : ∀ element ∈ elements, read (toJson element) = some (view element))
    (default : Option (List (Option α))) :
    fieldFromJson (arrayFromJson read) default name object =
      some (some (elements.map fun element => some (view element))) := by
  have hall : (elements.map toJson).mapM read = some (elements.map view) := by
    clear h
    induction elements with
    | nil => rfl
    | cons element elements ih =>
      have hrest := ih fun other hother => hread other (List.mem_cons_of_mem _ hother)
      rw [List.map_cons, List.mapM_cons, hread element (List.mem_cons_self ..), hrest]
      rfl
  unfold fieldFromJson
  rw [h]
  simp only [arrayFromJson, hall, bind, Option.bind, List.map_map]
  rfl

end

/-- INTERNAL: a session is read from its fields. -/
theorem fromJson_session {session : EvidenceSessionSummary} (projection : SessionProjection)
    (haccepted : session.acceptedCount < 2 ^ 31) (hrejected : session.rejectedCount < 2 ^ 31) :
    InvestigationSession.fromJson (objectOf (sessionFields session projection)) =
      some (viewedSession session projection) := by
  have hfields := fun field =>
    member?_objectOf (sessionFields_names session projection) field
  generalize objectOf (sessionFields session projection) = object at hfields ⊢
  simp only [sessionFields, List.forall_mem_cons, string_shown, number_shown] at hfields
  obtain ⟨hclient, hsession, hlast, hfirst, hlastTick, hacceptedField, hrejectedField, -⟩ := hfields
  simp only [InvestigationSession.fromJson, fieldFromJson_string hclient,
    fieldFromJson_string hsession, fieldFromJson_string hlast, fieldFromJson_string hfirst,
    fieldFromJson_string hlastTick, fieldFromJson_int hacceptedField haccepted,
    fieldFromJson_int hrejectedField hrejected]
  rfl

/-- INTERNAL: a record is read from its fields. -/
theorem fromJson_record (stored : StoredEvidenceRecord)
    (hordinal : stored.record.ordinal.toNat < 2 ^ 31) :
    InvestigationEvidenceRecord.fromJson (objectOf (recordFields stored)) =
      some (viewedRecord stored) := by
  have hfields := fun field => member?_objectOf (recordFields_names stored) field
  generalize objectOf (recordFields stored) = object at hfields ⊢
  simp only [recordFields, List.forall_mem_cons, string_shown, number_shown] at hfields
  obtain ⟨hordinalField, hclient, hsession, hsequence, htick, htype, houtcome, hrejection,
    hprevious, hdigest, -⟩ := hfields
  simp only [InvestigationEvidenceRecord.fromJson, fieldFromJson_int hordinalField hordinal,
    fieldFromJson_string hclient, fieldFromJson_string hsession, fieldFromJson_string hsequence,
    fieldFromJson_string htick, fieldFromJson_string htype, fieldFromJson_string houtcome,
    fieldFromJson_string hrejection, fieldFromJson_string hprevious, fieldFromJson_string hdigest]
  rfl

/-- INTERNAL: a replay summary is read from its fields. -/
theorem fromJson_replay (replay : CommandEvidenceReplayResult) {acceptedCount rejectedCount : ℕ}
    (haccepted : acceptedCount < 2 ^ 31) (hrejected : rejectedCount < 2 ^ 31) :
    ReplaySummary.fromJson (objectOf (replayFields replay acceptedCount rejectedCount)) =
      some (viewedReplay replay acceptedCount rejectedCount) := by
  have hfields := fun field =>
    member?_objectOf (replayFields_names replay acceptedCount rejectedCount) field
  generalize objectOf (replayFields replay acceptedCount rejectedCount) = object at hfields ⊢
  simp only [replayFields, List.forall_mem_cons, string_shown, number_shown] at hfields
  obtain ⟨hverified, htick, hfingerprint, hacceptedField, hrejectedField, -⟩ := hfields
  have hboolean : fieldFromJson boolFromJson false "verified" object = some replay.verified := by
    unfold fieldFromJson
    rw [show object.member? "verified" = some (.boolean replay.verified) from hverified]
    rfl
  simp only [ReplaySummary.fromJson, hboolean, fieldFromJson_string htick,
    fieldFromJson_string hfingerprint, fieldFromJson_int hacceptedField haccepted,
    fieldFromJson_int hrejectedField hrejected]
  rfl

/-- **The bundle that is read from an export.** -/
theorem fromJson_bundle (kept : KeptArchive) (result : CommandEvidenceReplayResult)
    (hordinals : ∀ record ∈ kept.records, record.ordinal.toNat < 2 ^ 31)
    (haccepted : kept.acceptedCount < 2 ^ 31) (hrejected : kept.rejectedCount < 2 ^ 31) :
    InvestigationBundle.fromJson (bundleJson kept.summary genesisDigest kept.shownSessions
      (kept.records.map (storedAs kept.archiveId)) result kept.acceptedCount kept.rejectedCount) =
      some (viewedBundle kept result) := by
  have hfields := fun field => bundleJson_head kept.summary genesisDigest kept.shownSessions
    (kept.records.map (storedAs kept.archiveId)) result kept.acceptedCount kept.rejectedCount field
  have hsessionsField := bundleJson_sessions kept.summary genesisDigest kept.shownSessions
    (kept.records.map (storedAs kept.archiveId)) result kept.acceptedCount kept.rejectedCount
  have hevidenceField := bundleJson_evidence kept.summary genesisDigest kept.shownSessions
    (kept.records.map (storedAs kept.archiveId)) result kept.acceptedCount kept.rejectedCount
  have hreplayField := bundleJson_replay kept.summary genesisDigest kept.shownSessions
    (kept.records.map (storedAs kept.archiveId)) result kept.acceptedCount kept.rejectedCount
  generalize bundleJson .. = object at hfields hsessionsField hevidenceField hreplayField ⊢
  simp only [headFields, List.forall_mem_cons, string_shown, number_shown] at hfields
  obtain ⟨hschema, harchive, hinitial, htrusted, himported, -⟩ := hfields
  have hsessions := fieldFromJson_array InvestigationSession.fromJson
    (fun entry => viewedSession entry.1 entry.2) hsessionsField (by
      intro shown hshown
      obtain ⟨hone, htwo⟩ := shownSession_counts hshown
      exact fromJson_session shown.2 (hone.trans_lt haccepted) (htwo.trans_lt hrejected))
    (some [])
  rw [List.map_map] at hevidenceField
  have hevidence := fieldFromJson_array InvestigationEvidenceRecord.fromJson
    (fun record => viewedRecord (storedAs kept.archiveId record)) hevidenceField (by
      intro record hrecord
      exact fromJson_record (storedAs kept.archiveId record) (hordinals record hrecord))
    (some [])
  have hreplay : fieldFromJson (fun value => return some (← ReplaySummary.fromJson value))
      (some {}) "replay" object =
        some (some (viewedReplay result kept.acceptedCount kept.rejectedCount)) := by
    unfold fieldFromJson
    rw [hreplayField]
    simp only [fromJson_replay result haccepted hrejected]
    rfl
  simp only [InvestigationBundle.fromJson, fieldFromJson_int hschema (by decide),
    fieldFromJson_string harchive, fieldFromJson_string hinitial, fieldFromJson_string htrusted,
    fieldFromJson_string himported, hsessions, hevidence, hreplay]
  rfl

/-! ## No issues -/

/-- INTERNAL: a count is not negative. -/
theorem not_negative {count : ℕ} (h : count < 2 ^ 31) : ¬ Int32.ofInt count < 0 := by
  rw [Int32.lt_iff_toInt_lt, Int32.toInt_ofInt_of_le (by omega) (by exact_mod_cast h),
    Int32.toInt_zero]
  omega

/-- INTERNAL: the checks of a session. -/
theorem validateSession_viewed {session : EvidenceSessionSummary} (projection : SessionProjection)
    (haccepted : session.acceptedCount < 2 ^ 31) (hrejected : session.rejectedCount < 2 ^ 31)
    (path : String) : validateSession (viewedSession session projection) path = [] := by
  unfold validateSession viewedSession
  simp only [requireText_decimal, validateUInt64_decimal, issueIf_eq_nil, List.append_eq_nil_iff,
    decide_eq_false_iff_not]
  simp only [not_negative haccepted, not_negative hrejected, not_false_eq_true, and_self]

/-- INTERNAL: the loop over sessions that pass and are different. -/
theorem validateSessionsFrom_of_distinct {sessions : List InvestigationSession}
    (hvalid : ∀ session ∈ sessions, ∀ path, validateSession session path = []) :
    ∀ {index : ℕ} {identities : List NetString},
      (sessions.map fun session => identity session.clientId session.sessionId).Nodup →
      (∀ session ∈ sessions, identity session.clientId session.sessionId ∉ identities) →
      validateSessionsFrom index identities (sessions.map some) = [] := by
  induction sessions with
  | nil => exact fun _ _ => rfl
  | cons session sessions ih =>
    intro index identities hnodup hnew
    obtain ⟨hfirst, hrest⟩ := List.nodup_cons.mp hnodup
    simp only [List.map_cons, validateSessionsFrom, List.append_eq_nil_iff, issueIf_eq_nil]
    refine ⟨⟨hvalid session (List.mem_cons_self ..) _, ?_⟩, ?_⟩
    · rw [List.contains_eq_mem, decide_eq_false_iff_not]
      exact hnew session (List.mem_cons_self ..)
    · refine ih (fun other hother => hvalid other (List.mem_cons_of_mem _ hother)) hrest ?_
      intro other hother hmem
      rcases List.mem_cons.mp hmem with heq | hmem
      · exact hfirst (List.mem_map.mpr ⟨other, hother, heq⟩)
      · exact hnew other (List.mem_cons_of_mem _ hother) hmem

/-- INTERNAL: the key of a session that is read. -/
theorem sessionKey?_viewed (session : EvidenceSessionSummary) (projection : SessionProjection) :
    sessionKey? (viewedSession session projection) =
      some { clientId := session.clientId.value, sessionId := session.sessionId.value } :=
  sessionKey?_eq_some.mpr ⟨parseDigits_decimal _, parseDigits_decimal _⟩

/-- INTERNAL: the sessions of an archive are different. -/
theorem shownKeys_nodup (kept : KeptArchive) :
    (kept.shownSessions.map fun shown => ({
      clientId := shown.1.clientId.value
      sessionId := shown.1.sessionId.value } : InvestigationSessionKey)).Nodup := by
  have hkeys : (aggregatesOf kept.records).keys.Nodup :=
    (aggregatesOf kept.records).keys_ascending.imp ne_of_lt
  have hinjective : Function.Injective fun key : SessionKey => ({
      clientId := key.clientId
      sessionId := key.sessionId } : InvestigationSessionKey) := by
    rintro ⟨c, s⟩ ⟨c', s'⟩ h
    obtain ⟨rfl, rfl⟩ := InvestigationSessionKey.mk.inj h
    rfl
  have hmap := hkeys.map hinjective
  rw [OrderedMap.keys, List.map_map] at hmap
  rw [KeptArchive.shownSessions, List.map_map]
  exact hmap

/-- INTERNAL: the identity of a session tells its key. -/
theorem key_of_identity {a b : EvidenceSessionSummary} {p q : SessionProjection}
    (h : identity (viewedSession a p).clientId (viewedSession a p).sessionId =
      identity (viewedSession b q).clientId (viewedSession b q).sessionId) :
    a.clientId.value = b.clientId.value ∧ a.sessionId.value = b.sessionId.value := by
  obtain ⟨hclient, hsession⟩ := ids_eq_of_identity ⟨_, rfl⟩ ⟨_, rfl⟩ (sessionKey?_viewed b q) h
  have hparse := fun n : UInt64 => parseDigits_decimal n
  have hc := Option.some.inj hclient
  have hs := Option.some.inj hsession
  have hc' := (hparse a.clientId.value).symm.trans ((congrArg parseDigits hc).trans (hparse _))
  have hs' := (hparse a.sessionId.value).symm.trans ((congrArg parseDigits hs).trans (hparse _))
  exact ⟨Except.ok.inj hc', Except.ok.inj hs'⟩

/-- INTERNAL: the sessions of an archive have no issues. -/
theorem validateSessions_viewed (kept : KeptArchive) (haccepted : kept.acceptedCount < 2 ^ 31)
    (hrejected : kept.rejectedCount < 2 ^ 31) :
    validateSessions (kept.shownSessions.map fun shown =>
      some (viewedSession shown.1 shown.2)) = [] := by
  have hmap : (kept.shownSessions.map fun shown => some (viewedSession shown.1 shown.2)) =
      (kept.shownSessions.map fun shown => viewedSession shown.1 shown.2).map some := by
    rw [List.map_map]
    rfl
  rw [hmap]
  refine validateSessionsFrom_of_distinct ?_ ?_ (by simp)
  · intro session hsession path
    obtain ⟨shown, hshown, rfl⟩ := List.mem_map.mp hsession
    obtain ⟨hone, htwo⟩ := shownSession_counts hshown
    exact validateSession_viewed shown.2 (hone.trans_lt haccepted) (htwo.trans_lt hrejected) path
  · rw [List.map_map]
    have hkeys := shownKeys_nodup kept
    rw [List.nodup_iff_pairwise_ne, List.pairwise_map] at hkeys ⊢
    refine hkeys.imp fun hne heq => hne ?_
    obtain ⟨hclient, hsession⟩ := key_of_identity heq
    rw [hclient, hsession]

/-- INTERNAL: the sessions of an archive are loadable. -/
theorem sessionsLoadable_viewed (kept : KeptArchive) :
    SessionsLoadable (kept.shownSessions.map fun shown =>
      some (viewedSession shown.1 shown.2)) := by
  constructor
  case numeric =>
    intro session hsession
    obtain ⟨shown, -, heq⟩ := List.mem_map.mp hsession
    rw [← Option.some.inj heq, sessionKey?_viewed]
    rfl
  case distinct =>
    rw [List.filterMap_map]
    have hkey : ((fun entry => entry.bind sessionKey?) ∘
        fun shown : EvidenceSessionSummary × SessionProjection =>
          some (viewedSession shown.1 shown.2)) = some ∘ fun shown => {
            clientId := shown.1.clientId.value
            sessionId := shown.1.sessionId.value } :=
      funext fun shown => sessionKey?_viewed shown.1 shown.2
    rw [hkey, List.filterMap_eq_map]
    exact shownKeys_nodup kept

/-- INTERNAL: every record's session is among the sessions. -/
theorem identity_known {kept : KeptArchive} {record : CommandEvidenceRecord}
    (h : record ∈ kept.records) :
    identity (viewedRecord (storedAs kept.archiveId record)).clientId
        (viewedRecord (storedAs kept.archiveId record)).sessionId ∈
      sessionIdentities (kept.shownSessions.map fun shown =>
        some (viewedSession shown.1 shown.2)) := by
  obtain ⟨entry, hentry, hkey⟩ := List.mem_map.mp (mem_session_keys.mpr ⟨record, h, rfl⟩)
  refine List.mem_filterMap.mpr ⟨_, List.mem_map.mpr ⟨_, List.mem_map.mpr ⟨entry, hentry, rfl⟩,
    rfl⟩, ?_⟩
  rw [Option.map_some]
  simp only [viewedSession, summaryOf, hkey]
  rfl

/-- INTERNAL: the checks of a record. -/
theorem validateRecord_viewed {identities : List NetString} (stored : StoredEvidenceRecord)
    {index : ℕ} (hindex : stored.record.ordinal.toNat = index) (hordinal : index < 2 ^ 31)
    (hknown : identity (viewedRecord stored).clientId (viewedRecord stored).sessionId ∈ identities)
    (path : String) : validateRecord identities index (viewedRecord stored) path = [] := by
  have hint : (Int32.ofInt (index : ℤ)).toInt = index :=
    Int32.toInt_ofInt_of_le (by omega) (by exact_mod_cast hordinal)
  have htype : requireText (some (net (commandTypeName stored.record.entry.envelope.type)))
      (path ++ ".commandType") = [] := by
    unfold requireText commandTypeName
    rw [issueIf_eq_nil]
    split_ifs <;> decide
  have houtcome : (viewedRecord stored).outcome = some (net "accepted") ∨
      (viewedRecord stored).outcome = some (net "rejected") := by
    unfold viewedRecord
    cases recordWasAccepted stored.record
    · exact Or.inr rfl
    · exact Or.inl rfl
  unfold validateRecord
  simp only [List.append_eq_nil_iff, issueIf_eq_nil]
  refine ⟨⟨⟨⟨⟨⟨⟨⟨⟨?_, requireText_decimal ..⟩, requireText_decimal ..⟩, htype⟩,
    validateUInt64_decimal ..⟩, validateUInt64_decimal ..⟩, validateDigest_toHex ..⟩,
    validateDigest_toHex ..⟩, ?_⟩, ?_⟩
  · rw [decide_eq_false_iff_not, not_not, viewedRecord, hindex, hint]
  · rw [Bool.and_eq_false_iff, decide_eq_false_iff_not, decide_eq_false_iff_not, not_not, not_not]
    exact houtcome
  · rw [List.contains_eq_mem, decide_eq_true hknown]
    rfl

/-- INTERNAL: the loop over the records of a chain. -/
theorem validateEvidenceFrom_linked {identities : List NetString} (archiveId : Int64)
    {records : List CommandEvidenceRecord} :
    ∀ {index : ℕ} {previous head : Sha256Digest}, evidenceChain.Linked index previous records head →
      (∀ record ∈ records, record.ordinal.toNat < 2 ^ 31 ∧
        identity (viewedRecord (storedAs archiveId record)).clientId
          (viewedRecord (storedAs archiveId record)).sessionId ∈ identities) →
      validateEvidenceFrom identities index (some (units previous.toHex))
          (records.map fun record => some (viewedRecord (storedAs archiveId record))) = [] ∧
        expectedHead (records.map fun record => some (viewedRecord (storedAs archiveId record)))
          (some (units previous.toHex)) = some (units head.toHex) := by
  induction records with
  | nil =>
    rintro index previous head rfl -
    exact ⟨rfl, rfl⟩
  | cons record records ih =>
    rintro index previous head ⟨hordinal, hprevious, hrest⟩ hall
    obtain ⟨hrange, hknown⟩ := hall record (List.mem_cons_self ..)
    obtain ⟨hvalidate, hhead⟩ :=
      ih hrest fun other hother => hall other (List.mem_cons_of_mem _ hother)
    have hordinal' : record.ordinal.toNat = index := hordinal
    have hprevious' : record.previousRecordDigest = previous := hprevious
    have hdigest : (viewedRecord (storedAs archiveId record)).recordDigest =
        some (units (evidenceChain.digest record).toHex) := by
      simp only [viewedRecord, storedAs_recordDigest]
      rfl
    rw [List.map_cons, expectedHead_cons, hdigest]
    refine ⟨?_, hhead⟩
    simp only [validateEvidenceFrom, hdigest, hvalidate, List.append_nil, List.append_eq_nil_iff,
      issueIf_eq_nil]
    refine ⟨validateRecord_viewed (storedAs archiveId record) hordinal'
      (hordinal' ▸ hrange) hknown _, ?_⟩
    rw [decide_eq_false_iff_not, not_not]
    show some (units record.previousRecordDigest.toHex) = _
    rw [hprevious']

/-- INTERNAL: the outcomes that the viewer counts. -/
theorem countOutcome_viewed (kept : KeptArchive) :
    countOutcome (net "accepted") (kept.records.map fun record =>
        some (viewedRecord (storedAs kept.archiveId record))) = kept.acceptedCount ∧
      countOutcome (net "rejected") (kept.records.map fun record =>
        some (viewedRecord (storedAs kept.archiveId record))) = kept.rejectedCount := by
  obtain ⟨-, -, -, hok⟩ := kept.decoded
  have houtcome : ∀ record ∈ kept.records,
      (viewedRecord (storedAs kept.archiveId record)).outcome =
        some (net (if isAccepted record then "accepted" else "rejected")) := by
    intro record hrecord
    rw [← recordWasAccepted_eq (hok record hrecord)]
    rfl
  have haccepted : ∀ accepted : Bool, decide (some (net (if accepted then "accepted" else
      "rejected")) = some (net "accepted")) = accepted := by
    decide
  have hrejected : ∀ accepted : Bool, decide (some (net (if accepted then "accepted" else
      "rejected")) = some (net "rejected")) = !accepted := by
    decide
  constructor
  · rw [countOutcome, List.countP_map]
    refine List.countP_congr fun record hrecord => ?_
    rw [Function.comp_apply, Option.any_some, houtcome record hrecord, haccepted]
  · rw [countOutcome, List.countP_map]
    refine List.countP_congr fun record hrecord => ?_
    rw [Function.comp_apply, Option.any_some, houtcome record hrecord, hrejected]

/-- **The validator finds no issue in an export.**
SRC: InvestigationBundleValidator.cs:11-397 -/
theorem validate_viewed {parser : TimestampParser} {kept : KeptArchive}
    (hparser : parser (NetString.ofText
      (normalizeTimestamp kept.importedAt.currentTimestamp)) = true)
    (result : CommandEvidenceReplayResult)
    (hordinals : ∀ record ∈ kept.records, record.ordinal.toNat < 2 ^ 31)
    (haccepted : kept.acceptedCount < 2 ^ 31) (hrejected : kept.rejectedCount < 2 ^ 31) :
    validate parser (some (viewedBundle kept result)) = [] := by
  obtain ⟨-, hlinked, -⟩ := kept.decoded
  obtain ⟨hevidence, hhead⟩ := validateEvidenceFrom_linked kept.archiveId hlinked
    fun record hrecord => ⟨hordinals record hrecord, identity_known hrecord⟩
  obtain ⟨hcountAccepted, hcountRejected⟩ := countOutcome_viewed kept
  have hint : ∀ count : ℕ, count < 2 ^ 31 → (Int32.ofInt count).toInt = count := fun count h =>
    Int32.toInt_ofInt_of_le (by omega) (by exact_mod_cast h)
  have htimestamp : validateTimestamp parser (viewedBundle kept result).importedAtUtc = [] := by
    rw [validateTimestamp, issueIf_eq_nil, viewedBundle, Option.any_some, hparser]
    rfl
  have hreplay : validateReplay (viewedBundle kept result).replay
      (viewedBundle kept result).evidenceArray = [] := by
    have harray : (viewedBundle kept result).evidenceArray = kept.records.map fun record =>
        some (viewedRecord (storedAs kept.archiveId record)) := rfl
    rw [harray, viewedBundle, viewedReplay]
    simp only [validateReplay, validateUInt64_decimal, List.nil_append, List.append_eq_nil_iff,
      issueIf_eq_nil, hcountAccepted, hcountRejected, hint _ haccepted, hint _ hrejected, ne_eq,
      not_true_eq_false, decide_false, and_self]
  unfold validate
  simp only [List.append_eq_nil_iff]
  refine ⟨⟨⟨⟨⟨⟨⟨rfl, validateDigest_toHex ..⟩, validateDigest_toHex ..⟩, validateDigest_toHex ..⟩,
    htimestamp⟩, validateSessions_viewed kept haccepted hrejected⟩, ?_⟩, hreplay⟩
  rw [validateEvidence, List.append_eq_nil_iff, issueIf_eq_nil, decide_eq_false_iff_not, not_not]
  exact ⟨hevidence, hhead.symm⟩

/-! ## The workspace -/

/-- INTERNAL: a workspace has the inspections of its bundle's sessions. -/
theorem sessions_of_build {parser : TimestampParser} {bundle : InvestigationBundle}
    {seconds : Double} {workspace : InvestigationWorkspace} {validation : BundleValidationResult}
    (h : buildWorkspace parser (some bundle) seconds =
      .ok { workspace := some workspace, validation }) {session : InvestigationSession}
    (hsession : some session ∈ bundle.sessionArray) {inspection : InvestigationSessionInspection}
    (hmake : InvestigationSessionInspection.make (some session) = .ok inspection) :
    inspection ∈ workspace.sessions := by
  obtain ⟨timeline, inspections, evidence, playback, -, -, hmade, -, -, -, rfl⟩ :=
    madeOf_build h rfl
  obtain ⟨i, hi, hget⟩ := List.mem_iff_getElem.mp hsession
  have hat := hmade.get hi (hmade.length_eq ▸ hi)
  rw [List.get_eq_getElem, hget, hmake] at hat
  rw [Except.ok.inj hat]
  exact (List.mem_insertionSort _).mpr (List.get_mem ..)

/-- An inspection is of a record, and is linked to the session with the record's identifiers. -/
structure Inspects (workspace : InvestigationWorkspace) (record : CommandEvidenceRecord)
    (inspection : InvestigationEvidenceInspection) : Prop where
  index : inspection.timelineEntry.index = record.ordinal.toNat
  ordinal : inspection.timelineEntry.ordinal.toInt = record.ordinal.toNat
  recordDigest : inspection.timelineEntry.recordDigest =
    some (NetString.ofText (digestCommandEvidence record).toHex)
  session : inspection.session ∈ workspace.sessions
  clientId : inspection.session.clientIdValue = record.entry.envelope.clientId.value
  sessionId : inspection.session.sessionIdValue = record.entry.envelope.sessionId.value

section

variable {parser : TimestampParser} {bundle : InvestigationBundle} {seconds : Double}
  {workspace : InvestigationWorkspace}

/-- INTERNAL: the inspection that is linked to a record's session. -/
theorem inspects_of_linkedTo
    (hbuild : buildWorkspace parser (some bundle) seconds =
      .ok { workspace := some workspace, validation := [] })
    {archiveId : Int64} {record : CommandEvidenceRecord} {index : ℕ}
    (hindex : record.ordinal.toNat = index) (hordinal : record.ordinal.toNat < 2 ^ 31)
    {inspection : InvestigationEvidenceInspection}
    (h : LinkedTo bundle.sessionArray (some (viewedRecord (storedAs archiveId record)), index)
      inspection) : Inspects workspace record inspection := by
  obtain ⟨viewed, session, hviewed, hsession, hclient, hid, hentry, hmake⟩ := h
  obtain rfl := Option.some.inj hviewed
  obtain ⟨hplace, -, -, -, hdigest⟩ := entry_of_make hentry
  obtain ⟨hclientKey, hsessionKey⟩ := sessionKey?_eq_some.mp (key_of_make hmake)
  rw [hclient] at hclientKey
  rw [hid] at hsessionKey
  have hint : (Int32.ofInt record.ordinal.toNat).toInt = record.ordinal.toNat :=
    Int32.toInt_ofInt_of_le (by omega) (by exact_mod_cast hordinal)
  constructor
  case index => rw [hplace, hindex]
  case ordinal =>
    simp only [ReplayTimelineEntry.make, except_bind_iff] at hentry
    obtain ⟨sequence, -, tick, -, hresult⟩ := hentry
    rw [← Except.ok.inj hresult]
    exact hint
  case recordDigest =>
    rw [hdigest]
    simp only [viewedRecord, storedAs_recordDigest]
    rfl
  case session => exact sessions_of_build hbuild hsession hmake
  case clientId => exact Except.ok.inj (hclientKey.symm.trans (parseDigits_decimal _))
  case sessionId => exact Except.ok.inj (hsessionKey.symm.trans (parseDigits_decimal _))

/-- INTERNAL: the inspections of a chain of records. -/
theorem inspects_of_chain
    (hbuild : buildWorkspace parser (some bundle) seconds =
      .ok { workspace := some workspace, validation := [] })
    {archiveId : Int64} {records : List CommandEvidenceRecord} :
    ∀ {index : ℕ} {previous head : Sha256Digest}
      {evidence : List InvestigationEvidenceInspection},
      evidenceChain.Linked index previous records head →
      (∀ record ∈ records, record.ordinal.toNat < 2 ^ 31) →
      List.Forall₂ (LinkedTo bundle.sessionArray)
        ((records.map fun record => some (viewedRecord (storedAs archiveId record))).zipIdx index)
        evidence →
      List.Forall₂ (Inspects workspace) records evidence := by
  induction records with
  | nil =>
    intro index previous head evidence _ _ h
    cases h
    exact .nil
  | cons record records ih =>
    rintro index previous head evidence ⟨hordinal, -, hlinked⟩ hordinals h
    rw [List.map_cons, List.zipIdx_cons] at h
    cases h with
    | cons hfirst hrest =>
      exact .cons
        (inspects_of_linkedTo hbuild hordinal (hordinals record (List.mem_cons_self ..)) hfirst)
        (ih hlinked (fun other hother => hordinals other (List.mem_cons_of_mem _ hother)) hrest)

end

/-- What the viewer makes of the export of an archive. -/
structure LoadsInViewer (parser : TimestampParser) (seconds : ℚ)
    (records : List CommandEvidenceRecord) (text : List Char) : Prop where
  loads : ∃ json bundle workspace, decode (fun _ => true) text = some json ∧
    InvestigationBundle.fromJson json = some bundle ∧ validate parser (some bundle) = [] ∧
    buildWorkspace parser (some bundle) (.finite seconds) =
      .ok { workspace := some workspace, validation := [] } ∧
    List.Forall₂ (Inspects workspace) records workspace.evidence ∧
    workspace.integrity.evidenceChainContinuous = true ∧
    workspace.integrity.trustedHeadMatches = true
  ascending : records.Pairwise fun a b => a.ordinal < b.ordinal

/-- **Exports load in the viewer.**  After every run of a store, whichever statements failed,
what an export that succeeded returns is read as a bundle without issues, and the workspace built
from it has one entry for each record of the archive, in order and linked to its session.  The
timestamp parser is only taken to accept what `CURRENT_TIMESTAMP` gives, in the form that the
exporter writes it.
SRC: investigation_bundle_exporter.cpp:279-666, InvestigationBundleValidator.cs:11-397,
InvestigationWorkspace.cs:596-684 -/
theorem export_loads_in_viewer {parser : TimestampParser}
    (hparser : ∀ now : UtcTime,
      parser (NetString.ofText (normalizeTimestamp now.currentTimestamp)) = true)
    {seconds : ℚ} (hseconds : 0 < seconds) (calls : List Call) {archiveId : Int64}
    {text : List Char}
    (hexport : exportInvestigationBundleJson (machine.final opened calls).committed archiveId =
      .ok text) :
    ∃ kept ∈ archivesOf Statement.boundText (machine.trace opened calls),
      kept.archiveId = archiveId ∧ LoadsInViewer parser seconds kept.records text := by
  obtain ⟨-, h⟩ := represents_run calls
  obtain ⟨kept, hkept, hid, result, -, hordinals, haccepted, hrejected, rfl⟩ :=
    of_export_ok h hexport
  have hissues := validate_viewed (hparser kept.importedAt) result hordinals haccepted hrejected
  obtain ⟨workspace, hbuild, hfaithful⟩ :=
    buildWorkspace_of_loadable hseconds hissues (sessionsLoadable_viewed kept)
  obtain ⟨-, hlinked, -⟩ := kept.decoded
  refine ⟨kept, hkept, hid, ⟨_, _, workspace, decode_bundleText (fun _ _ => rfl) _ _ _ _ _ _ _,
    fromJson_bundle kept result hordinals haccepted hrejected, hissues, hbuild, ?_,
    hfaithful.evidenceChainContinuous, hfaithful.trustedHeadMatches⟩, kept.ascending⟩
  exact inspects_of_chain hbuild hlinked hordinals hfaithful.evidence

theorem export_loads_in_viewer_sample :
    ∃ text, exportInvestigationBundleJson (machine.final opened sampleStoreCalls).committed 1 =
        .ok text ∧
      ∃ kept ∈ archivesOf Statement.boundText (machine.trace opened sampleStoreCalls),
        kept.archiveId = 1 ∧ LoadsInViewer (fun _ => true) (1 / 2) kept.records text := by
  obtain ⟨-, h⟩ := represents_run sampleStoreCalls
  have hkept : keptOne sample_decodes [97] sampleResult ∈
      archivesOf Statement.boundText (machine.trace opened sampleStoreCalls) := by
    rw [archivesOf_sampleStoreCalls]
    exact List.mem_singleton.mpr rfl
  have hexport := export_of_length h hkept rfl (by show 1 < 2 ^ 31; norm_num)
  exact ⟨_, hexport, export_loads_in_viewer (fun _ => rfl) (by norm_num) sampleStoreCalls hexport⟩

end Tickline.Analysis
