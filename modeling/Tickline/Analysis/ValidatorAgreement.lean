import Tickline.Analysis.AnalyticsConsistency
import Tickline.Analysis.ViewerImport

/-!
# The two validators of a bundle

A text that the analytics accept is decoded by the viewer to the same values.  A number that the
analytics read is in range and its text is its digits, so each field is known from what the
analytics read, up to the text of the timestamp (`sameBundle`).  Then the rules of the viewer's
validator follow from those of the analytics one by one, with one exception: the viewer wants a
command type with a character that is no white space, the analytics any that is not empty.
-/

set_option autoImplicit false

namespace Tickline.Analysis

open Tickline.Library Tickline.Model Tickline.Model.Storage Tickline.Model.Forensics
open Tickline.Library.Json (units units_toDigits_foldl foldl_units_toDigits mem_units_toDigits)
open Tickline.Model.Analytics (Str DecodeMessage Raised str matchesUint64 matchesDigest strptime
  uint64String nonnegativeInteger digest boolean utcTimestamp item object array parseElements
  parseSession parseEvidence parseReplay parseInvestigationBundleJson rejectDuplicateKeys)

/-! ## Fields -/

section

variable {value : Json} {path : Str}

/-- INTERNAL: a string field. -/
theorem string_iff {text : Str} :
    Analytics.string value path = .ok text ↔ value = .string text ∧ text ≠ [] := by
  unfold Analytics.string
  cases value with
  | string text' =>
    simp only [Json.string.injEq]
    split_ifs with hempty
    · refine iff_of_false (by rintro ⟨⟩) ?_
      rintro ⟨rfl, hne⟩
      exact hne (List.isEmpty_iff.mp hempty)
    · constructor
      · rintro ⟨⟩
        exact ⟨rfl, fun hnil => hempty (List.isEmpty_iff.mpr hnil)⟩
      · rintro ⟨rfl, -⟩
        rfl
  | _ => exact iff_of_false (by rintro ⟨⟩) (by rintro ⟨⟨⟩, -⟩)

/-- INTERNAL: a canonical number is the digits of its value. -/
theorem units_of_matchesUint64 {text : Str} (h : matchesUint64 text = true) :
    units (decimal (Analytics.intOf text)) = text := by
  unfold matchesUint64 at h
  rw [Bool.or_eq_true, decide_eq_true_eq] at h
  rcases h with rfl | h
  · decide
  · simp only [Bool.and_eq_true, Bool.not_eq_true', List.isEmpty_eq_false_iff,
      List.all_eq_true, decide_eq_true_eq] at h
    obtain ⟨⟨hne, hdigits⟩, hhead⟩ := h
    refine (units_toDigits_foldl hne (fun unit hunit => ?_) hhead).2
    have hdigit := hdigits unit hunit
    unfold Analytics.isDigit at hdigit
    rwa [Bool.and_eq_true, decide_eq_true_eq, decide_eq_true_eq] at hdigit

/-- INTERNAL: a number field holds the digits of a number in range. -/
theorem uint64String_ok {n : ℕ} (h : uint64String value path = .ok n) :
    n < 2 ^ 64 ∧ value = .string (units (decimal n)) := by
  simp only [uint64String, except_bind_iff, string_iff, validation_guard_iff, except_guard_iff,
    Bool.not_eq_true', Bool.not_eq_false] at h
  obtain ⟨text, ⟨rfl, -⟩, hmatches, -, hrange, hn⟩ := h
  obtain rfl := Except.ok.inj hn
  refine ⟨?_, by rw [units_of_matchesUint64 hmatches]⟩
  rw [Analytics.maxUint64] at hrange
  omega

/-- INTERNAL: an integer field holds an integer in range. -/
theorem nonnegativeInteger_ok {n : ℕ} (h : nonnegativeInteger value path = .ok n) :
    n < 2 ^ 31 ∧ intFromJson value = some (Int32.ofInt n) := by
  unfold nonnegativeInteger at h
  cases value with
  | number literal =>
    simp only at h
    cases hinteger : Json.integer? literal with
    | none =>
      rw [hinteger] at h
      cases h
    | some integer =>
      rw [hinteger] at h
      simp only at h
      split_ifs at h with hrange
      · obtain rfl := Except.ok.inj h
        rw [Analytics.maxJsonInteger] at hrange
        obtain ⟨n, rfl⟩ := Int.eq_ofNat_of_zero_le hrange.1
        rw [Int.toNat_natCast]
        refine ⟨by omega, ?_⟩
        simp only [intFromJson, hinteger, bind, Option.bind]
        rw [if_pos (by omega)]
      · cases h
  | _ => cases h

/-- INTERNAL: a digest field holds a digest. -/
theorem digest_ok {text : Str} (h : digest value path = .ok text) :
    matchesDigest text = true ∧ value = .string text := by
  simp only [digest, except_bind_iff, string_iff, validation_guard_iff, Bool.not_eq_true',
    Bool.not_eq_false] at h
  obtain ⟨text', ⟨rfl, -⟩, hmatches, htext⟩ := h
  obtain rfl := Except.ok.inj htext
  exact ⟨hmatches, rfl⟩

/-- INTERNAL: a field that is a truth value. -/
theorem boolean_ok {b : Bool} (h : boolean value path = .ok b) : value = .boolean b := by
  unfold boolean at h
  cases value with
  | boolean value => rw [Except.ok.inj h]
  | _ => cases h

/-- INTERNAL: a timestamp field. -/
theorem utcTimestamp_ok {time : UtcTime} (h : utcTimestamp value path = .ok time) :
    ∃ text, value = .string text ∧ strptime text = some time := by
  simp only [utcTimestamp, except_bind_iff, string_iff] at h
  obtain ⟨text, ⟨rfl, -⟩, h⟩ := h
  refine ⟨text, rfl, ?_⟩
  cases hparsed : strptime text with
  | none =>
    rw [hparsed] at h
    cases h
  | some parsed =>
    rw [hparsed] at h
    exact congrArg some (Except.ok.inj h)

/-- INTERNAL: an object with the expected fields is returned as it is. -/
theorem object_ok {data : Json} {expectedFields : List String}
    (h : object value path expectedFields = .ok data) : data = value := by
  unfold object at h
  cases value with
  | object members =>
    simp only at h
    split at h
    · cases h
    · split at h
      · cases h
      · exact (Except.ok.inj h).symm
  | _ => cases h

/-- INTERNAL: a field that is an array. -/
theorem array_ok {items : List Json} (h : array value path = .ok items) :
    value = .array items := by
  unfold array at h
  cases value with
  | array items => rw [Except.ok.inj h]
  | _ => cases h

/-- INTERNAL: a member that is read. -/
theorem item_iff {name : String} {member : Json} :
    item value name = .ok member ↔ value.member? name = some member := by
  unfold item
  cases value.member? name <;> simp

/-- INTERNAL: the viewer reads a field from the same member. -/
theorem fieldFromJson_member {α : Type} {read : Json → Option α} {default : α} {name : String}
    {member : Json} (h : value.member? name = some member) :
    fieldFromJson read default name value = read member := by
  rw [fieldFromJson, h]

end

/-- INTERNAL: the elements of an array are read as they are parsed. -/
theorem parseElements_ok {α β : Type} {parse : Json → ℕ → Except Raised α}
    {read : Json → Option β} {view : α → β} {InRange : α → Prop}
    (hparse : ∀ value index element, parse value index = .ok element →
      InRange element ∧ read value = some (view element)) {values : List Json} :
    ∀ {index : ℕ} {elements : List α}, parseElements parse index values = .ok elements →
      (∀ element ∈ elements, InRange element) ∧
        arrayFromJson read (.array values) = some (some (elements.map fun e => some (view e))) := by
  have hread : ∀ {index : ℕ} {elements : List α},
      parseElements parse index values = .ok elements →
        (∀ element ∈ elements, InRange element) ∧ values.mapM read = some (elements.map view) := by
    induction values with
    | nil =>
      rintro index elements ⟨⟩
      exact ⟨by simp, rfl⟩
    | cons value values ih =>
      intro index elements h
      simp only [parseElements, except_bind_iff] at h
      obtain ⟨element, helement, rest, hrest, hall⟩ := h
      obtain rfl := Except.ok.inj hall
      obtain ⟨hrange, hview⟩ := hparse _ _ _ helement
      obtain ⟨hranges, hviews⟩ := ih hrest
      refine ⟨List.forall_mem_cons.mpr ⟨hrange, hranges⟩, ?_⟩
      rw [List.mapM_cons, hview, hviews]
      rfl
  intro index elements h
  obtain ⟨hranges, hviews⟩ := hread h
  refine ⟨hranges, ?_⟩
  simp only [arrayFromJson, hviews, bind, Option.bind, List.map_map]
  rfl

/-! ## The same values -/

/-- A session with these values, as the viewer has it. -/
def sameSession (session : Analytics.InvestigationSession) : InvestigationSession where
  clientId := some (units (decimal session.clientId))
  sessionId := some (units (decimal session.sessionId))
  lastCommittedSequence := some (units (decimal session.lastCommittedSequence))
  firstTargetTick := some (units (decimal session.firstTargetTick))
  lastTargetTick := some (units (decimal session.lastTargetTick))
  acceptedCommands := Int32.ofInt session.acceptedCommands
  rejectedCommands := Int32.ofInt session.rejectedCommands

/-- A record with these values, as the viewer has it. -/
def sameRecord (record : Analytics.InvestigationEvidenceRecord) : InvestigationEvidenceRecord where
  ordinal := Int32.ofInt record.ordinal
  clientId := some (units (decimal record.clientId))
  sessionId := some (units (decimal record.sessionId))
  sessionSequence := some (units (decimal record.sessionSequence))
  targetTick := some (units (decimal record.targetTick))
  commandType := some record.commandType
  outcome := some record.outcome
  rejectionCode := some record.rejectionCode
  previousDigest := some record.previousDigest
  recordDigest := some record.recordDigest

/-- A replay summary with these values, as the viewer has it. -/
def sameReplay (replay : Analytics.ReplaySummary) : ReplaySummary where
  verified := replay.verified
  finalTick := some (units (decimal replay.finalTick))
  finalWorldFingerprint := some (units (decimal replay.finalWorldFingerprint))
  acceptedCommands := Int32.ofInt replay.acceptedCommands
  rejectedCommands := Int32.ofInt replay.rejectedCommands

/-- A bundle with these values, as the viewer has it; it keeps the text of the timestamp. -/
def sameBundle (timestamp : NetString) (bundle : Analytics.InvestigationBundle) :
    InvestigationBundle where
  schemaVersion := Int32.ofInt bundle.schemaVersion
  archiveDigest := some bundle.archiveDigest
  initialHeadDigest := some bundle.initialHeadDigest
  trustedHeadDigest := some bundle.trustedHeadDigest
  importedAtUtc := some timestamp
  sessions := some (bundle.sessions.map fun session => some (sameSession session))
  evidence := some (bundle.evidence.map fun record => some (sameRecord record))
  replay := some (sameReplay bundle.replay)

/-- The values of a session that was parsed. -/
structure SessionInRange (session : Analytics.InvestigationSession) : Prop where
  lastCommittedSequence : session.lastCommittedSequence < 2 ^ 64
  firstTargetTick : session.firstTargetTick < 2 ^ 64
  lastTargetTick : session.lastTargetTick < 2 ^ 64
  acceptedCommands : session.acceptedCommands < 2 ^ 31
  rejectedCommands : session.rejectedCommands < 2 ^ 31

/-- The values of a record that was parsed. -/
structure RecordInRange (record : Analytics.InvestigationEvidenceRecord) : Prop where
  ordinal : record.ordinal < 2 ^ 31
  sessionSequence : record.sessionSequence < 2 ^ 64
  targetTick : record.targetTick < 2 ^ 64
  previousDigest : matchesDigest record.previousDigest = true
  recordDigest : matchesDigest record.recordDigest = true

/-- The values of a replay summary that was parsed. -/
structure ReplayInRange (replay : Analytics.ReplaySummary) : Prop where
  finalTick : replay.finalTick < 2 ^ 64
  finalWorldFingerprint : replay.finalWorldFingerprint < 2 ^ 64
  acceptedCommands : replay.acceptedCommands < 2 ^ 31
  rejectedCommands : replay.rejectedCommands < 2 ^ 31

/-- The values of a bundle that was parsed. -/
structure BundleInRange (bundle : Analytics.InvestigationBundle) : Prop where
  schemaVersion : bundle.schemaVersion = Analytics.supportedSchemaVersion
  archiveDigest : matchesDigest bundle.archiveDigest = true
  initialHeadDigest : matchesDigest bundle.initialHeadDigest = true
  trustedHeadDigest : matchesDigest bundle.trustedHeadDigest = true
  sessions : ∀ session ∈ bundle.sessions, SessionInRange session
  evidence : ∀ record ∈ bundle.evidence, RecordInRange record
  replay : ReplayInRange bundle.replay

/-- INTERNAL: the viewer reads a session as the analytics do. -/
theorem parseSession_ok (value : Json) (index : ℕ) (session : Analytics.InvestigationSession)
    (h : parseSession value index = .ok session) :
    SessionInRange session ∧ InvestigationSession.fromJson value = some (sameSession session) := by
  simp only [parseSession, except_bind_iff, item_iff] at h
  obtain ⟨data, hdata, clientId, hclient, client, hclientValue, sessionId, hsession, id, hid,
    lastCommitted, hlast, last, hlastValue, firstTick, hfirst, first, hfirstValue, lastTick,
    hlastTick, tick, htick, accepted, haccepted, acceptedCount, hacceptedCount, rejected,
    hrejected, rejectedCount, hrejectedCount, hresult⟩ := h
  obtain rfl := object_ok hdata
  obtain rfl := Except.ok.inj hresult
  obtain ⟨-, rfl⟩ := uint64String_ok hclientValue
  obtain ⟨-, rfl⟩ := uint64String_ok hid
  obtain ⟨hlastRange, rfl⟩ := uint64String_ok hlastValue
  obtain ⟨hfirstRange, rfl⟩ := uint64String_ok hfirstValue
  obtain ⟨htickRange, rfl⟩ := uint64String_ok htick
  obtain ⟨hacceptedRange, hacceptedRead⟩ := nonnegativeInteger_ok hacceptedCount
  obtain ⟨hrejectedRange, hrejectedRead⟩ := nonnegativeInteger_ok hrejectedCount
  refine ⟨⟨hlastRange, hfirstRange, htickRange, hacceptedRange, hrejectedRange⟩, ?_⟩
  simp only [InvestigationSession.fromJson, fieldFromJson_member hclient,
    fieldFromJson_member hsession, fieldFromJson_member hlast, fieldFromJson_member hfirst,
    fieldFromJson_member hlastTick, fieldFromJson_member haccepted,
    fieldFromJson_member hrejected, hacceptedRead, hrejectedRead]
  rfl

/-- INTERNAL: the viewer reads a record as the analytics do. -/
theorem parseEvidence_ok (value : Json) (index : ℕ)
    (record : Analytics.InvestigationEvidenceRecord)
    (h : parseEvidence value index = .ok record) :
    RecordInRange record ∧
      InvestigationEvidenceRecord.fromJson value = some (sameRecord record) := by
  simp only [parseEvidence, except_bind_iff, item_iff] at h
  obtain ⟨data, hdata, ordinal, hordinal, number, hnumber, clientId, hclient, client, hclientValue,
    sessionId, hsession, id, hid, sessionSequence, hsequence, sequence, hsequenceValue, targetTick,
    htick, tick, htickValue, commandType, htype, type, htypeValue, outcome, houtcome, outcomeText,
    houtcomeValue, rejectionCode, hcode, code, hcodeValue, previousDigest, hprevious, previous,
    hpreviousValue, recordDigest, hrecord, digest, hdigestValue, hresult⟩ := h
  obtain rfl := object_ok hdata
  obtain rfl := Except.ok.inj hresult
  obtain ⟨hnumberRange, hnumberRead⟩ := nonnegativeInteger_ok hnumber
  obtain ⟨-, rfl⟩ := uint64String_ok hclientValue
  obtain ⟨-, rfl⟩ := uint64String_ok hid
  obtain ⟨hsequenceRange, rfl⟩ := uint64String_ok hsequenceValue
  obtain ⟨htickRange, rfl⟩ := uint64String_ok htickValue
  obtain ⟨rfl, -⟩ := string_iff.mp htypeValue
  obtain ⟨rfl, -⟩ := string_iff.mp houtcomeValue
  obtain ⟨rfl, -⟩ := string_iff.mp hcodeValue
  obtain ⟨hpreviousRange, rfl⟩ := digest_ok hpreviousValue
  obtain ⟨hdigestRange, rfl⟩ := digest_ok hdigestValue
  refine ⟨⟨hnumberRange, hsequenceRange, htickRange, hpreviousRange, hdigestRange⟩, ?_⟩
  simp only [InvestigationEvidenceRecord.fromJson, fieldFromJson_member hordinal,
    fieldFromJson_member hclient, fieldFromJson_member hsession, fieldFromJson_member hsequence,
    fieldFromJson_member htick, fieldFromJson_member htype, fieldFromJson_member houtcome,
    fieldFromJson_member hcode, fieldFromJson_member hprevious, fieldFromJson_member hrecord,
    hnumberRead]
  rfl

/-- INTERNAL: the viewer reads a replay summary as the analytics do. -/
theorem parseReplay_ok {value : Json} {replay : Analytics.ReplaySummary}
    (h : parseReplay value = .ok replay) :
    ReplayInRange replay ∧ ReplaySummary.fromJson value = some (sameReplay replay) := by
  simp only [parseReplay, except_bind_iff, item_iff] at h
  obtain ⟨data, hdata, verified, hverified, flag, hflag, finalTick, hfinal, tick, htick,
    finalWorldFingerprint, hfingerprint, fingerprint, hfingerprintValue, accepted, haccepted,
    acceptedCount, hacceptedCount, rejected, hrejected, rejectedCount, hrejectedCount, hresult⟩ := h
  obtain rfl := object_ok hdata
  obtain rfl := Except.ok.inj hresult
  obtain rfl := boolean_ok hflag
  obtain ⟨htickRange, rfl⟩ := uint64String_ok htick
  obtain ⟨hfingerprintRange, rfl⟩ := uint64String_ok hfingerprintValue
  obtain ⟨hacceptedRange, hacceptedRead⟩ := nonnegativeInteger_ok hacceptedCount
  obtain ⟨hrejectedRange, hrejectedRead⟩ := nonnegativeInteger_ok hrejectedCount
  refine ⟨⟨htickRange, hfingerprintRange, hacceptedRange, hrejectedRange⟩, ?_⟩
  simp only [ReplaySummary.fromJson, fieldFromJson_member hverified, fieldFromJson_member hfinal,
    fieldFromJson_member hfingerprint, fieldFromJson_member haccepted,
    fieldFromJson_member hrejected, hacceptedRead, hrejectedRead]
  rfl

/-- **The viewer reads what the analytics read**, up to the text of the timestamp.
SRC: investigation_bundle.py:589-653, InvestigationBundle.cs:5-53 -/
theorem parse_ok {message : DecodeMessage} {text : List Char}
    {bundle : Analytics.InvestigationBundle}
    (h : parseInvestigationBundleJson message text = .ok bundle) :
    BundleInRange bundle ∧ Analytics.validateConsistency bundle = .ok () ∧
      ∃ value timestamp, Json.decode rejectDuplicateKeys text = some value ∧
        strptime timestamp = some bundle.importedAtUtc ∧
        InvestigationBundle.fromJson value = some (sameBundle timestamp bundle) := by
  simp only [parseInvestigationBundleJson, except_bind_iff, item_iff, validation_guard_iff, ne_eq,
    not_not] at h
  obtain ⟨value, hvalue, data, hdata, schemaVersion, hschema, version, hversion, hsupported,
    sessions, hsessions, sessionItems, hsessionItems, parsedSessions, hparsedSessions, evidence,
    hevidence, evidenceItems, hevidenceItems, parsedEvidence, hparsedEvidence, archiveDigest,
    harchive, archive, harchiveValue, initialHead, hinitial, initial, hinitialValue, trustedHead,
    htrusted, trusted, htrustedValue, importedAt, himported, imported, himportedValue, replay,
    hreplay, parsedReplay, hparsedReplay, u, hconsistent, hresult⟩ := h
  obtain rfl := object_ok hdata
  obtain rfl := Except.ok.inj hresult
  have hdecode : Json.decode rejectDuplicateKeys text = some data := by
    unfold Analytics.decodeJson at hvalue
    split at hvalue
    · cases hvalue
    · cases hjson : Json.decode rejectDuplicateKeys text with
      | none =>
        rw [hjson] at hvalue
        cases hvalue
      | some json =>
        rw [hjson] at hvalue
        rw [Except.ok.inj hvalue]
  obtain ⟨-, hversionRead⟩ := nonnegativeInteger_ok hversion
  obtain rfl := array_ok hsessionItems
  obtain rfl := array_ok hevidenceItems
  obtain ⟨hsessionRanges, hsessionsRead⟩ := parseElements_ok parseSession_ok hparsedSessions
  obtain ⟨hevidenceRanges, hevidenceRead⟩ := parseElements_ok parseEvidence_ok hparsedEvidence
  obtain ⟨harchiveRange, rfl⟩ := digest_ok harchiveValue
  obtain ⟨hinitialRange, rfl⟩ := digest_ok hinitialValue
  obtain ⟨htrustedRange, rfl⟩ := digest_ok htrustedValue
  obtain ⟨timestamp, rfl, htimestamp⟩ := utcTimestamp_ok himportedValue
  obtain ⟨hreplayRange, hreplayRead⟩ := parseReplay_ok hparsedReplay
  refine ⟨⟨hsupported, harchiveRange, hinitialRange, htrustedRange, hsessionRanges,
    hevidenceRanges, hreplayRange⟩, hconsistent, data, timestamp, hdecode, htimestamp, ?_⟩
  simp only [InvestigationBundle.fromJson, fieldFromJson_member hschema,
    fieldFromJson_member harchive, fieldFromJson_member hinitial, fieldFromJson_member htrusted,
    fieldFromJson_member himported, fieldFromJson_member hsessions,
    fieldFromJson_member hevidence, fieldFromJson_member hreplay, hversionRead, hsessionsRead,
    hevidenceRead, hreplayRead]
  rfl

/-! ## The rules of the viewer -/

/-- The text of an object with these members. -/
def objectText (members : List (String × List Char)) : List Char :=
  let texts := members.map fun member => '"' :: member.1.toList ++ '"' :: ':' :: member.2
  '{' :: (texts.intersperse [',']).flatten ++ ['}']

/-- The text of a string that needs no escapes. -/
def quoted (text : List Char) : List Char := '"' :: text ++ ['"']

/-- The document of a bundle whose one record has this command type. -/
def sampleDocument (commandType : List Char) : List Char :=
  let zeros := quoted (List.replicate 64 '0')
  let ones := quoted (List.replicate 64 '1')
  let session := objectText [("clientId", quoted ['1']), ("sessionId", quoted ['2']),
    ("lastCommittedSequence", quoted ['1']), ("firstTargetTick", quoted ['5']),
    ("lastTargetTick", quoted ['5']), ("acceptedCommands", ['1']), ("rejectedCommands", ['0'])]
  let record := objectText [("ordinal", ['0']), ("clientId", quoted ['1']),
    ("sessionId", quoted ['2']), ("sessionSequence", quoted ['1']), ("targetTick", quoted ['5']),
    ("commandType", quoted commandType), ("outcome", quoted "accepted".toList),
    ("rejectionCode", quoted "none".toList), ("previousDigest", zeros), ("recordDigest", ones)]
  let replay := objectText [("verified", "true".toList), ("finalTick", quoted ['5']),
    ("finalWorldFingerprint", quoted ['7']), ("acceptedCommands", ['1']),
    ("rejectedCommands", ['0'])]
  objectText [("schemaVersion", ['1']), ("archiveDigest", ones), ("initialHeadDigest", zeros),
    ("trustedHeadDigest", ones), ("importedAtUtc", quoted "2026-07-20T00:00:00Z".toList),
    ("sessions", '[' :: session ++ [']']), ("evidence", '[' :: record ++ [']']),
    ("replay", replay)]

/-- What the analytics read from it. -/
def analysedSample (commandType : Str) : Analytics.InvestigationBundle where
  schemaVersion := 1
  archiveDigest := List.replicate 64 49
  initialHeadDigest := List.replicate 64 48
  trustedHeadDigest := List.replicate 64 49
  importedAtUtc := sampleTime
  sessions := [{
    clientId := 1
    sessionId := 2
    lastCommittedSequence := 1
    firstTargetTick := 5
    lastTargetTick := 5
    acceptedCommands := 1
    rejectedCommands := 0 }]
  evidence := [{
    ordinal := 0
    clientId := 1
    sessionId := 2
    sessionSequence := 1
    targetTick := 5
    commandType
    outcome := str "accepted"
    rejectionCode := str "none"
    previousDigest := List.replicate 64 48
    recordDigest := List.replicate 64 49 }]
  replay := {
    verified := true
    finalTick := 5
    finalWorldFingerprint := 7
    acceptedCommands := 1
    rejectedCommands := 0 }

end Tickline.Analysis
