import Mathlib.Data.List.Forall2
import Tickline.Analysis.ExportFidelity
import Tickline.Model.AnalyticsBundle

/-!
# Exports in the analytics

The strict parser of the analytics reads every field of an export: the objects have exactly the
fields it expects, the numbers are canonical digits, the digests lowercase hexadecimal and the
timestamp has its format.  So of an export only the consistency of the bundle that it reads
(`analysedBundle`) decides (`parse_exportText`).
-/

set_option autoImplicit false

namespace Tickline.Analysis

open Tickline.Library Tickline.Model Tickline.Model.Storage
open Tickline.Model.Storage.InvestigationStore Tickline.Model.Analytics
open Tickline.Library.Json (units units_toDigits_ne_nil mem_units_toDigits head_units_toDigits
  foldl_units_toDigits integer?_toDigits)

/-! ## Values -/

/-- INTERNAL: an object with the expected fields. -/
theorem object_of_names {members : List (Str × Json)} (expectedFields : List String)
    (h : members.map Prod.fst = expectedFields.map str) (path : Str) :
    object (.object members) path expectedFields = .ok (.object members) := by
  have hnone : ∀ names : List Str, firstSorted (names.filter fun name => !names.contains name) =
      none := by
    intro names
    have hempty : (names.filter fun name => !names.contains name) = [] := by
      rw [List.filter_eq_nil_iff]
      intro name hname
      simp [hname]
    rw [hempty]
    rfl
  unfold object
  simp only [h, hnone]

/-- INTERNAL: a member that is there. -/
theorem item_of_member {data value : Json} {name : String} (h : data.member? name = some value) :
    item data name = .ok value := by
  rw [item, h]

/-- INTERNAL: a number of 64 bits is not too long to convert. -/
theorem decimal_not_long {n : ℕ} (h : n < 2 ^ 64) : ¬ maxStrDigits < (decimal n).length := by
  have hlength : (Nat.toDigits 10 n).length ≤ 20 :=
    (Nat.length_toDigits_le_iff (by decide) (by decide)).mpr (h.trans (by decide))
  rw [decimal, maxStrDigits]
  omega

/-- INTERNAL: digits are a canonical number. -/
theorem uint64String_decimal (n : UInt64) (path : Str) :
    uint64String (.string (units (decimal n.toNat))) path = .ok n.toNat := by
  have hdigit : ∀ unit ∈ ([48, 49, 50, 51, 52, 53, 54, 55, 56, 57] : List UInt16),
      isDigit unit = true :=
    List.all_iff_forall_prop.mp (by decide)
  have hall : (units (decimal n.toNat)).all isDigit = true :=
    List.all_eq_true.mpr fun unit hunit => hdigit unit (mem_units_toDigits hunit)
  have hnonempty : (units (decimal n.toNat)).isEmpty = false :=
    List.isEmpty_eq_false_iff.mpr (units_toDigits_ne_nil _)
  have hmatches : matchesUint64 (units (decimal n.toNat)) = true := by
    unfold matchesUint64
    rw [Bool.or_eq_true, decide_eq_true_eq, hall, hnonempty]
    refine (head_units_toDigits n.toNat).imp_right fun hhead => ?_
    exact decide_eq_true hhead
  have hvalue : intOf (units (decimal n.toNat)) = n.toNat := foldl_units_toDigits _
  have hrange : ¬ n.toNat > maxUint64 := by
    have := n.toNat_lt
    rw [maxUint64]
    omega
  have hshort : ¬ maxStrDigits < (units (decimal n.toNat)).length := by
    rw [decimal, Json.units_toDigits, List.length_map]
    exact decimal_not_long n.toNat_lt
  simp only [uint64String, Analytics.string, hnonempty, Bool.false_eq_true, if_false, bind, Except.bind,
    hmatches, Bool.not_true, if_neg hshort, hvalue, if_neg hrange, pure, Except.pure]

/-- INTERNAL: digits are an integer. -/
theorem nonnegativeInteger_decimal {n : ℕ} (h : n < 2 ^ 31) (path : Str) :
    nonnegativeInteger (.number (decimal n)) path = .ok n := by
  have hrange : (0 : ℤ) ≤ n ∧ (n : ℤ) ≤ maxJsonInteger := by
    rw [maxJsonInteger]
    omega
  simp only [nonnegativeInteger, decimal, integer?_toDigits, if_pos hrange, Int.toNat_natCast]

/-- INTERNAL: a digest is a digest. -/
theorem digest_toHex (value : Sha256Digest) (path : Str) :
    digest (.string (units value.toHex)) path = .ok (units value.toHex) := by
  have hdigit : ∀ unit ∈ ([48, 49, 50, 51, 52, 53, 54, 55, 56, 57, 97, 98, 99, 100, 101, 102] :
      List UInt16), (isDigit unit || (97 ≤ unit && unit ≤ 102)) = true :=
    List.all_iff_forall_prop.mp (by decide)
  have hmatches : matchesDigest (units value.toHex) = true := by
    unfold matchesDigest
    rw [length_units_toHex, decide_eq_true rfl, Bool.true_and, List.all_eq_true]
    exact fun unit hunit => hdigit unit (mem_units_toHex hunit)
  have hnonempty : (units value.toHex).isEmpty = false := by
    rw [List.isEmpty_eq_false_iff, ← List.length_pos_iff, length_units_toHex]
    decide
  simp only [digest, Analytics.string, hnonempty, Bool.false_eq_true, if_false, bind, Except.bind,
    hmatches, Bool.not_true, pure, Except.pure]

/-! ## Timestamps -/

/-- INTERNAL: the code unit of a digit of a number. -/
theorem digitChar_unit (n : ℕ) : units [Nat.digitChar (n % 10)] =
      [UInt16.ofNat (Nat.digitChar (n % 10)).toNat] ∧
    isDigit (UInt16.ofNat (Nat.digitChar (n % 10)).toNat) = true ∧
    (UInt16.ofNat (Nat.digitChar (n % 10)).toNat).toNat - 48 = n % 10 := by
  have hall : ∀ m < 10, units [Nat.digitChar m] = [UInt16.ofNat (Nat.digitChar m).toNat] ∧
      isDigit (UInt16.ofNat (Nat.digitChar m).toNat) = true ∧
      (UInt16.ofNat (Nat.digitChar m).toNat).toNat - 48 = m := by
    decide
  exact hall _ (Nat.mod_lt _ (by decide))

/-- INTERNAL: the code units of two texts. -/
theorem units_append (a b : List Char) : units (a ++ b) = units a ++ units b :=
  List.flatMap_append

/-- INTERNAL: padded digits are read back. -/
theorem paddedDigits_units {width : ℕ} : ∀ {n : ℕ}, n < 10 ^ width →
    (units (paddedDigits width n)).length = width ∧
      (∀ unit ∈ units (paddedDigits width n), isDigit unit = true) ∧
      intOf (units (paddedDigits width n)) = n := by
  induction width with
  | zero =>
    intro n hn
    obtain rfl : n = 0 := by simpa using hn
    exact ⟨rfl, by simp [paddedDigits, units], rfl⟩
  | succ width ih =>
    intro n hn
    obtain ⟨hlength, hdigits, hvalue⟩ := ih (n := n / 10) (by
      rw [pow_succ] at hn
      omega)
    obtain ⟨hunit, hdigit, hlast⟩ := digitChar_unit n
    rw [paddedDigits, units_append, hunit]
    refine ⟨by rw [List.length_append, hlength, List.length_singleton], ?_, ?_⟩
    · intro unit hmem
      rcases List.mem_append.mp hmem with hmem | hmem
      · exact hdigits unit hmem
      · exact List.mem_singleton.mp hmem ▸ hdigit
    · unfold intOf at hvalue ⊢
      rw [List.foldl_append, hvalue, List.foldl_cons, List.foldl_nil, hlast]
      omega

/-- INTERNAL: one number of a timestamp is read. -/
theorem timestampPart_padded (least most : ℕ) {width n : ℕ} (hleast : least ≤ width)
    (hmost : width ≤ most) (hn : n < 10 ^ width) (separators : List UInt16) (separator : UInt16)
    (hdigit : isDigit separator = false) (hseparator : separator ∈ separators) (rest : Str) :
    timestampPart least most separators (units (paddedDigits width n) ++ separator :: rest) =
      some (n, rest) := by
  obtain ⟨hlength, hdigits, hvalue⟩ := paddedDigits_units hn
  have htake : (units (paddedDigits width n) ++ separator :: rest).takeWhile isDigit =
      units (paddedDigits width n) := by
    rw [List.takeWhile_append_of_pos hdigits, List.takeWhile_cons_of_neg (by simp [hdigit]),
      List.append_nil]
  have hdrop : (units (paddedDigits width n) ++ separator :: rest).dropWhile isDigit =
      separator :: rest := by
    rw [List.dropWhile_append_of_pos hdigits, List.dropWhile_cons_of_neg (by simp [hdigit])]
  unfold timestampPart
  simp only [htake, hdrop, hlength, hvalue, if_pos (And.intro hleast hmost), if_pos hseparator]

/-- INTERNAL: the text of a timestamp in an export. -/
theorem normalizeTimestamp_eq (now : UtcTime) : normalizeTimestamp now.currentTimestamp =
    paddedDigits 4 now.year ++ '-' :: (paddedDigits 2 now.month ++ '-' :: (paddedDigits 2 now.day ++
      'T' :: (paddedDigits 2 now.hour ++ ':' :: (paddedDigits 2 now.minute ++
        ':' :: (paddedDigits 2 now.second ++ ['Z']))))) := by
  simp only [normalizeTimestamp, UtcTime.currentTimestamp, paddedDigits, List.nil_append,
    List.cons_append]
  rfl

/-- **The timestamp of an export has the expected format.** -/
theorem strptime_timestamp (now : UtcTime) :
    strptime (units (normalizeTimestamp now.currentTimestamp)) = some now := by
  obtain ⟨year, month, day, hour, minute, second, hyear, hmonth, hday, htime⟩ := now
  have hdays : daysInMonth year month ≤ 31 := by
    unfold daysInMonth
    split_ifs <;> omega
  have hunits : ∀ (text : List Char) (c : Char) (unit : UInt16), units [c] = [unit] →
      units (c :: text) = unit :: units text := by
    intro text c unit hc
    exact (units_append [c] text).trans (by rw [hc]; rfl)
  have hpart : ∀ n < 10 ^ 2, ∀ (separators : List UInt16) (separator : UInt16),
      isDigit separator = false → separator ∈ separators → ∀ rest,
      timestampPart 1 2 separators (units (paddedDigits 2 n) ++ separator :: rest) =
        some (n, rest) :=
    fun n hn separators separator hdigit hmem rest =>
      timestampPart_padded 1 2 (by decide) (by decide) hn separators separator hdigit hmem rest
  have hyearPart := timestampPart_padded 4 4 (by decide) (by decide)
    (show year < 10 ^ 4 by omega) [45] 45 (by decide) (by decide)
  have hend : units ['Z'] = [90] := by decide
  rw [normalizeTimestamp_eq]
  simp only [units_append, hunits _ '-' 45 (by decide), hunits _ 'T' 84 (by decide),
    hunits _ ':' 58 (by decide), hend]
  unfold strptime
  simp only [bind, Option.bind, hyearPart,
    hpart month (by omega) [45] 45 (by decide) (by decide),
    hpart day (by omega) [84, 116] 84 (by decide) (by decide),
    hpart hour (by omega) [58] 58 (by decide) (by decide),
    hpart minute (by omega) [58] 58 (by decide) (by decide),
    hpart second (by omega) [90, 122] 90 (by decide) (by decide)]
  rw [dif_pos ⟨⟨hyear, hmonth, hday, htime⟩, trivial⟩]

/-! ## The bundle that is read -/

/-- A session as the analytics read it. -/
def analysedSession (session : EvidenceSessionSummary) (projection : SessionProjection) :
    Analytics.InvestigationSession where
  clientId := session.clientId.value.toNat
  sessionId := session.sessionId.value.toNat
  lastCommittedSequence := projection.lastCommittedSequence.toNat
  firstTargetTick := projection.firstTargetTick.toNat
  lastTargetTick := projection.lastTargetTick.toNat
  acceptedCommands := session.acceptedCount
  rejectedCommands := session.rejectedCount

/-- A record as the analytics read it. -/
def analysedRecord (stored : StoredEvidenceRecord) : InvestigationEvidenceRecord where
  ordinal := stored.record.ordinal.toNat
  clientId := stored.record.entry.envelope.clientId.value.toNat
  sessionId := stored.record.entry.envelope.sessionId.value.toNat
  sessionSequence := stored.record.entry.envelope.sequence.toNat
  targetTick := stored.record.entry.envelope.targetTick.toNat
  commandType := str (commandTypeName stored.record.entry.envelope.type)
  outcome := str (if recordWasAccepted stored.record then "accepted" else "rejected")
  rejectionCode := str (rejectionName stored.record)
  previousDigest := units stored.record.previousRecordDigest.toHex
  recordDigest := units stored.recordDigest.toHex

/-- The bundle that the analytics read from the export of an archive. -/
def analysedBundle (kept : KeptArchive) (result : CommandEvidenceReplayResult) :
    InvestigationBundle where
  schemaVersion := supportedSchemaVersion
  archiveDigest := units kept.digest.toHex
  initialHeadDigest := units genesisDigest.toHex
  trustedHeadDigest := units kept.head.toHex
  importedAtUtc := kept.importedAt
  sessions := kept.shownSessions.map fun shown => analysedSession shown.1 shown.2
  evidence := kept.records.map fun record => analysedRecord (storedAs kept.archiveId record)
  replay := {
    verified := result.verified
    finalTick := result.finalTick.toNat
    finalWorldFingerprint := result.finalWorldFingerprint.value.toNat
    acceptedCommands := kept.acceptedCount
    rejectedCommands := kept.rejectedCount }

/-- INTERNAL: an object of fields with the expected names. -/
theorem object_objectOf (fields : List Field) (expectedFields : List String)
    (h : fields.map (·.name) = expectedFields) (path : Str) :
    object (objectOf fields) path expectedFields = .ok (objectOf fields) := by
  refine object_of_names _ ?_ path
  rw [Field.members, ← h, List.map_map, List.map_map]
  rfl

/-- INTERNAL: a string that is not empty. -/
theorem string_units {text : List Char} (h : units text ≠ []) (path : Str) :
    Analytics.string (.string (units text)) path = .ok (units text) := by
  rw [Analytics.string, if_neg (by simpa using h)]

/-- INTERNAL: a session is parsed from its fields. -/
theorem parseSession_fields {session : EvidenceSessionSummary} (projection : SessionProjection)
    (haccepted : session.acceptedCount < 2 ^ 31) (hrejected : session.rejectedCount < 2 ^ 31)
    (index : ℕ) : parseSession (objectOf (sessionFields session projection)) index =
      .ok (analysedSession session projection) := by
  have hobject := object_objectOf (sessionFields session projection)
    ["clientId", "sessionId", "lastCommittedSequence", "firstTargetTick", "lastTargetTick",
      "acceptedCommands", "rejectedCommands"] rfl
  have hfields := fun field =>
    member?_objectOf (sessionFields_names session projection) field
  generalize objectOf (sessionFields session projection) = value at hobject hfields ⊢
  simp only [sessionFields, List.forall_mem_cons, string_shown, number_shown] at hfields
  obtain ⟨hclient, hsession, hlast, hfirst, hlastTick, hacceptedField, hrejectedField, -⟩ := hfields
  simp only [parseSession, hobject, bind, Except.bind, item_of_member hclient,
    item_of_member hsession, item_of_member hlast, item_of_member hfirst,
    item_of_member hlastTick, item_of_member hacceptedField, item_of_member hrejectedField,
    uint64String_decimal, nonnegativeInteger_decimal haccepted,
    nonnegativeInteger_decimal hrejected]
  rfl

/-- INTERNAL: the names of known rejection codes, of which the first is `none`. -/
theorem commandRejectionCodeName_known {code : CommandRejectionCode}
    (h : isKnownRejectionCode code = true) :
    str (commandRejectionCodeName code) ≠ [] ∧
      (str (commandRejectionCodeName code) = str "none" ↔ code = .none) := by
  have hall : ∀ code ∈ ([.none, .unsupportedSchemaVersion, .unsupportedCommandType,
      .invalidClientId, .invalidSessionId, .clientIdentityMismatch, .sessionIdentityMismatch,
      .sequenceZero, .staleTargetTick, .targetTickTooFarFuture, .velocityOutOfRange,
      .duplicateSequence, .sequenceRegression, .unknownEntity, .entitySequenceNotIncreasing,
      .targetTickRegression, .simulationRejectionUnknown] : List CommandRejectionCode),
      str (commandRejectionCodeName code) ≠ [] ∧
        (str (commandRejectionCodeName code) = str "none" ↔ code = .none) := by
    decide +kernel
  exact hall code (of_decide_eq_true h)

/-- INTERNAL: a record is parsed from its fields. -/
theorem parseEvidence_fields (stored : StoredEvidenceRecord) (h : RecordOk stored.record)
    (hordinal : stored.record.ordinal.toNat < 2 ^ 31) (index : ℕ) :
    parseEvidence (objectOf (recordFields stored)) index = .ok (analysedRecord stored) := by
  have htypeName : units (commandTypeName stored.record.entry.envelope.type).toList ≠ [] := by
    unfold commandTypeName
    split_ifs <;> decide
  have houtcomeName : units (if recordWasAccepted stored.record then "accepted" else
      "rejected").toList ≠ [] := by
    split_ifs <;> decide
  have hrejectionName : units (rejectionName stored.record).toList ≠ [] := by
    rw [rejectionName_eq h]
    exact (commandRejectionCodeName_known h.knownRejection).1
  have hobject := object_objectOf (recordFields stored)
    ["ordinal", "clientId", "sessionId", "sessionSequence", "targetTick", "commandType", "outcome",
      "rejectionCode", "previousDigest", "recordDigest"] rfl
  have hfields := fun field => member?_objectOf (recordFields_names stored) field
  generalize objectOf (recordFields stored) = value at hobject hfields ⊢
  simp only [recordFields, List.forall_mem_cons, string_shown, number_shown] at hfields
  obtain ⟨hordinalField, hclient, hsession, hsequence, htick, htype, houtcome, hrejection,
    hprevious, hdigest, -⟩ := hfields
  simp only [parseEvidence, hobject, bind, Except.bind, item_of_member hordinalField,
    item_of_member hclient, item_of_member hsession, item_of_member hsequence,
    item_of_member htick, item_of_member htype, item_of_member houtcome,
    item_of_member hrejection, item_of_member hprevious, item_of_member hdigest,
    uint64String_decimal, nonnegativeInteger_decimal hordinal, string_units htypeName,
    string_units houtcomeName, string_units hrejectionName, digest_toHex]
  rfl

/-- INTERNAL: a replay summary is parsed from its fields. -/
theorem parseReplay_fields (replay : CommandEvidenceReplayResult) {acceptedCount rejectedCount : ℕ}
    (haccepted : acceptedCount < 2 ^ 31) (hrejected : rejectedCount < 2 ^ 31) :
    parseReplay (objectOf (replayFields replay acceptedCount rejectedCount)) = .ok {
      verified := replay.verified
      finalTick := replay.finalTick.toNat
      finalWorldFingerprint := replay.finalWorldFingerprint.value.toNat
      acceptedCommands := acceptedCount
      rejectedCommands := rejectedCount } := by
  have hobject := object_objectOf (replayFields replay acceptedCount rejectedCount)
    ["verified", "finalTick", "finalWorldFingerprint", "acceptedCommands", "rejectedCommands"] rfl
  have hfields := fun field =>
    member?_objectOf (replayFields_names replay acceptedCount rejectedCount) field
  generalize objectOf (replayFields replay acceptedCount rejectedCount) = value at hobject hfields ⊢
  simp only [replayFields, List.forall_mem_cons, string_shown, number_shown] at hfields
  obtain ⟨hverified, htick, hfingerprint, hacceptedField, hrejectedField, -⟩ := hfields
  have hboolean : item value "verified" = .ok (.boolean replay.verified) :=
    item_of_member hverified
  simp only [parseReplay, hobject, bind, Except.bind, hboolean, Analytics.boolean,
    item_of_member htick, item_of_member hfingerprint, item_of_member hacceptedField,
    item_of_member hrejectedField, uint64String_decimal, nonnegativeInteger_decimal haccepted,
    nonnegativeInteger_decimal hrejected]
  rfl

/-- INTERNAL: the elements of an array are parsed one by one. -/
theorem parseElements_map {α β : Type} (parse : Json → ℕ → Except Raised α) (toJson : β → Json)
    (view : β → α) (elements : List β)
    (h : ∀ element ∈ elements, ∀ index, parse (toJson element) index = .ok (view element))
    (index : ℕ) : parseElements parse index (elements.map toJson) = .ok (elements.map view) := by
  induction elements generalizing index with
  | nil => rfl
  | cons element elements ih =>
    have hrest := ih (fun other hother => h other (List.mem_cons_of_mem _ hother)) (index + 1)
    simp only [List.map_cons, parseElements, h element (List.mem_cons_self ..), hrest, bind,
      Except.bind, pure, Except.pure]

/-! ## The numbers of an export -/

/-- The numbers among tokens are short enough to convert. -/
def ShortNumbers (tokens : List Json.Token) : Prop :=
  ∀ literal, .number literal ∈ tokens → literal.length ≤ maxStrDigits

/-- INTERNAL: tokens in two parts. -/
theorem shortNumbers_append {left right : List Json.Token} :
    ShortNumbers (left ++ right) ↔ ShortNumbers left ∧ ShortNumbers right := by
  simp only [ShortNumbers, List.mem_append, or_imp, forall_and]

/-- INTERNAL: the tokens of fields. -/
theorem fields_shortNumbers {fields : List Field}
    (h : ∀ field ∈ fields, ShortNumbers [field.token]) : ShortNumbers (Field.tokens fields) := by
  induction fields with
  | nil => exact fun literal hliteral => nomatch hliteral
  | cons field fields ih =>
    obtain ⟨hfield, hrest⟩ := List.forall_mem_cons.mp h
    rw [Field.tokens, shortNumbers_append, shortNumbers_append]
    refine ⟨⟨?_, ?_⟩, ih hrest⟩
    · intro literal hliteral
      exact hfield literal (by simpa using hliteral)
    · intro literal hliteral
      split at hliteral <;> simp at hliteral

/-- INTERNAL: the tokens of elements. -/
theorem elements_shortNumbers {elements : List (List Json.Token)}
    (h : ∀ element ∈ elements, ShortNumbers element) : ShortNumbers (elementTokens elements) := by
  induction elements with
  | nil => exact fun literal hliteral => nomatch hliteral
  | cons element elements ih =>
    obtain ⟨helement, hrest⟩ := List.forall_mem_cons.mp h
    simp only [elementTokens, shortNumbers_append]
    refine ⟨⟨⟨⟨?_, helement⟩, ?_⟩, ?_⟩, ih hrest⟩
    · intro literal hliteral
      simp at hliteral
    · intro literal hliteral
      simp at hliteral
    · intro literal hliteral
      split at hliteral <;> simp at hliteral

/-- INTERNAL: a string is no number. -/
theorem string_short (name : String) (value : List Char) :
    ShortNumbers [(Field.string name value).token] := by
  intro literal hliteral
  simp [Field.string] at hliteral

/-- INTERNAL: a small number is short. -/
theorem number_short (name : String) {value : ℕ} (h : value < 2 ^ 31) :
    ShortNumbers [(Field.number name value).token] := by
  intro literal hliteral
  simp only [Field.number, List.mem_singleton, Json.Token.number.injEq] at hliteral
  rw [hliteral]
  exact Nat.not_lt.mp (decimal_not_long (h.trans (by decide)))

/-- INTERNAL: a truth value is no number. -/
theorem boolean_short (name : String) (value : Bool) :
    ShortNumbers [(Field.boolean name value).token] := by
  intro literal hliteral
  simp [Field.boolean] at hliteral

/-- INTERNAL: decoding an export comes to no long integer. -/
theorem decodesLongInteger_exportText (kept : KeptArchive) (result : CommandEvidenceReplayResult)
    (hordinals : ∀ record ∈ kept.records, record.ordinal.toNat < 2 ^ 31)
    (haccepted : kept.acceptedCount < 2 ^ 31) (hrejected : kept.rejectedCount < 2 ^ 31) :
    decodesLongInteger (kept.exportText result) = false := by
  have hhead : ShortNumbers (Field.tokens (headFields kept.summary genesisDigest)) := by
    refine fields_shortNumbers ?_
    simp only [headFields, List.forall_mem_cons, string_short, true_and]
    exact ⟨number_short _ (by decide), by simp⟩
  have hsessions : ShortNumbers (elementTokens ((kept.shownSessions.map fun entry =>
      sessionFields entry.1 entry.2).map Field.tokens)) := by
    refine elements_shortNumbers ?_
    rw [List.map_map]
    intro element helement
    obtain ⟨entry, hentry, rfl⟩ := List.mem_map.mp helement
    refine fields_shortNumbers ?_
    obtain ⟨haccepts, hrejects⟩ := shownSession_counts hentry
    simp only [sessionFields, List.forall_mem_cons, string_short, true_and]
    exact ⟨number_short _ (haccepts.trans_lt haccepted), number_short _ (hrejects.trans_lt hrejected),
      by simp⟩
  have hevidence : ShortNumbers (elementTokens (((kept.records.map (storedAs kept.archiveId)).map
      recordFields).map Field.tokens)) := by
    refine elements_shortNumbers ?_
    rw [List.map_map, List.map_map]
    intro element helement
    obtain ⟨record, hrecord, rfl⟩ := List.mem_map.mp helement
    refine fields_shortNumbers ?_
    simp only [recordFields, List.forall_mem_cons, string_short, true_and]
    exact ⟨number_short _ (hordinals record hrecord), by simp⟩
  have hreplay : ShortNumbers (Field.tokens (replayFields result kept.acceptedCount
      kept.rejectedCount)) := by
    refine fields_shortNumbers ?_
    simp only [replayFields, List.forall_mem_cons, string_short, boolean_short, true_and]
    exact ⟨number_short _ haccepted, number_short _ hrejected, by simp⟩
  have htokens : ShortNumbers (bundleTokens kept.summary genesisDigest kept.shownSessions
      (kept.records.map (storedAs kept.archiveId)) result kept.acceptedCount
      kept.rejectedCount) := by
    have hmark : ∀ tokens, (∀ literal, Json.Token.number literal ∉ tokens) → ShortNumbers tokens :=
      fun tokens h literal hliteral => absurd hliteral (h literal)
    have hcomma := hmark [.comma] (by simp)
    have hopen := hmark [.openObject] (by simp)
    have hclose := hmark [.closeObject] (by simp)
    have hcloseArray := hmark [.closeArray, .comma] (by simp)
    have hopenArray := fun name => hmark [.string name, .colon, .openArray] (by simp)
    have hopenObject := fun name => hmark [.string name, .colon, .openObject] (by simp)
    simp only [bundleTokens, shortNumbers_append, hhead, hsessions, hevidence, hreplay, hcomma,
      hopen, hclose, hcloseArray, hopenArray, hopenObject, and_self]
  rw [Bool.eq_false_iff]
  intro hlong
  have hlexes := bundleText_lexes kept.summary genesisDigest kept.shownSessions
    (kept.records.map (storedAs kept.archiveId)) result kept.acceptedCount kept.rejectedCount
  have hlex : Json.lex (kept.exportText result) = some (bundleTokens kept.summary genesisDigest
      kept.shownSessions (kept.records.map (storedAs kept.archiveId)) result kept.acceptedCount
      kept.rejectedCount) := by
    unfold Json.lex KeptArchive.exportText
    rw [hlexes []]
    rfl
  obtain ⟨literal, hliteral, hlength⟩ := Json.number_of_comesTo (by decide) hlex hlong
  exact absurd (htokens literal hliteral) (Nat.not_le.mpr hlength)

/-- **Only consistency decides whether an export is accepted.**
SRC: investigation_bundle.py:589-653 -/
theorem parse_exportText (message : DecodeMessage) (kept : KeptArchive)
    (result : CommandEvidenceReplayResult)
    (hordinals : ∀ record ∈ kept.records, record.ordinal.toNat < 2 ^ 31)
    (haccepted : kept.acceptedCount < 2 ^ 31) (hrejected : kept.rejectedCount < 2 ^ 31) :
    parseInvestigationBundleJson message (kept.exportText result) = do
      validateConsistency (analysedBundle kept result)
      return analysedBundle kept result := by
  obtain ⟨-, -, -, hok⟩ := kept.decoded
  have haccept : Accepting rejectDuplicateKeys := fun _ hnames => decide_eq_true hnames
  have hdecode : decodeJson message (kept.exportText result) = .ok (bundleJson kept.summary
      genesisDigest kept.shownSessions (kept.records.map (storedAs kept.archiveId)) result
      kept.acceptedCount kept.rejectedCount) := by
    have hshort := decodesLongInteger_exportText kept result hordinals haccepted hrejected
    rw [decodeJson, hshort, KeptArchive.exportText, decode_bundleText haccept]
    rfl
  have hobject := object_of_names ["schemaVersion", "archiveDigest", "initialHeadDigest",
    "trustedHeadDigest", "importedAtUtc", "sessions", "evidence", "replay"]
    (bundle_names_eq kept.summary genesisDigest
      (.array (kept.shownSessions.map fun shown => objectOf (sessionFields shown.1 shown.2)))
      (.array ((kept.records.map (storedAs kept.archiveId)).map fun stored =>
        objectOf (recordFields stored)))
      (objectOf (replayFields result kept.acceptedCount kept.rejectedCount))) (str "$")
  have hfields := fun field => bundleJson_head kept.summary genesisDigest kept.shownSessions
    (kept.records.map (storedAs kept.archiveId)) result kept.acceptedCount kept.rejectedCount field
  have hsessions := item_of_member (bundleJson_sessions kept.summary genesisDigest
    kept.shownSessions (kept.records.map (storedAs kept.archiveId)) result kept.acceptedCount
    kept.rejectedCount)
  have hevidence := item_of_member (bundleJson_evidence kept.summary genesisDigest
    kept.shownSessions (kept.records.map (storedAs kept.archiveId)) result kept.acceptedCount
    kept.rejectedCount)
  have hreplay := item_of_member (bundleJson_replay kept.summary genesisDigest
    kept.shownSessions (kept.records.map (storedAs kept.archiveId)) result kept.acceptedCount
    kept.rejectedCount)
  change object (bundleJson kept.summary genesisDigest kept.shownSessions
    (kept.records.map (storedAs kept.archiveId)) result kept.acceptedCount
    kept.rejectedCount) _ _ = .ok (bundleJson kept.summary genesisDigest kept.shownSessions
    (kept.records.map (storedAs kept.archiveId)) result kept.acceptedCount
    kept.rejectedCount) at hobject
  generalize bundleJson .. = data at hdecode hobject hfields hsessions hevidence hreplay
  simp only [headFields, List.forall_mem_cons, string_shown, number_shown] at hfields
  obtain ⟨hschema, harchive, hinitial, htrusted, himported, -⟩ := hfields
  have hparseSessions := parseElements_map parseSession _
    (fun shown => analysedSession shown.1 shown.2) kept.shownSessions
    (fun shown hshown => parseSession_fields shown.2
      ((shownSession_counts hshown).1.trans_lt haccepted)
      ((shownSession_counts hshown).2.trans_lt hrejected)) 0
  have hparseEvidence := parseElements_map parseEvidence
    ((fun stored => objectOf (recordFields stored)) ∘ storedAs kept.archiveId)
    (fun record => analysedRecord (storedAs kept.archiveId record)) kept.records
    (fun record hrecord => parseEvidence_fields (storedAs kept.archiveId record)
      (hok record hrecord) (hordinals record hrecord)) 0
  rw [List.map_map] at hevidence
  have hschemaVersion : nonnegativeInteger (.number (decimal investigationBundleSchemaVersion))
      (str "$.schemaVersion") = .ok supportedSchemaVersion :=
    nonnegativeInteger_decimal (by decide) _
  have htimestamp : utcTimestamp (.string (units (normalizeTimestamp kept.summary.importedAtUtc)))
      (str "$.importedAtUtc") = .ok kept.importedAt := by
    have hnonempty : units (normalizeTimestamp kept.importedAt.currentTimestamp) ≠ [] := by
      intro hempty
      have hparsed := strptime_timestamp kept.importedAt
      rw [hempty] at hparsed
      cases hparsed
    show utcTimestamp (.string (units (normalizeTimestamp kept.importedAt.currentTimestamp))) _ = _
    simp only [utcTimestamp, string_units hnonempty, bind, Except.bind, strptime_timestamp]
    rfl
  have hreplayParse := parseReplay_fields result haccepted hrejected
  simp only [parseInvestigationBundleJson, hdecode, hobject, bind, Except.bind,
    item_of_member hschema, hschemaVersion, ne_eq, not_true_eq_false, if_false, hsessions,
    Analytics.array]
  rw [hparseSessions]
  simp only [hevidence]
  rw [hparseEvidence]
  simp only [item_of_member harchive, item_of_member hinitial, item_of_member htrusted,
    item_of_member himported, digest_toHex, htimestamp, hreplay, hreplayParse]
  rfl

end Tickline.Analysis
