import Tickline.Library.JsonScan
import Tickline.Model.InvestigationDatabase
import Mathlib.Data.List.Lex

/-!
# Investigation bundles in the analytics

The Python side of the program.  `parseInvestigationBundleJson` decodes a text, reads every field
strictly and checks the fields against each other; the first finding is raised.

A `str` is the list of its UTF-16 code units and orders by its code points; an `int` that was
checked not to be negative is a natural number.  What `json.loads` says of a text that it does
not decode is a parameter (`DecodeMessage`).  `int` raises on more digits than it converts, in the
decoder as soon as that comes to such a literal.
-/

set_option autoImplicit false

namespace Tickline.Model.Analytics

open Tickline.Library Tickline.Model.Storage

/-! ## Strings -/

abbrev Str := List UInt16

/-- A string literal. -/
def str (text : String) : Str := Json.units text.toList

/-- `str` of a number. -/
def strOfInt (value : ℕ) : Str := Json.units (Nat.toDigits 10 value)

/-- The code points of a string; a surrogate without its partner counts as one. -/
def codePoints : Str → List ℕ
  | [] => []
  | [unit] => [unit.toNat]
  | high :: low :: rest =>
    if 0xd800 ≤ high ∧ high < 0xdc00 ∧ 0xdc00 ≤ low ∧ low < 0xe000 then
      (0x10000 + (high.toNat - 0xd800) * 0x400 + (low.toNat - 0xdc00)) :: codePoints rest
    else high.toNat :: codePoints (low :: rest)

/-- `sorted(names)[0]`, if there is one. -/
def firstSorted (names : List Str) : Option Str :=
  (names.insertionSort fun left right => codePoints left ≤ codePoints right).head?

/-- An ASCII digit. -/
def isDigit (unit : UInt16) : Bool := 48 ≤ unit && unit ≤ 57

/-- The value of a string of ASCII digits. -/
def intOf (digits : Str) : ℕ :=
  digits.foldl (fun value unit => value * 10 + (unit.toNat - 48)) 0

/-! ## Errors -/

/-- SRC: investigation_bundle.py:20-27 -/
structure InvestigationBundleValidationError where
  code : String
  path : Str
  message : Str
  deriving DecidableEq

/-- What the parser may raise. -/
inductive Raised
  | validation (error : InvestigationBundleValidationError)
  | keyError (name : String)
  | valueError
  deriving DecidableEq

/-- SRC: investigation_bundle.py:108-109 -/
def fail {α : Type} (code : String) (path message : Str) : Except Raised α :=
  .error (.validation { code, path, message })

/-! ## Decoding -/

/-- The message of the decoder's error. -/
abbrev DecodeMessage := List Char → Str

/-- Whether `_reject_duplicate_keys` lets an object through.
SRC: investigation_bundle.py:112-126 -/
def rejectDuplicateKeys (pairs : List (Str × Json)) : Bool := (pairs.map Prod.fst).Nodup

/-- How many digits `int` converts at most. -/
def maxStrDigits : ℕ := 4300

/-- Whether decoding comes to an integer literal of more digits. -/
def decodesLongInteger (text : List Char) : Bool :=
  Json.comesTo rejectDuplicateKeys
    (fun rest => decide (maxStrDigits < (Json.leadingInteger rest).length)) [] text

/-- SRC: investigation_bundle.py:129-141 -/
def decodeJson (message : DecodeMessage) (text : List Char) : Except Raised Json :=
  if decodesLongInteger text then .error .valueError
  else match Json.decode rejectDuplicateKeys text with
    | some value => .ok value
    | none => fail "json.invalid" (str "$") (message text)

/-! ## Types -/

/-- SRC: investigation_bundle.py:144-170 -/
def object (value : Json) (path : Str) (expectedFields : List String) : Except Raised Json :=
  match value with
  | .object members =>
    let names := members.map Prod.fst
    let expected := expectedFields.map str
    match firstSorted (expected.filter fun name => !names.contains name) with
    | some name => fail "field.missing" (path ++ str "." ++ name) (str "required field is missing")
    | none =>
      match firstSorted (names.filter fun name => !expected.contains name) with
      | some name =>
        fail "field.unexpected" (path ++ str "." ++ name)
          (str "field is not defined by schema version 1")
      | none => .ok value
  | _ => fail "type.object" path (str "expected a JSON object")

/-- `data[name]`. -/
def item (data : Json) (name : String) : Except Raised Json :=
  match data.member? name with
  | some value => .ok value
  | none => .error (.keyError name)

/-- SRC: investigation_bundle.py:173-176 -/
def array (value : Json) (path : Str) : Except Raised (List Json) :=
  match value with
  | .array items => .ok items
  | _ => fail "type.array" path (str "expected a JSON array")

/-- SRC: investigation_bundle.py:179-184 -/
def string (value : Json) (path : Str) : Except Raised Str :=
  match value with
  | .string text =>
    if text.isEmpty then fail "value.empty" path (str "string must not be empty") else .ok text
  | _ => fail "type.string" path (str "expected a JSON string")

/-- SRC: investigation_bundle.py:187-190 -/
def boolean (value : Json) (path : Str) : Except Raised Bool :=
  match value with
  | .boolean value => .ok value
  | _ => fail "type.boolean" path (str "expected a JSON boolean")

/-- SRC: investigation_bundle.py:14 -/
def maxJsonInteger : ℕ := 2147483647

/-- SRC: investigation_bundle.py:15 -/
def maxUint64 : ℕ := 18446744073709551615

/-- SRC: investigation_bundle.py:193-204 -/
def nonnegativeInteger (value : Json) (path : Str) : Except Raised ℕ :=
  match value with
  | .number literal =>
    match Json.integer? literal with
    | none => fail "type.integer" path (str "expected a JSON integer")
    | some value =>
      if 0 ≤ value ∧ value ≤ maxJsonInteger then .ok value.toNat
      else fail "integer.range" path
        (str "expected a value from 0 through " ++ strOfInt maxJsonInteger)
  | _ => fail "type.integer" path (str "expected a JSON integer")

/-- `_UINT64_PATTERN.fullmatch`.
SRC: investigation_bundle.py:16 -/
def matchesUint64 (text : Str) : Bool :=
  text = [48] || (!text.isEmpty && text.all isDigit && text.head? ≠ some 48)

/-- SRC: investigation_bundle.py:207-226 -/
def uint64String (value : Json) (path : Str) : Except Raised ℕ := do
  let text ← string value path
  if !matchesUint64 text then
    fail "uint64.format" path (str "expected a canonical unsigned decimal string")
  if maxStrDigits < text.length then throw .valueError
  let number := intOf text
  if number > maxUint64 then
    fail "uint64.range" path (str "value exceeds " ++ strOfInt maxUint64)
  return number

/-- `_DIGEST_PATTERN.fullmatch`.
SRC: investigation_bundle.py:17 -/
def matchesDigest (text : Str) : Bool :=
  text.length = 64 && text.all fun unit => isDigit unit || (97 ≤ unit && unit ≤ 102)

/-- SRC: investigation_bundle.py:229-239 -/
def digest (value : Json) (path : Str) : Except Raised Str := do
  let text ← string value path
  if !matchesDigest text then
    fail "digest.format" path (str "expected exactly 64 lowercase hexadecimal characters")
  return text

/-- One number of a timestamp, of so many digits at least and at most, and what follows the
separator behind it.  A separator is matched in either case. -/
def timestampPart (least most : ℕ) (separators : List UInt16) (text : Str) : Option (ℕ × Str) :=
  let digits := text.takeWhile isDigit
  if least ≤ digits.length ∧ digits.length ≤ most then
    match text.dropWhile isDigit with
    | separator :: rest => if separator ∈ separators then some (intOf digits, rest) else none
    | [] => none
  else none

/-- `datetime.strptime` with the format `%Y-%m-%dT%H:%M:%SZ`: four digits for the year, and a
leading zero may be missing elsewhere. -/
def strptime (text : Str) : Option UtcTime := do
  let (year, text) ← timestampPart 4 4 [45] text
  let (month, text) ← timestampPart 1 2 [45] text
  let (day, text) ← timestampPart 1 2 [84, 116] text
  let (hour, text) ← timestampPart 1 2 [58] text
  let (minute, text) ← timestampPart 1 2 [58] text
  let (second, text) ← timestampPart 1 2 [90, 122] text
  if h : ((1 ≤ year ∧ year ≤ 9999) ∧ (1 ≤ month ∧ month ≤ 12) ∧
      (1 ≤ day ∧ day ≤ daysInMonth year month) ∧ hour < 24 ∧ minute < 60 ∧ second < 60) ∧
      text = [] then
    some {
      year, month, day, hour, minute, second
      validYear := h.1.1
      validMonth := h.1.2.1
      validDay := h.1.2.2.1
      validTime := h.1.2.2.2 }
  else none

/-- SRC: investigation_bundle.py:242-254 -/
def utcTimestamp (value : Json) (path : Str) : Except Raised UtcTime := do
  let text ← string value path
  match strptime text with
  | some parsed => return parsed
  | none =>
    fail "timestamp.format" path (str "expected UTC timestamp in YYYY-MM-DDTHH:MM:SSZ format")

/-! ## Bundles -/

/-- SRC: investigation_bundle.py:30-38 -/
structure InvestigationSession where
  clientId : ℕ
  sessionId : ℕ
  lastCommittedSequence : ℕ
  firstTargetTick : ℕ
  lastTargetTick : ℕ
  acceptedCommands : ℕ
  rejectedCommands : ℕ
  deriving DecidableEq

/-- SRC: investigation_bundle.py:40-42 -/
def InvestigationSession.key (session : InvestigationSession) : ℕ × ℕ :=
  (session.clientId, session.sessionId)

/-- SRC: investigation_bundle.py:49-60 -/
structure InvestigationEvidenceRecord where
  ordinal : ℕ
  clientId : ℕ
  sessionId : ℕ
  sessionSequence : ℕ
  targetTick : ℕ
  commandType : Str
  outcome : Str
  rejectionCode : Str
  previousDigest : Str
  recordDigest : Str
  deriving DecidableEq

namespace InvestigationEvidenceRecord

/-- SRC: investigation_bundle.py:62-64 -/
def key (record : InvestigationEvidenceRecord) : ℕ × ℕ := (record.clientId, record.sessionId)

/-- SRC: investigation_bundle.py:66-68 -/
def isAccepted (record : InvestigationEvidenceRecord) : Bool := record.outcome = str "accepted"

/-- SRC: investigation_bundle.py:70-72 -/
def isRejected (record : InvestigationEvidenceRecord) : Bool := record.outcome = str "rejected"

end InvestigationEvidenceRecord

/-- SRC: investigation_bundle.py:75-81 -/
structure ReplaySummary where
  verified : Bool
  finalTick : ℕ
  finalWorldFingerprint : ℕ
  acceptedCommands : ℕ
  rejectedCommands : ℕ
  deriving DecidableEq

/-- SRC: investigation_bundle.py:88-97 -/
structure InvestigationBundle where
  schemaVersion : ℕ
  archiveDigest : Str
  initialHeadDigest : Str
  trustedHeadDigest : Str
  importedAtUtc : UtcTime
  sessions : List InvestigationSession
  evidence : List InvestigationEvidenceRecord
  replay : ReplaySummary
  deriving DecidableEq

/-! ## Fields -/

/-- The path of an element. -/
def elementPath (name : String) (index : ℕ) : Str := str name ++ strOfInt index ++ str "]"

/-- SRC: investigation_bundle.py:257-299 -/
def parseSession (value : Json) (index : ℕ) : Except Raised InvestigationSession := do
  let path := elementPath "$.sessions[" index
  let data ← object value path ["clientId", "sessionId", "lastCommittedSequence",
    "firstTargetTick", "lastTargetTick", "acceptedCommands", "rejectedCommands"]
  return {
    clientId := ← uint64String (← item data "clientId") (path ++ str ".clientId")
    sessionId := ← uint64String (← item data "sessionId") (path ++ str ".sessionId")
    lastCommittedSequence :=
      ← uint64String (← item data "lastCommittedSequence") (path ++ str ".lastCommittedSequence")
    firstTargetTick :=
      ← uint64String (← item data "firstTargetTick") (path ++ str ".firstTargetTick")
    lastTargetTick := ← uint64String (← item data "lastTargetTick") (path ++ str ".lastTargetTick")
    acceptedCommands :=
      ← nonnegativeInteger (← item data "acceptedCommands") (path ++ str ".acceptedCommands")
    rejectedCommands :=
      ← nonnegativeInteger (← item data "rejectedCommands") (path ++ str ".rejectedCommands") }

/-- SRC: investigation_bundle.py:302-362 -/
def parseEvidence (value : Json) (index : ℕ) : Except Raised InvestigationEvidenceRecord := do
  let path := elementPath "$.evidence[" index
  let data ← object value path ["ordinal", "clientId", "sessionId", "sessionSequence",
    "targetTick", "commandType", "outcome", "rejectionCode", "previousDigest", "recordDigest"]
  return {
    ordinal := ← nonnegativeInteger (← item data "ordinal") (path ++ str ".ordinal")
    clientId := ← uint64String (← item data "clientId") (path ++ str ".clientId")
    sessionId := ← uint64String (← item data "sessionId") (path ++ str ".sessionId")
    sessionSequence :=
      ← uint64String (← item data "sessionSequence") (path ++ str ".sessionSequence")
    targetTick := ← uint64String (← item data "targetTick") (path ++ str ".targetTick")
    commandType := ← string (← item data "commandType") (path ++ str ".commandType")
    outcome := ← string (← item data "outcome") (path ++ str ".outcome")
    rejectionCode := ← string (← item data "rejectionCode") (path ++ str ".rejectionCode")
    previousDigest := ← digest (← item data "previousDigest") (path ++ str ".previousDigest")
    recordDigest := ← digest (← item data "recordDigest") (path ++ str ".recordDigest") }

/-- SRC: investigation_bundle.py:365-397 -/
def parseReplay (value : Json) : Except Raised ReplaySummary := do
  let path := str "$.replay"
  let data ← object value path
    ["verified", "finalTick", "finalWorldFingerprint", "acceptedCommands", "rejectedCommands"]
  return {
    verified := ← boolean (← item data "verified") (path ++ str ".verified")
    finalTick := ← uint64String (← item data "finalTick") (path ++ str ".finalTick")
    finalWorldFingerprint :=
      ← uint64String (← item data "finalWorldFingerprint") (path ++ str ".finalWorldFingerprint")
    acceptedCommands :=
      ← nonnegativeInteger (← item data "acceptedCommands") (path ++ str ".acceptedCommands")
    rejectedCommands :=
      ← nonnegativeInteger (← item data "rejectedCommands") (path ++ str ".rejectedCommands") }

/-! ## Consistency -/

/-- The loop over the sessions, with those before.
SRC: investigation_bundle.py:408-427 -/
def validateSessions :
    ℕ → List InvestigationSession → List InvestigationSession → Except Raised Unit
  | _, _, [] => return ()
  | index, sessions, session :: rest => do
    let path := elementPath "$.sessions[" index
    if sessions.any (·.key = session.key) then
      fail "session.duplicate" path (str "clientId and sessionId pair must be unique")
    if session.firstTargetTick > session.lastTargetTick then
      fail "session.tick_range" path (str "firstTargetTick must not exceed lastTargetTick")
    validateSessions (index + 1) (sessions ++ [session]) rest

/-- The loop over the evidence, with the digests before.
SRC: investigation_bundle.py:429-486 -/
def validateEvidence (sessions : List InvestigationSession) :
    ℕ → Str → List Str → List InvestigationEvidenceRecord → Except Raised Str
  | _, expectedPreviousDigest, _, [] => return expectedPreviousDigest
  | index, expectedPreviousDigest, recordDigests, record :: rest => do
    let path := elementPath "$.evidence[" index
    if record.ordinal ≠ index then
      fail "evidence.ordinal" (path ++ str ".ordinal")
        (str "expected contiguous ordinal " ++ strOfInt index)
    if !sessions.any (·.key = record.key) then
      fail "evidence.unknown_session" path
        (str "record references a session absent from sessions")
    if record.previousDigest ≠ expectedPreviousDigest then
      fail "evidence.chain_discontinuity" (path ++ str ".previousDigest")
        (str "expected " ++ expectedPreviousDigest)
    if recordDigests.contains record.recordDigest then
      fail "evidence.duplicate_digest" (path ++ str ".recordDigest")
        (str "record digest must be unique")
    if record.outcome ≠ str "accepted" ∧ record.outcome ≠ str "rejected" then
      fail "evidence.outcome" (path ++ str ".outcome") (str "expected accepted or rejected")
    if record.isAccepted ∧ record.rejectionCode ≠ str "none" then
      fail "evidence.accepted_rejection_code" (path ++ str ".rejectionCode")
        (str "accepted evidence must use rejectionCode none")
    if record.isRejected ∧ record.rejectionCode = str "none" then
      fail "evidence.rejected_rejection_code" (path ++ str ".rejectionCode")
        (str "rejected evidence must provide a rejection code")
    validateEvidence sessions (index + 1) record.recordDigest
      (recordDigests ++ [record.recordDigest]) rest

/-- SRC: investigation_bundle.py:495-526 -/
def validateReplay (replay : ReplaySummary) (evidence : List InvestigationEvidenceRecord) :
    Except Raised Unit := do
  let acceptedTotal := evidence.countP (·.isAccepted)
  let rejectedTotal := evidence.countP (·.isRejected)
  if replay.acceptedCommands ≠ acceptedTotal then
    fail "replay.accepted_count" (str "$.replay.acceptedCommands")
      (str "expected " ++ strOfInt acceptedTotal)
  if replay.rejectedCommands ≠ rejectedTotal then
    fail "replay.rejected_count" (str "$.replay.rejectedCommands")
      (str "expected " ++ strOfInt rejectedTotal)
  match (evidence.map (·.targetTick)).max? with
  | none => return ()
  | some lastTargetTick =>
    if replay.finalTick < lastTargetTick then
      fail "replay.final_tick" (str "$.replay.finalTick")
        (str "must be at least " ++ strOfInt lastTargetTick)

/-- The checks of a session against its records.
SRC: investigation_bundle.py:529-586 -/
def validateSummary (evidence : List InvestigationEvidenceRecord) (index : ℕ)
    (session : InvestigationSession) : Except Raised Unit := do
  let path := elementPath "$.sessions[" index
  let records := evidence.filter (·.key = session.key)
  let accepted := records.filter (·.isAccepted)
  let rejected := records.filter (·.isRejected)
  if session.acceptedCommands ≠ accepted.length then
    fail "session.accepted_count" (path ++ str ".acceptedCommands")
      (str "expected " ++ strOfInt accepted.length)
  if session.rejectedCommands ≠ rejected.length then
    fail "session.rejected_count" (path ++ str ".rejectedCommands")
      (str "expected " ++ strOfInt rejected.length)
  let expectedSequence := (accepted.map (·.sessionSequence)).max?.getD 0
  if session.lastCommittedSequence ≠ expectedSequence then
    fail "session.last_committed_sequence" (path ++ str ".lastCommittedSequence")
      (str "expected " ++ strOfInt expectedSequence)
  let expectedFirstTick := (records.map (·.targetTick)).min?.getD 0
  let expectedLastTick := (records.map (·.targetTick)).max?.getD 0
  if session.firstTargetTick ≠ expectedFirstTick then
    fail "session.first_target_tick" (path ++ str ".firstTargetTick")
      (str "expected " ++ strOfInt expectedFirstTick)
  if session.lastTargetTick ≠ expectedLastTick then
    fail "session.last_target_tick" (path ++ str ".lastTargetTick")
      (str "expected " ++ strOfInt expectedLastTick)

/-- The loop over the sessions and their records.
SRC: investigation_bundle.py:528-586 -/
def validateSummaries (evidence : List InvestigationEvidenceRecord) :
    ℕ → List InvestigationSession → Except Raised Unit
  | _, [] => return ()
  | index, session :: rest => do
    validateSummary evidence index session
    validateSummaries evidence (index + 1) rest

/-- SRC: investigation_bundle.py:400-586 -/
def validateConsistency (bundle : InvestigationBundle) : Except Raised Unit := do
  validateSessions 0 [] bundle.sessions
  let expectedPreviousDigest ←
    validateEvidence bundle.sessions 0 bundle.initialHeadDigest [] bundle.evidence
  if expectedPreviousDigest ≠ bundle.trustedHeadDigest then
    fail "evidence.trusted_head_mismatch" (str "$.trustedHeadDigest")
      (str "expected " ++ expectedPreviousDigest)
  validateReplay bundle.replay bundle.evidence
  validateSummaries bundle.evidence 0 bundle.sessions

/-! ## The parser -/

/-- SRC: investigation_bundle.py:12 -/
def supportedSchemaVersion : ℕ := 1

/-- The elements of an array, each parsed with its place. -/
def parseElements {α : Type} (parse : Json → ℕ → Except Raised α) :
    ℕ → List Json → Except Raised (List α)
  | _, [] => return []
  | index, value :: rest => do
    let element ← parse value index
    let elements ← parseElements parse (index + 1) rest
    return element :: elements

/-- SRC: investigation_bundle.py:589-653 -/
def parseInvestigationBundleJson (message : DecodeMessage) (text : List Char) :
    Except Raised InvestigationBundle := do
  let data ← object (← decodeJson message text) (str "$") ["schemaVersion", "archiveDigest",
    "initialHeadDigest", "trustedHeadDigest", "importedAtUtc", "sessions", "evidence", "replay"]
  let schemaVersion ← nonnegativeInteger (← item data "schemaVersion") (str "$.schemaVersion")
  if schemaVersion ≠ supportedSchemaVersion then
    fail "schema.unsupported" (str "$.schemaVersion")
      (str "supported schema version is " ++ strOfInt supportedSchemaVersion)
  let sessions ← parseElements parseSession 0 (← array (← item data "sessions") (str "$.sessions"))
  let evidence ← parseElements parseEvidence 0 (← array (← item data "evidence") (str "$.evidence"))
  let bundle : InvestigationBundle := {
    schemaVersion
    archiveDigest := ← digest (← item data "archiveDigest") (str "$.archiveDigest")
    initialHeadDigest := ← digest (← item data "initialHeadDigest") (str "$.initialHeadDigest")
    trustedHeadDigest := ← digest (← item data "trustedHeadDigest") (str "$.trustedHeadDigest")
    importedAtUtc := ← utcTimestamp (← item data "importedAtUtc") (str "$.importedAtUtc")
    sessions, evidence
    replay := ← parseReplay (← item data "replay") }
  validateConsistency bundle
  return bundle

end Tickline.Model.Analytics
