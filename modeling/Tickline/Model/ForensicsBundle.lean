import Tickline.Library.Json

/-!
# Investigation bundles in the viewer, and their validator

The C# side of the program.  A string is the list of its UTF-16 code units; a reference that
may be null is an `Option`.  `Validate` returns the issues it found, in order.

`ulong.Parse` and `ulong.TryParse` with `NumberStyles.None` accept decimal digits and
nothing around them; as documented, any terminating NUL characters are ignored under every
style.  What `DateTimeOffset.TryParse` accepts is a parameter (`TimestampParser`).
-/

set_option autoImplicit false

namespace Tickline.Model.Forensics

/-! ## Strings -/

/-- A string, which is not null. -/
abbrev NetString := List UInt16

/-- The string with this text. -/
def NetString.ofText (text : List Char) : NetString := Library.Json.units text

/-- A string literal. -/
def net (text : String) : NetString := NetString.ofText text.toList

/-- What a member may throw. -/
inductive NetException
  | argumentNull
  | argument
  | argumentOutOfRange
  | format
  | overflow
  | keyNotFound
  | nullReference
  | objectDisposed
  deriving DecidableEq, Repr

/-- `char.IsWhiteSpace`. -/
def isWhiteSpace (c : UInt16) : Bool :=
  (9 ≤ c && c ≤ 13) || c = 0x20 || c = 0x85 || c = 0xa0 || c = 0x1680 ||
    (0x2000 ≤ c && c ≤ 0x200a) || c = 0x2028 || c = 0x2029 || c = 0x202f || c = 0x205f ||
    c = 0x3000

/-- `string.IsNullOrWhiteSpace`. -/
def isNullOrWhiteSpace : Option NetString → Bool
  | none => true
  | some value => value.all isWhiteSpace

/-- `string.IsNullOrEmpty`. -/
def isNullOrEmpty : Option NetString → Bool
  | none => true
  | some value => value.isEmpty

/-- A string in a concatenation, where null counts as empty. -/
def concatenated (value : Option NetString) : NetString := value.getD []

/-- An ASCII digit. -/
def isDigit (c : UInt16) : Bool := 48 ≤ c && c ≤ 57

/-- The number that digits spell. -/
def digitsValue (digits : NetString) : ℕ :=
  digits.foldl (fun value c => value * 10 + (c.toNat - 48)) 0

/-- `ulong.Parse` with `NumberStyles.None`, of a string that is not null. -/
def parseDigits (value : NetString) : Except NetException UInt64 :=
  let digits := value.takeWhile isDigit
  if digits.isEmpty || (value.dropWhile isDigit).any (· ≠ 0) then .error .format
  else if digitsValue digits < 2 ^ 64 then .ok (UInt64.ofNat (digitsValue digits))
  else .error .overflow

/-- `ulong.Parse` with `NumberStyles.None`. -/
def parseUnsigned : Option NetString → Except NetException UInt64
  | none => .error .argumentNull
  | some value => parseDigits value

/-- `ulong.TryParse` with `NumberStyles.None`. -/
def tryParseUnsigned : Option NetString → Option UInt64
  | none => none
  | some value => (parseDigits value).toOption

/-- Which strings `DateTimeOffset.TryParse` accepts with the invariant culture, assuming and
adjusting to UTC.  It accepts no null. -/
abbrev TimestampParser := NetString → Bool

/-! ## Bundles -/

/-- SRC: InvestigationBundle.cs:18-28 -/
structure InvestigationSession where
  clientId : Option NetString := some []
  sessionId : Option NetString := some []
  lastCommittedSequence : Option NetString := some [48]
  firstTargetTick : Option NetString := some [48]
  lastTargetTick : Option NetString := some [48]
  acceptedCommands : Int32 := 0
  rejectedCommands : Int32 := 0
  deriving DecidableEq

/-- SRC: InvestigationBundle.cs:30-43 -/
structure InvestigationEvidenceRecord where
  ordinal : Int32 := 0
  clientId : Option NetString := some []
  sessionId : Option NetString := some []
  sessionSequence : Option NetString := some [48]
  targetTick : Option NetString := some [48]
  commandType : Option NetString := some []
  outcome : Option NetString := some []
  rejectionCode : Option NetString := some []
  previousDigest : Option NetString := some []
  recordDigest : Option NetString := some []
  deriving DecidableEq

/-- SRC: InvestigationBundle.cs:45-53 -/
structure ReplaySummary where
  verified : Bool := false
  finalTick : Option NetString := some [48]
  finalWorldFingerprint : Option NetString := some [48]
  acceptedCommands : Int32 := 0
  rejectedCommands : Int32 := 0
  deriving DecidableEq

/-- SRC: InvestigationBundle.cs:5-16 -/
structure InvestigationBundle where
  schemaVersion : Int32 := 0
  archiveDigest : Option NetString := some []
  initialHeadDigest : Option NetString := some []
  trustedHeadDigest : Option NetString := some []
  importedAtUtc : Option NetString := some []
  sessions : Option (List (Option InvestigationSession)) := some []
  evidence : Option (List (Option InvestigationEvidenceRecord)) := some []
  replay : Option ReplaySummary := some {}
  deriving DecidableEq

/-! ## The validator -/

/-- SRC: BundleValidation.cs:5-17 -/
structure BundleValidationIssue where
  code : String
  path : String
  message : String
  deriving DecidableEq

/-- The issues a validation found; it is valid when there is none.
SRC: BundleValidation.cs:19-32 -/
abbrev BundleValidationResult := List BundleValidationIssue

/-- SRC: InvestigationBundleValidator.cs:9 -/
def supportedSchemaVersion : Int32 := 1

/-- Add an issue under a condition. -/
def issueIf (condition : Bool) (code path message : String) : BundleValidationResult :=
  if condition then [⟨code, path, message⟩] else []

/-- SRC: InvestigationBundleValidator.cs:319-335 -/
def validateTimestamp (parser : TimestampParser) (value : Option NetString) :
    BundleValidationResult :=
  issueIf (!(value.any parser)) "timestamp_invalid" "$.importedAtUtc"
    "The import timestamp is not valid ISO-8601."

/-- SRC: InvestigationBundleValidator.cs:337-354 -/
def validateUInt64 (value : Option NetString) (path : String) : BundleValidationResult :=
  issueIf (isNullOrEmpty value || (tryParseUnsigned value).isNone) "uint64_invalid" path
    "The value must be an unsigned 64-bit decimal string."

/-- A lowercase hexadecimal digit.
SRC: InvestigationBundleValidator.cs:372-373 -/
def isLowerHexDigit (c : UInt16) : Bool := (48 ≤ c && c ≤ 57) || (97 ≤ c && c ≤ 102)

/-- SRC: InvestigationBundleValidator.cs:356-384 -/
def validateDigest (value : Option NetString) (path : String) : BundleValidationResult :=
  issueIf (match value with
    | none => true
    | some text => text.length ≠ 64 || !text.all isLowerHexDigit) "digest_invalid" path
    "A SHA-256 digest must contain 64 lowercase hex characters."

/-- SRC: InvestigationBundleValidator.cs:386-398 -/
def requireText (value : Option NetString) (path : String) : BundleValidationResult :=
  issueIf (isNullOrWhiteSpace value) "text_missing" path "The value cannot be empty."

/-- The text that identifies a session: two identifiers and a line break between them.
SRC: InvestigationBundleValidator.cs:130, 157, 218 -/
def identity (clientId sessionId : Option NetString) : NetString :=
  concatenated clientId ++ [10] ++ concatenated sessionId

/-- The checks of one session, but for the duplicate.
SRC: InvestigationBundleValidator.cs:89-128 -/
def validateSession (session : InvestigationSession) (path : String) : BundleValidationResult :=
  requireText session.clientId (path ++ ".clientId") ++
    requireText session.sessionId (path ++ ".sessionId") ++
    validateUInt64 session.lastCommittedSequence (path ++ ".lastCommittedSequence") ++
    validateUInt64 session.firstTargetTick (path ++ ".firstTargetTick") ++
    validateUInt64 session.lastTargetTick (path ++ ".lastTargetTick") ++
    issueIf (session.acceptedCommands < 0) "count_negative" (path ++ ".acceptedCommands")
      "Accepted-command count cannot be negative." ++
    issueIf (session.rejectedCommands < 0) "count_negative" (path ++ ".rejectedCommands")
      "Rejected-command count cannot be negative."

/-- The loop over the sessions, with the identities seen so far.
SRC: InvestigationBundleValidator.cs:69-140 -/
def validateSessionsFrom :
    ℕ → List NetString → List (Option InvestigationSession) → BundleValidationResult
  | _, _, [] => []
  | index, identities, none :: rest =>
    ⟨"session_missing", "$.sessions[" ++ toString index ++ "]", "The session entry is null."⟩ ::
      validateSessionsFrom (index + 1) identities rest
  | index, identities, some session :: rest =>
    let path := "$.sessions[" ++ toString index ++ "]"
    let id := identity session.clientId session.sessionId
    validateSession session path ++
      issueIf (identities.contains id) "session_duplicate" path
        "The client and session identity is duplicated." ++
      validateSessionsFrom (index + 1) (id :: identities) rest

/-- SRC: InvestigationBundleValidator.cs:69-140 -/
def validateSessions (sessions : List (Option InvestigationSession)) : BundleValidationResult :=
  validateSessionsFrom 0 [] sessions

/-- SRC: InvestigationBundleValidator.cs:149-159 -/
def sessionIdentities (sessions : List (Option InvestigationSession)) : List NetString :=
  sessions.filterMap fun session => session.map fun s => identity s.clientId s.sessionId

/-- The checks of one evidence record, but for its place in the chain.
SRC: InvestigationBundleValidator.cs:177-226 -/
def validateRecord (identities : List NetString) (index : ℕ)
    (record : InvestigationEvidenceRecord) (path : String) : BundleValidationResult :=
  issueIf (record.ordinal.toInt ≠ index) "evidence_ordinal_invalid" (path ++ ".ordinal")
      "Evidence ordinals must be contiguous and zero-based." ++
    requireText record.clientId (path ++ ".clientId") ++
    requireText record.sessionId (path ++ ".sessionId") ++
    requireText record.commandType (path ++ ".commandType") ++
    validateUInt64 record.sessionSequence (path ++ ".sessionSequence") ++
    validateUInt64 record.targetTick (path ++ ".targetTick") ++
    validateDigest record.previousDigest (path ++ ".previousDigest") ++
    validateDigest record.recordDigest (path ++ ".recordDigest") ++
    issueIf (record.outcome ≠ some (net "accepted") && record.outcome ≠ some (net "rejected"))
      "evidence_outcome_invalid" (path ++ ".outcome")
      "Evidence outcome must be accepted or rejected." ++
    issueIf (!identities.contains (identity record.clientId record.sessionId))
      "evidence_session_unknown" path "Evidence references an unknown session."

/-- The loop over the evidence, with the digest the next record must continue.
SRC: InvestigationBundleValidator.cs:161-240 -/
def validateEvidenceFrom (identities : List NetString) :
    ℕ → Option NetString → List (Option InvestigationEvidenceRecord) → BundleValidationResult
  | _, _, [] => []
  | index, expectedPrevious, none :: rest =>
    ⟨"evidence_missing", "$.evidence[" ++ toString index ++ "]", "The evidence entry is null."⟩ ::
      validateEvidenceFrom identities (index + 1) expectedPrevious rest
  | index, expectedPrevious, some record :: rest =>
    let path := "$.evidence[" ++ toString index ++ "]"
    validateRecord identities index record path ++
      issueIf (record.previousDigest ≠ expectedPrevious) "evidence_chain_broken"
        (path ++ ".previousDigest") "The previous digest does not match the chain head." ++
      validateEvidenceFrom identities (index + 1) record.recordDigest rest

/-- The head that the evidence ends in.
SRC: InvestigationBundleValidator.cs:242-244 -/
def expectedHead (evidence : List (Option InvestigationEvidenceRecord))
    (initialHeadDigest : Option NetString) : Option NetString :=
  match evidence.getLast? with
  | none => initialHeadDigest
  | some record => record.bind (·.recordDigest)

/-- SRC: InvestigationBundleValidator.cs:142-256 -/
def validateEvidence (evidence : List (Option InvestigationEvidenceRecord))
    (sessions : List (Option InvestigationSession))
    (initialHeadDigest trustedHeadDigest : Option NetString) : BundleValidationResult :=
  validateEvidenceFrom (sessionIdentities sessions) 0 initialHeadDigest evidence ++
    issueIf (trustedHeadDigest ≠ expectedHead evidence initialHeadDigest) "trusted_head_mismatch"
      "$.trustedHeadDigest" "The trusted head does not match the final evidence record."

/-- The number of records with an outcome.
SRC: InvestigationBundleValidator.cs:282-300 -/
def countOutcome (outcome : NetString) (evidence : List (Option InvestigationEvidenceRecord)) :
    ℕ :=
  evidence.countP fun record => record.any fun r => r.outcome = some outcome

/-- SRC: InvestigationBundleValidator.cs:258-317 -/
def validateReplay (replay : Option ReplaySummary)
    (evidence : List (Option InvestigationEvidenceRecord)) : BundleValidationResult :=
  match replay with
  | none => [⟨"replay_missing", "$.replay", "Replay summary is missing."⟩]
  | some replay =>
    validateUInt64 replay.finalTick "$.replay.finalTick" ++
      validateUInt64 replay.finalWorldFingerprint "$.replay.finalWorldFingerprint" ++
      issueIf (replay.acceptedCommands.toInt ≠ countOutcome (net "accepted") evidence)
        "replay_accepted_count_mismatch" "$.replay.acceptedCommands"
        "Replay accepted-command count does not match evidence." ++
      issueIf (replay.rejectedCommands.toInt ≠ countOutcome (net "rejected") evidence)
        "replay_rejected_count_mismatch" "$.replay.rejectedCommands"
        "Replay rejected-command count does not match evidence."

namespace InvestigationBundle

/-- SRC: InvestigationBundleValidator.cs:50-51 -/
def sessionArray (bundle : InvestigationBundle) : List (Option InvestigationSession) :=
  bundle.sessions.getD []

/-- SRC: InvestigationBundleValidator.cs:53-54 -/
def evidenceArray (bundle : InvestigationBundle) : List (Option InvestigationEvidenceRecord) :=
  bundle.evidence.getD []

end InvestigationBundle

/-- SRC: InvestigationBundleValidator.cs:11-67 -/
def validate (parser : TimestampParser) : Option InvestigationBundle → BundleValidationResult
  | none => [⟨"bundle_missing", "$", "The investigation bundle is missing."⟩]
  | some bundle =>
    issueIf (bundle.schemaVersion ≠ supportedSchemaVersion) "schema_unsupported"
        "$.schemaVersion" "The bundle schema version is not supported." ++
      validateDigest bundle.archiveDigest "$.archiveDigest" ++
      validateDigest bundle.initialHeadDigest "$.initialHeadDigest" ++
      validateDigest bundle.trustedHeadDigest "$.trustedHeadDigest" ++
      validateTimestamp parser bundle.importedAtUtc ++
      validateSessions bundle.sessionArray ++
      validateEvidence bundle.evidenceArray bundle.sessionArray bundle.initialHeadDigest
        bundle.trustedHeadDigest ++
      validateReplay bundle.replay bundle.evidenceArray

end Tickline.Model.Forensics
