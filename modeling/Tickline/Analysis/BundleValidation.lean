import Tickline.Model.ForensicsWorkspace
import Tickline.Model.Prelude

/-!
# What a bundle without issues satisfies

`validate` returns no issue exactly when every check passes; here the checks are read off as
facts about the bundle (`ValidBundle`).  Sessions and records are not null, their numbers
parse, every record names a session of the bundle, and the digests of the records form a
chain from the initial head to the trusted head.

Nothing is said about the identifiers of sessions beyond their texts: the validator compares
them as text and never parses them.
-/

set_option autoImplicit false

namespace Tickline.Analysis

open Tickline.Model.Forensics

/-- INTERNAL: a check that found nothing. -/
theorem issueIf_eq_nil {condition : Bool} {code path message : String} :
    issueIf condition code path message = [] ↔ condition = false := by
  cases condition <;> simp [issueIf]

/-! ## Texts -/

/-- INTERNAL: what `TryParse` accepts, `Parse` parses. -/
theorem parseUnsigned_of_valid {value : Option NetString} {path : String}
    (h : validateUInt64 value path = []) : ∃ n, parseUnsigned value = .ok n := by
  unfold validateUInt64 at h
  rw [issueIf_eq_nil, Bool.or_eq_false_iff] at h
  obtain ⟨-, hparse⟩ := h
  cases value with
  | none => simp [tryParseUnsigned] at hparse
  | some text =>
    simp only [tryParseUnsigned, parseUnsigned] at hparse ⊢
    cases hdigits : parseDigits text with
    | ok n => exact ⟨n, rfl⟩
    | error exception =>
      rw [hdigits] at hparse
      cases hparse

/-- INTERNAL: a text that is required is not null. -/
theorem some_of_requireText {value : Option NetString} {path : String}
    (h : requireText value path = []) : ∃ text, value = some text := by
  unfold requireText at h
  rw [issueIf_eq_nil] at h
  cases value with
  | none => cases h
  | some text => exact ⟨text, rfl⟩

/-! ## Sessions -/

/-- What the validator knows of a session. -/
structure ValidSession (session : InvestigationSession) : Prop where
  clientId : ∃ text, session.clientId = some text
  sessionId : ∃ text, session.sessionId = some text
  lastCommittedSequence : ∃ n, parseUnsigned session.lastCommittedSequence = .ok n
  firstTargetTick : ∃ n, parseUnsigned session.firstTargetTick = .ok n
  lastTargetTick : ∃ n, parseUnsigned session.lastTargetTick = .ok n

/-- INTERNAL: the checks of one session. -/
theorem validSession_of_nil {session : InvestigationSession} {path : String}
    (h : validateSession session path = []) : ValidSession session := by
  unfold validateSession at h
  simp only [List.append_eq_nil_iff] at h
  obtain ⟨⟨⟨⟨⟨⟨hclient, hsession⟩, hlast⟩, hfirst⟩, hlastTick⟩, -⟩, -⟩ := h
  exact ⟨some_of_requireText hclient, some_of_requireText hsession,
    parseUnsigned_of_valid hlast, parseUnsigned_of_valid hfirst,
    parseUnsigned_of_valid hlastTick⟩

/-- INTERNAL: the checks of all sessions. -/
theorem validSessions_of_nil {sessions : List (Option InvestigationSession)} :
    ∀ {index : ℕ} {identities : List NetString},
      validateSessionsFrom index identities sessions = [] →
      ∀ entry ∈ sessions, ∃ session, entry = some session ∧ ValidSession session := by
  induction sessions with
  | nil => simp
  | cons entry sessions ih =>
    intro index identities h
    cases entry with
    | none => cases h
    | some session =>
      simp only [validateSessionsFrom, List.append_eq_nil_iff] at h
      obtain ⟨⟨hsession, -⟩, hrest⟩ := h
      intro other hmem
      rcases List.mem_cons.mp hmem with rfl | hmem
      · exact ⟨session, rfl, validSession_of_nil hsession⟩
      · exact ih hrest other hmem

/-! ## Evidence -/

/-- What the validator knows of an evidence record. -/
structure ValidRecord (identities : List NetString) (index : ℕ)
    (record : InvestigationEvidenceRecord) : Prop where
  ordinal : record.ordinal.toInt = index
  clientId : ∃ text, record.clientId = some text
  sessionId : ∃ text, record.sessionId = some text
  sessionSequence : ∃ n, parseUnsigned record.sessionSequence = .ok n
  targetTick : ∃ n, parseUnsigned record.targetTick = .ok n
  known : identity record.clientId record.sessionId ∈ identities

/-- INTERNAL: the checks of one record. -/
theorem validRecord_of_nil {identities : List NetString} {index : ℕ}
    {record : InvestigationEvidenceRecord} {path : String}
    (h : validateRecord identities index record path = []) :
    ValidRecord identities index record := by
  unfold validateRecord at h
  simp only [List.append_eq_nil_iff] at h
  obtain ⟨⟨⟨⟨⟨⟨⟨⟨⟨hordinal, hclient⟩, hsession⟩, -⟩, hsequence⟩, htick⟩, -⟩, -⟩, -⟩, hknown⟩ := h
  rw [issueIf_eq_nil] at hordinal hknown
  exact ⟨by simpa using hordinal, some_of_requireText hclient, some_of_requireText hsession,
    parseUnsigned_of_valid hsequence, parseUnsigned_of_valid htick, by simpa using hknown⟩

/-- The records, each with what is known of it, continue the digest chain from a head. -/
inductive ValidChain (identities : List NetString) :
    ℕ → Option NetString → List (Option InvestigationEvidenceRecord) → Prop
  | nil {index : ℕ} {head : Option NetString} : ValidChain identities index head []
  | cons {index : ℕ} {record : InvestigationEvidenceRecord}
      {rest : List (Option InvestigationEvidenceRecord)}
      (hrecord : ValidRecord identities index record)
      (hrest : ValidChain identities (index + 1) record.recordDigest rest) :
      ValidChain identities index record.previousDigest (some record :: rest)

/-- INTERNAL: the checks of all records. -/
theorem validChain_of_nil {identities : List NetString}
    {evidence : List (Option InvestigationEvidenceRecord)} :
    ∀ {index : ℕ} {head : Option NetString},
      validateEvidenceFrom identities index head evidence = [] →
      ValidChain identities index head evidence := by
  induction evidence with
  | nil =>
    intro index head _
    exact ValidChain.nil
  | cons entry evidence ih =>
    intro index head h
    cases entry with
    | none => cases h
    | some record =>
      simp only [validateEvidenceFrom, List.append_eq_nil_iff, issueIf_eq_nil] at h
      obtain ⟨⟨hrecord, hhead⟩, hrest⟩ := h
      obtain rfl : record.previousDigest = head := by simpa using hhead
      exact ValidChain.cons (validRecord_of_nil hrecord) (ih hrest)

/-! ## Bundles -/

/-- What the validator knows of a bundle it found no issue in. -/
structure ValidBundle (bundle : InvestigationBundle) : Prop where
  sessions : ∀ entry ∈ bundle.sessionArray, ∃ session, entry = some session ∧ ValidSession session
  chain : ValidChain (sessionIdentities bundle.sessionArray) 0 bundle.initialHeadDigest
    bundle.evidenceArray
  trustedHead : bundle.trustedHeadDigest = expectedHead bundle.evidenceArray
    bundle.initialHeadDigest

/-- **A bundle without issues satisfies what the checks check.**
SRC: InvestigationBundleValidator.cs:11-67 -/
theorem validBundle_of_nil {parser : TimestampParser} {bundle : InvestigationBundle}
    (h : validate parser (some bundle) = []) : ValidBundle bundle := by
  unfold validate at h
  simp only [List.append_eq_nil_iff] at h
  obtain ⟨⟨⟨-, hsessions⟩, hevidence⟩, -⟩ := h
  unfold validateEvidence at hevidence
  rw [List.append_eq_nil_iff, issueIf_eq_nil] at hevidence
  exact ⟨validSessions_of_nil hsessions, validChain_of_nil hevidence.1,
    by simpa using hevidence.2⟩

end Tickline.Analysis
