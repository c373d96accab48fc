import Tickline.Model.ForensicsBundle

/-!
# Bundles from JSON

`JsonUtility.FromJson<InvestigationBundle>`, of a text that has been decoded.  Each field takes
the value of the member that has its name, and keeps its default where there is none.  A member
of another kind than its field, or a number outside the range of an `int`, is left open
(`none`): the exporter writes no such member.
-/

set_option autoImplicit false

namespace Tickline.Model.Forensics

open Tickline.Library

/-- A field, from the member that has its name. -/
def fieldFromJson {α : Type} (read : Json → Option α) (default : α) (name : String)
    (object : Json) : Option α :=
  match object.member? name with
  | none => some default
  | some value => read value

/-- A `string` field. -/
def stringFromJson : Json → Option (Option NetString)
  | .string text => some (some text)
  | _ => none

/-- An `int` field. -/
def intFromJson : Json → Option Int32
  | .number literal => do
    let value ← Json.integer? literal
    if -2 ^ 31 ≤ value ∧ value < 2 ^ 31 then some (Int32.ofInt value) else none
  | _ => none

/-- A `bool` field. -/
def boolFromJson : Json → Option Bool
  | .boolean value => some value
  | _ => none

/-- An array of objects. -/
def arrayFromJson {α : Type} (read : Json → Option α) : Json → Option (Option (List (Option α)))
  | .array items => return some ((← items.mapM read).map some)
  | _ => none

/-- SRC: InvestigationBundle.cs:18-28 -/
def InvestigationSession.fromJson (object : Json) : Option InvestigationSession := do
  return {
    clientId := ← fieldFromJson stringFromJson (some []) "clientId" object
    sessionId := ← fieldFromJson stringFromJson (some []) "sessionId" object
    lastCommittedSequence :=
      ← fieldFromJson stringFromJson (some [48]) "lastCommittedSequence" object
    firstTargetTick := ← fieldFromJson stringFromJson (some [48]) "firstTargetTick" object
    lastTargetTick := ← fieldFromJson stringFromJson (some [48]) "lastTargetTick" object
    acceptedCommands := ← fieldFromJson intFromJson 0 "acceptedCommands" object
    rejectedCommands := ← fieldFromJson intFromJson 0 "rejectedCommands" object }

/-- SRC: InvestigationBundle.cs:30-43 -/
def InvestigationEvidenceRecord.fromJson (object : Json) : Option InvestigationEvidenceRecord := do
  return {
    ordinal := ← fieldFromJson intFromJson 0 "ordinal" object
    clientId := ← fieldFromJson stringFromJson (some []) "clientId" object
    sessionId := ← fieldFromJson stringFromJson (some []) "sessionId" object
    sessionSequence := ← fieldFromJson stringFromJson (some [48]) "sessionSequence" object
    targetTick := ← fieldFromJson stringFromJson (some [48]) "targetTick" object
    commandType := ← fieldFromJson stringFromJson (some []) "commandType" object
    outcome := ← fieldFromJson stringFromJson (some []) "outcome" object
    rejectionCode := ← fieldFromJson stringFromJson (some []) "rejectionCode" object
    previousDigest := ← fieldFromJson stringFromJson (some []) "previousDigest" object
    recordDigest := ← fieldFromJson stringFromJson (some []) "recordDigest" object }

/-- SRC: InvestigationBundle.cs:45-53 -/
def ReplaySummary.fromJson (object : Json) : Option ReplaySummary := do
  return {
    verified := ← fieldFromJson boolFromJson false "verified" object
    finalTick := ← fieldFromJson stringFromJson (some [48]) "finalTick" object
    finalWorldFingerprint :=
      ← fieldFromJson stringFromJson (some [48]) "finalWorldFingerprint" object
    acceptedCommands := ← fieldFromJson intFromJson 0 "acceptedCommands" object
    rejectedCommands := ← fieldFromJson intFromJson 0 "rejectedCommands" object }

/-- SRC: InvestigationBundle.cs:5-16, InvestigationBundleLoader.cs:53 -/
def InvestigationBundle.fromJson (object : Json) : Option InvestigationBundle := do
  return {
    schemaVersion := ← fieldFromJson intFromJson 0 "schemaVersion" object
    archiveDigest := ← fieldFromJson stringFromJson (some []) "archiveDigest" object
    initialHeadDigest := ← fieldFromJson stringFromJson (some []) "initialHeadDigest" object
    trustedHeadDigest := ← fieldFromJson stringFromJson (some []) "trustedHeadDigest" object
    importedAtUtc := ← fieldFromJson stringFromJson (some []) "importedAtUtc" object
    sessions := ← fieldFromJson (arrayFromJson InvestigationSession.fromJson) (some [])
      "sessions" object
    evidence := ← fieldFromJson (arrayFromJson InvestigationEvidenceRecord.fromJson) (some [])
      "evidence" object
    replay := ← fieldFromJson (fun value => return some (← ReplaySummary.fromJson value)) (some {})
      "replay" object }

end Tickline.Model.Forensics
