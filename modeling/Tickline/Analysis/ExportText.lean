import Tickline.Library.Json
import Tickline.Model.BundleExporter

/-!
# The text of an export

The text that the exporter writes is JSON, and decodes to the value that shows what was written
(`decode_bundleText`), also for a decoder that wants the names in an object to be different.
A line of the text is a `Field`: what it writes, with what that is read as.
-/

set_option autoImplicit false

namespace Tickline.Analysis

open Tickline.Library Tickline.Library.Json Tickline.Model Tickline.Model.Storage
open Tickline.Model.Storage.InvestigationStore

/-! ## Strings -/

/-- INTERNAL: a character is read back. -/
theorem jsonCharacter_reads (c : Char) : Reads (jsonCharacter c) (utf16 c) := by
  have hhex : ∀ n < 16, hexValue? (Nat.digitChar n) = some n := by decide
  unfold jsonCharacter
  split_ifs with hquote hslash hback hfeed hline hreturn htab hcontrol
  · subst hquote
    exact Reads.escape (by decide) (by decide)
  · subst hslash
    exact Reads.escape (by decide) (by decide)
  · subst hback
    exact Reads.escape (by decide) (by decide)
  · subst hfeed
    exact Reads.escape (by decide) (by decide)
  · subst hline
    exact Reads.escape (by decide) (by decide)
  · subst hreturn
    exact Reads.escape (by decide) (by decide)
  · subst htab
    exact Reads.escape (by decide) (by decide)
  · have hunit : utf16 c =
        [UInt16.ofNat (((0 * 16 + 0) * 16 + c.toNat / 16) * 16 + c.toNat % 16)] := by
      unfold utf16
      rw [if_pos (by omega)]
      congr 2
      omega
    rw [hunit]
    exact Reads.unicode (by decide) (by decide) (hhex _ (by omega)) (hhex _ (by omega))
  · exact Reads.plain hquote hslash hcontrol

/-- INTERNAL: a string is read back. -/
theorem jsonString_lexes (value : List Char) :
    Lexes (jsonString value) [.string (units value)] := by
  apply Spells.string
  induction value with
  | nil => exact Reads.nil
  | cons c value ih => exact (jsonCharacter_reads c).append ih

/-! ## Digests -/

/-- INTERNAL: the two digits of a byte. -/
theorem byte_digits (value : UInt8) :
    (value >>> 4).toNat = value.toNat / 16 ∧ (value &&& 0x0f).toNat = value.toNat % 16 := by
  constructor
  · rw [UInt8.toNat_shiftRight, Nat.shiftRight_eq_div_pow]
    rfl
  · rw [UInt8.toNat_and]
    exact Nat.and_two_pow_sub_one_eq_mod _ 4

/-- INTERNAL: the characters of a digest. -/
theorem toHex_digits {digest : Sha256Digest} {c : Char} (h : c ∈ digest.toHex) :
    ∃ n < 16, c = Nat.digitChar n := by
  obtain ⟨value, -, hc⟩ := List.mem_flatMap.mp h
  obtain ⟨hhigh, hlow⟩ := byte_digits value
  have hvalue := value.toNat_lt
  rcases List.mem_cons.mp hc with rfl | hc
  · exact ⟨_, by rw [hhigh]; omega, rfl⟩
  · exact ⟨_, by rw [hlow]; omega, List.mem_singleton.mp hc⟩

/-- INTERNAL: the code units of a digest are its characters. -/
theorem units_toHex (digest : Sha256Digest) :
    units digest.toHex = digest.toHex.map fun c => UInt16.ofNat c.toNat := by
  have hsmall : ∀ n < 16, (Nat.digitChar n).toNat < 0x10000 := by decide
  refine units_of_small fun c hc => ?_
  obtain ⟨n, hn, rfl⟩ := toHex_digits hc
  exact hsmall n hn

/-- INTERNAL: they are the code units of lowercase hexadecimal digits. -/
theorem mem_units_toHex {digest : Sha256Digest} {unit : UInt16} (h : unit ∈ units digest.toHex) :
    unit ∈ ([48, 49, 50, 51, 52, 53, 54, 55, 56, 57, 97, 98, 99, 100, 101, 102] : List UInt16) := by
  have hall : ∀ n < 16, UInt16.ofNat (Nat.digitChar n).toNat ∈
      ([48, 49, 50, 51, 52, 53, 54, 55, 56, 57, 97, 98, 99, 100, 101, 102] : List UInt16) := by
    decide
  rw [units_toHex, List.mem_map] at h
  obtain ⟨c, hc, rfl⟩ := h
  obtain ⟨n, hn, rfl⟩ := toHex_digits hc
  exact hall n hn

/-- INTERNAL: there are 64 of them. -/
theorem length_units_toHex (digest : Sha256Digest) : (units digest.toHex).length = 64 := by
  rw [units_toHex, List.length_map, Sha256Digest.toHex, List.length_flatMap]
  simp

/-- INTERNAL: lists of pairs, one behind the other, tell the pairs apart. -/
theorem flatMap_pair_injective {α β : Type} {f g : α → β}
    (h : ∀ a b, f a = f b → g a = g b → a = b) {as bs : List α}
    (heq : as.flatMap (fun a => [f a, g a]) = bs.flatMap fun b => [f b, g b]) : as = bs := by
  induction as generalizing bs with
  | nil =>
    cases bs with
    | nil => rfl
    | cons b bs => cases heq
  | cons a as ih =>
    cases bs with
    | nil => cases heq
    | cons b bs =>
      simp only [List.flatMap_cons, List.cons_append, List.nil_append, List.cons.injEq] at heq
      obtain ⟨hf, hg, hrest⟩ := heq
      rw [h a b hf hg, ih hrest]

/-- **Digests have different texts.** -/
theorem units_toHex_injective {a b : Sha256Digest} (h : units a.toHex = units b.toHex) : a = b := by
  have hdigit : ∀ m < 16, ∀ n < 16, UInt16.ofNat (Nat.digitChar m).toNat =
      UInt16.ofNat (Nat.digitChar n).toNat → m = n := by
    decide
  have hbyte : ∀ v w : UInt8, UInt16.ofNat (Nat.digitChar (v >>> 4).toNat).toNat =
      UInt16.ofNat (Nat.digitChar (w >>> 4).toNat).toNat →
      UInt16.ofNat (Nat.digitChar (v &&& 0x0f).toNat).toNat =
      UInt16.ofNat (Nat.digitChar (w &&& 0x0f).toNat).toNat → v = w := by
    intro v w hhigh hlow
    have hv := v.toNat_lt
    have hw := w.toNat_lt
    rw [(byte_digits v).1, (byte_digits w).1] at hhigh
    rw [(byte_digits v).2, (byte_digits w).2] at hlow
    have hquotients := hdigit _ (by omega) _ (by omega) hhigh
    have hremainders := hdigit _ (by omega) _ (by omega) hlow
    exact UInt8.toNat_inj.mp (by omega)
  rw [units_toHex, units_toHex, Sha256Digest.toHex, Sha256Digest.toHex, List.map_flatMap,
    List.map_flatMap] at h
  have hbytes := flatMap_pair_injective hbyte h
  obtain ⟨a⟩ := a
  obtain ⟨b⟩ := b
  rw [Sha256Digest.mk.injEq]
  exact Vector.toList_inj.mp hbytes

/-! ## Fields -/

/-- A line of an object, with the token that its value is read as and what that stands for. -/
structure Field where
  name : String
  text : List Char
  token : Token
  json : Json
  spells : Spells text token
  parses : ∀ accept, Parses accept [token] json

namespace Field

/-- A string field. -/
def string (name : String) (value : List Char) : Field where
  name := name
  text := jsonString value
  token := .string (units value)
  json := .string (units value)
  spells := Spells.of_lexes (jsonString_lexes value)
  parses _ := Parses.string _

/-- A number field. -/
def number (name : String) (value : ℕ) : Field where
  name := name
  text := decimal value
  token := .number (decimal value)
  json := .number (decimal value)
  spells := Spells.digits value
  parses _ := Parses.number _

/-- A field that is true or false. -/
def boolean (name : String) (value : Bool) : Field where
  name := name
  text := (if value then "true" else "false").toList
  token := .boolean value
  json := .boolean value
  spells := by
    cases value with
    | true => exact Spells.bare (by decide) (List.all_iff_forall_prop.mp (by decide)) (by decide)
    | false => exact Spells.bare (by decide) (List.all_iff_forall_prop.mp (by decide)) (by decide)
  parses _ := Parses.boolean _

/-- The lines of some fields, with commas between them. -/
def lines (indent : ℕ) : List Field → List Char
  | [] => []
  | field :: rest => rawField indent field.name field.text (!rest.isEmpty) ++ lines indent rest

/-- The tokens of these lines. -/
def tokens : List Field → List Token
  | [] => []
  | field :: rest =>
    [.string (units field.name.toList), .colon, field.token] ++
      (if rest.isEmpty then [] else [.comma]) ++ tokens rest

/-- The members that they stand for. -/
def members (fields : List Field) : List (List UInt16 × Json) :=
  fields.map fun field => (units field.name.toList, field.json)

/-- INTERNAL: the end of a line. -/
theorem lineEnd_lexes (comma : Bool) : Lexes (lineEnd comma) (if comma then [.comma] else []) := by
  cases comma <;> exact Lexes.of_start (by decide)

/-- INTERNAL: one line. -/
theorem rawField_lexes (field : Field) (indent : ℕ) (comma : Bool) :
    Lexes (rawField indent field.name field.text comma)
      ([.string (units field.name.toList), .colon, field.token] ++
        if comma then [.comma] else []) := by
  have hvalue : Lexes (field.text ++ lineEnd comma)
      (field.token :: if comma then [.comma] else []) := by
    cases comma with
    | true => exact field.spells ',' _ _ (by decide) (lineEnd_lexes true)
    | false => exact field.spells '\n' _ _ (by decide) (lineEnd_lexes false)
  have hcolon : Lexes [':', ' '] [.colon] := Lexes.of_start (by decide)
  have hline := (((Lexes.spaces indent).append (jsonString_lexes field.name.toList)).append
    hcolon).append hvalue
  unfold rawField indentation
  rw [List.append_assoc]
  exact hline

/-- INTERNAL: the lines are read as their tokens. -/
theorem lines_lexes (indent : ℕ) (fields : List Field) :
    Lexes (lines indent fields) (tokens fields) := by
  induction fields with
  | nil => exact Lexes.nil
  | cons field rest ih =>
    have hline := rawField_lexes field indent (!rest.isEmpty)
    have hcomma : (if (!rest.isEmpty) = true then [Token.comma] else []) =
        if rest.isEmpty = true then [] else [Token.comma] := by
      cases rest <;> rfl
    rw [hcomma] at hline
    exact hline.append ih

/-- INTERNAL: the tokens stand for the members. -/
theorem tokens_parse (accept : List (List UInt16 × Json) → Bool) (fields : List Field)
    (h : fields ≠ []) : ParsesMembers accept (tokens fields) (members fields) := by
  induction fields with
  | nil => exact absurd rfl h
  | cons field rest ih =>
    have hone := ParsesMembers.one (units field.name.toList) (field.parses accept)
    cases rest with
    | nil => exact hone
    | cons next rest =>
      have hmore := hone.append (ih (List.cons_ne_nil _ _))
      exact hmore

end Field

/-! ## Elements -/

/-- The tokens of the elements of an array. -/
def elementTokens : List (List Token) → List Token
  | [] => []
  | element :: rest =>
    [.openObject] ++ element ++ [.closeObject] ++ (if rest.isEmpty then [] else [.comma]) ++
      elementTokens rest

/-- INTERNAL: elements are read as their tokens. -/
theorem elementLines_lexes {texts : List (List Char)} {elements : List (List Token)}
    (h : List.Forall₂ Lexes texts elements) :
    Lexes (elementLines texts) (elementTokens elements) := by
  induction h with
  | nil => exact Lexes.nil
  | @cons text element texts elements hone hrest ih =>
    have hopen : Lexes "    \x7b\n".toList [.openObject] := Lexes.of_start (by decide)
    have hclose : Lexes "    \x7d".toList [.closeObject] := Lexes.of_start (by decide)
    have hend := Field.lineEnd_lexes (!texts.isEmpty)
    have hcomma : (if (!texts.isEmpty) = true then [Token.comma] else []) =
        if elements.isEmpty = true then [] else [Token.comma] := by
      cases hrest <;> rfl
    rw [hcomma] at hend
    exact (((hopen.append hone).append hclose).append hend).append ih

/-- The JSON object of some fields. -/
def objectOf (fields : List Field) : Json := .object (Field.members fields)

/-- The names of some fields are different. -/
def NamesDiffer (fields : List Field) : Prop :=
  (fields.map fun field => units field.name.toList).Nodup

/-- The decoder lets through every object whose names are different. -/
def Accepting (accept : List (List UInt16 × Json) → Bool) : Prop :=
  ∀ members : List (List UInt16 × Json), (members.map Prod.fst).Nodup → accept members = true

/-- INTERNAL: a field is found under its name. -/
theorem member?_objectOf {fields : List Field} (hnames : NamesDiffer fields) (field : Field)
    (h : field ∈ fields) : (objectOf fields).member? field.name = some field.json := by
  refine member?_of_mem ?_ (List.mem_map.mpr ⟨field, h, rfl⟩)
  rw [Field.members, List.map_map]
  exact hnames

section

variable {accept : List (List UInt16 × Json) → Bool}

/-- INTERNAL: an object of fields. -/
theorem object_parses (haccept : Accepting accept) (fields : List Field) (h : fields ≠ [])
    (hnames : NamesDiffer fields) :
    Parses accept ([.openObject] ++ Field.tokens fields ++ [.closeObject]) (objectOf fields) := by
  refine Parses.object (Field.tokens_parse accept fields h) (haccept _ ?_)
  rw [Field.members, List.map_map]
  exact hnames

/-- INTERNAL: an array of objects of fields. -/
theorem elements_parse (haccept : Accepting accept) (elements : List (List Field))
    (h : ∀ fields ∈ elements, fields ≠ [] ∧ NamesDiffer fields) :
    Parses accept ([.openArray] ++ elementTokens (elements.map Field.tokens) ++ [.closeArray])
      (.array (elements.map objectOf)) := by
  have hitems : ∀ elements : List (List Field), elements ≠ [] →
      (∀ fields ∈ elements, fields ≠ [] ∧ NamesDiffer fields) →
      ParsesItems accept (elementTokens (elements.map Field.tokens)) (elements.map objectOf) := by
    intro elements hnonempty hall
    induction elements with
    | nil => exact absurd rfl hnonempty
    | cons fields rest ih =>
      obtain ⟨hfields, hnames⟩ := hall fields (List.mem_cons_self ..)
      have hone := ParsesItems.one (object_parses haccept _ hfields hnames)
      cases rest with
      | nil =>
        rw [List.map_cons, List.map_nil, elementTokens, elementTokens]
        simpa using hone
      | cons next rest =>
        have hrest := ih (List.cons_ne_nil _ _)
          fun other hother => hall other (List.mem_cons_of_mem _ hother)
        have hmore := hone.append hrest
        rw [List.map_cons, elementTokens]
        simpa using hmore
  rcases eq_or_ne elements [] with rfl | hnonempty
  · exact Parses.emptyArray
  · exact Parses.array (hitems elements hnonempty h)

end

/-! ## The bundle -/

/-- The fields of a session. -/
def sessionFields (session : EvidenceSessionSummary) (projection : SessionProjection) :
    List Field := [
  .string "clientId" (decimal session.clientId.value.toNat),
  .string "sessionId" (decimal session.sessionId.value.toNat),
  .string "lastCommittedSequence" (decimal projection.lastCommittedSequence.toNat),
  .string "firstTargetTick" (decimal projection.firstTargetTick.toNat),
  .string "lastTargetTick" (decimal projection.lastTargetTick.toNat),
  .number "acceptedCommands" session.acceptedCount,
  .number "rejectedCommands" session.rejectedCount]

/-- The fields of a record. -/
def recordFields (stored : StoredEvidenceRecord) : List Field := [
  .number "ordinal" stored.record.ordinal.toNat,
  .string "clientId" (decimal stored.record.entry.envelope.clientId.value.toNat),
  .string "sessionId" (decimal stored.record.entry.envelope.sessionId.value.toNat),
  .string "sessionSequence" (decimal stored.record.entry.envelope.sequence.toNat),
  .string "targetTick" (decimal stored.record.entry.envelope.targetTick.toNat),
  .string "commandType" (commandTypeName stored.record.entry.envelope.type).toList,
  .string "outcome" (if recordWasAccepted stored.record then "accepted" else "rejected").toList,
  .string "rejectionCode" (rejectionName stored.record).toList,
  .string "previousDigest" stored.record.previousRecordDigest.toHex,
  .string "recordDigest" stored.recordDigest.toHex]

/-- The fields of a replay summary. -/
def replayFields (replay : CommandEvidenceReplayResult) (acceptedCount rejectedCount : ℕ) :
    List Field := [
  .boolean "verified" replay.verified,
  .string "finalTick" (decimal replay.finalTick.toNat),
  .string "finalWorldFingerprint" (decimal replay.finalWorldFingerprint.value.toNat),
  .number "acceptedCommands" acceptedCount,
  .number "rejectedCommands" rejectedCount]

/-- The fields of a bundle before its sessions. -/
def headFields (archive : EvidenceArchiveSummary) (initialHead : Sha256Digest) : List Field := [
  .number "schemaVersion" investigationBundleSchemaVersion,
  .string "archiveDigest" archive.archiveDigest.toHex,
  .string "initialHeadDigest" initialHead.toHex,
  .string "trustedHeadDigest" archive.trustedHead.toHex,
  .string "importedAtUtc" (normalizeTimestamp archive.importedAtUtc)]

/-- INTERNAL: the names in a session are different. -/
theorem sessionFields_names (session : EvidenceSessionSummary) (projection : SessionProjection) :
    NamesDiffer (sessionFields session projection) := by
  show ((["clientId", "sessionId", "lastCommittedSequence", "firstTargetTick", "lastTargetTick",
    "acceptedCommands", "rejectedCommands"] : List String).map fun name =>
      units name.toList).Nodup
  decide

/-- INTERNAL: the names in a record are different. -/
theorem recordFields_names (stored : StoredEvidenceRecord) :
    NamesDiffer (recordFields stored) := by
  show ((["ordinal", "clientId", "sessionId", "sessionSequence", "targetTick", "commandType",
    "outcome", "rejectionCode", "previousDigest", "recordDigest"] : List String).map fun name =>
      units name.toList).Nodup
  decide

/-- INTERNAL: the names in a replay summary are different. -/
theorem replayFields_names (replay : CommandEvidenceReplayResult)
    (acceptedCount rejectedCount : ℕ) :
    NamesDiffer (replayFields replay acceptedCount rejectedCount) := by
  show ((["verified", "finalTick", "finalWorldFingerprint", "acceptedCommands",
    "rejectedCommands"] : List String).map fun name => units name.toList).Nodup
  decide

/-- INTERNAL: the names in a bundle. -/
theorem bundle_names_eq (archive : EvidenceArchiveSummary) (initialHead : Sha256Digest)
    (sessions evidence replay : Json) :
    (Field.members (headFields archive initialHead) ++ [(units "sessions".toList, sessions),
      (units "evidence".toList, evidence), (units "replay".toList, replay)]).map Prod.fst =
      (["schemaVersion", "archiveDigest", "initialHeadDigest", "trustedHeadDigest",
        "importedAtUtc", "sessions", "evidence", "replay"] : List String).map fun name =>
          units name.toList := by
  simp only [Field.members, headFields, Field.number, Field.string, List.map_cons, List.map_nil,
    List.cons_append, List.nil_append]

/-- INTERNAL: the names in a bundle are different. -/
theorem bundle_names (archive : EvidenceArchiveSummary) (initialHead : Sha256Digest)
    (sessions evidence replay : Json) :
    ((Field.members (headFields archive initialHead) ++ [(units "sessions".toList, sessions),
      (units "evidence".toList, evidence), (units "replay".toList, replay)]).map
        Prod.fst).Nodup := by
  rw [bundle_names_eq]
  decide

/-- The value that the text of a bundle stands for. -/
def bundleJson (archive : EvidenceArchiveSummary) (initialHead : Sha256Digest)
    (sessions : List (EvidenceSessionSummary × SessionProjection))
    (evidence : List StoredEvidenceRecord) (replay : CommandEvidenceReplayResult)
    (acceptedCount rejectedCount : ℕ) : Json :=
  .object (Field.members (headFields archive initialHead) ++ [
    (units "sessions".toList,
      .array (sessions.map fun (session, projection) => objectOf (sessionFields session projection))),
    (units "evidence".toList, .array (evidence.map fun stored => objectOf (recordFields stored))),
    (units "replay".toList, objectOf (replayFields replay acceptedCount rejectedCount))])

section

variable (archive : EvidenceArchiveSummary) (initialHead : Sha256Digest)
  (sessions : List (EvidenceSessionSummary × SessionProjection))
  (evidence : List StoredEvidenceRecord) (replay : CommandEvidenceReplayResult)
  (acceptedCount rejectedCount : ℕ)

/-- A field of the head is found in the bundle. -/
theorem bundleJson_head (field : Field) (h : field ∈ headFields archive initialHead) :
    (bundleJson archive initialHead sessions evidence replay acceptedCount
      rejectedCount).member? field.name = some field.json := by
  refine member?_of_mem (bundle_names archive initialHead _ _ _) ?_
  exact List.mem_append_left _ (List.mem_map.mpr ⟨field, h, rfl⟩)

/-- The sessions are found in the bundle. -/
theorem bundleJson_sessions :
    (bundleJson archive initialHead sessions evidence replay acceptedCount
      rejectedCount).member? "sessions" =
      some (.array (sessions.map fun (session, projection) =>
        objectOf (sessionFields session projection))) := by
  refine member?_of_mem (bundle_names archive initialHead _ _ _) ?_
  exact List.mem_append_right _ (List.mem_cons_self ..)

/-- The evidence is found in the bundle. -/
theorem bundleJson_evidence :
    (bundleJson archive initialHead sessions evidence replay acceptedCount
      rejectedCount).member? "evidence" =
      some (.array (evidence.map fun stored => objectOf (recordFields stored))) := by
  refine member?_of_mem (bundle_names archive initialHead _ _ _) ?_
  exact List.mem_append_right _ (List.mem_cons_of_mem _ (List.mem_cons_self ..))

/-- The replay summary is found in the bundle. -/
theorem bundleJson_replay :
    (bundleJson archive initialHead sessions evidence replay acceptedCount
      rejectedCount).member? "replay" =
      some (objectOf (replayFields replay acceptedCount rejectedCount)) := by
  refine member?_of_mem (bundle_names archive initialHead _ _ _) ?_
  exact List.mem_append_right _ (List.mem_cons_of_mem _ (List.mem_cons_of_mem _
    (List.mem_cons_self ..)))

end

/-- INTERNAL: a session is written as its fields. -/
theorem sessionText_eq (session : EvidenceSessionSummary) (projection : SessionProjection) :
    sessionText session projection = Field.lines 6 (sessionFields session projection) := by
  simp [sessionText, sessionFields, Field.lines, stringField, Field.string, Field.number]

/-- INTERNAL: a record is written as its fields. -/
theorem recordText_eq (stored : StoredEvidenceRecord) :
    recordText stored = Field.lines 6 (recordFields stored) := by
  simp [recordText, recordFields, Field.lines, stringField, Field.string, Field.number]

/-- INTERNAL: a replay summary is written as its fields. -/
theorem replayText_eq (replay : CommandEvidenceReplayResult) (acceptedCount rejectedCount : ℕ) :
    replayText replay acceptedCount rejectedCount =
      Field.lines 4 (replayFields replay acceptedCount rejectedCount) := by
  simp [replayText, replayFields, Field.lines, stringField, Field.string, Field.number,
    Field.boolean]

/-- INTERNAL: the head of a bundle is written as its fields. -/
theorem headText_eq (archive : EvidenceArchiveSummary) (initialHead : Sha256Digest) :
    headText archive initialHead = (headFields archive initialHead).flatMap fun field =>
      rawField 2 field.name field.text true := by
  simp [headText, headFields, stringField, Field.string, Field.number]

/-- INTERNAL: lines that all end in a comma. -/
theorem commaLines_lexes (indent : ℕ) {fields : List Field} (h : fields ≠ []) :
    Lexes (fields.flatMap fun field => rawField indent field.name field.text true)
      (Field.tokens fields ++ [.comma]) := by
  induction fields with
  | nil => exact absurd rfl h
  | cons field rest ih =>
    have hline := Field.rawField_lexes field indent true
    cases rest with
    | nil => simpa [Field.tokens] using hline
    | cons next rest => simpa [Field.tokens] using hline.append (ih (List.cons_ne_nil _ _))

/-- The tokens of the text of a bundle. -/
def bundleTokens (archive : EvidenceArchiveSummary) (initialHead : Sha256Digest)
    (sessions : List (EvidenceSessionSummary × SessionProjection))
    (evidence : List StoredEvidenceRecord) (replay : CommandEvidenceReplayResult)
    (acceptedCount rejectedCount : ℕ) : List Token :=
  [.openObject] ++ (Field.tokens (headFields archive initialHead) ++ [.comma]) ++
    [.string (units "sessions".toList), .colon, .openArray] ++
    elementTokens ((sessions.map fun entry => sessionFields entry.1 entry.2).map Field.tokens) ++
    [.closeArray, .comma] ++ [.string (units "evidence".toList), .colon, .openArray] ++
    elementTokens ((evidence.map recordFields).map Field.tokens) ++ [.closeArray, .comma] ++
    [.string (units "replay".toList), .colon, .openObject] ++
    Field.tokens (replayFields replay acceptedCount rejectedCount) ++ [.closeObject] ++
    [.closeObject]

/-- INTERNAL: the text of a bundle is read as its tokens. -/
theorem bundleText_lexes (archive : EvidenceArchiveSummary) (initialHead : Sha256Digest)
    (sessions : List (EvidenceSessionSummary × SessionProjection))
    (evidence : List StoredEvidenceRecord) (replay : CommandEvidenceReplayResult)
    (acceptedCount rejectedCount : ℕ) :
    Lexes (bundleText archive initialHead sessions evidence replay acceptedCount rejectedCount)
      (bundleTokens archive initialHead sessions evidence replay acceptedCount rejectedCount) := by
  have hhead : Lexes (headText archive initialHead)
      (Field.tokens (headFields archive initialHead) ++ [.comma]) := by
    rw [headText_eq]
    exact commaLines_lexes 2 (List.cons_ne_nil _ _)
  have hsessions : Lexes (elementLines (sessions.map fun entry => sessionText entry.1 entry.2))
      (elementTokens ((sessions.map fun entry => sessionFields entry.1 entry.2).map
        Field.tokens)) := by
    apply elementLines_lexes
    rw [List.map_map, List.forall₂_map_left_iff, List.forall₂_map_right_iff, List.forall₂_same]
    intro entry _
    rw [sessionText_eq]
    exact Field.lines_lexes 6 _
  have hevidence : Lexes (elementLines (evidence.map recordText))
      (elementTokens ((evidence.map recordFields).map Field.tokens)) := by
    apply elementLines_lexes
    rw [List.map_map, List.forall₂_map_left_iff, List.forall₂_map_right_iff, List.forall₂_same]
    intro stored _
    rw [recordText_eq]
    exact Field.lines_lexes 6 _
  have hreplay : Lexes (replayText replay acceptedCount rejectedCount)
      (Field.tokens (replayFields replay acceptedCount rejectedCount)) := by
    rw [replayText_eq]
    exact Field.lines_lexes 4 _
  have hopen : Lexes "\x7b\n".toList [.openObject] := Lexes.of_start (by decide)
  have hopenSessions : Lexes "  \"sessions\": [\n".toList
      [.string (units "sessions".toList), .colon, .openArray] := Lexes.of_start (by decide)
  have hopenEvidence : Lexes "  \"evidence\": [\n".toList
      [.string (units "evidence".toList), .colon, .openArray] := Lexes.of_start (by decide)
  have hopenReplay : Lexes "  \"replay\": \x7b\n".toList
      [.string (units "replay".toList), .colon, .openObject] := Lexes.of_start (by decide)
  have hcloseArray : Lexes "  ],\n".toList [.closeArray, .comma] := Lexes.of_start (by decide)
  have hcloseReplay : Lexes "  \x7d\n".toList [.closeObject] := Lexes.of_start (by decide)
  have hclose : Lexes "\x7d\n".toList [.closeObject] := Lexes.of_start (by decide)
  exact (((((((((((hopen.append hhead).append hopenSessions).append hsessions).append
    hcloseArray).append hopenEvidence).append hevidence).append hcloseArray).append
    hopenReplay).append hreplay).append hcloseReplay).append hclose)

/-- **The text of a bundle decodes to the value of what it was written from.**
SRC: investigation_bundle_exporter.cpp:424-665 -/
theorem decode_bundleText {accept : List (List UInt16 × Json) → Bool} (haccept : Accepting accept)
    (archive : EvidenceArchiveSummary) (initialHead : Sha256Digest)
    (sessions : List (EvidenceSessionSummary × SessionProjection))
    (evidence : List StoredEvidenceRecord) (replay : CommandEvidenceReplayResult)
    (acceptedCount rejectedCount : ℕ) :
    decode accept (bundleText archive initialHead sessions evidence replay acceptedCount
        rejectedCount) =
      some (bundleJson archive initialHead sessions evidence replay acceptedCount
        rejectedCount) := by
  have hsessionsParse := elements_parse haccept (sessions.map fun entry =>
    sessionFields entry.1 entry.2) (by
      intro fields hfields
      obtain ⟨entry, -, rfl⟩ := List.mem_map.mp hfields
      exact ⟨List.cons_ne_nil _ _, sessionFields_names entry.1 entry.2⟩)
  have hevidenceParse := elements_parse haccept (evidence.map recordFields) (by
    intro fields hfields
    obtain ⟨stored, -, rfl⟩ := List.mem_map.mp hfields
    exact ⟨List.cons_ne_nil _ _, recordFields_names stored⟩)
  have hreplayParse := object_parses haccept (replayFields replay acceptedCount rejectedCount)
    (List.cons_ne_nil _ _) (replayFields_names replay acceptedCount rejectedCount)
  have hmembers := (((Field.tokens_parse accept (headFields archive initialHead)
    (List.cons_ne_nil _ _)).append (ParsesMembers.one (units "sessions".toList)
      hsessionsParse)).append
    (ParsesMembers.one (units "evidence".toList) hevidenceParse)).append
    (ParsesMembers.one (units "replay".toList) hreplayParse)
  rw [List.append_assoc, List.append_assoc] at hmembers
  have hparses := Parses.object hmembers (haccept _ (bundle_names archive initialHead _ _ _))
  have hlexes := bundleText_lexes archive initialHead sessions evidence replay acceptedCount
    rejectedCount
  refine decode_of hlexes ?_
  simpa only [bundleTokens, bundleJson, List.map_map, Function.comp_def, List.append_assoc,
    List.singleton_append, List.cons_append, List.nil_append] using hparses

end Tickline.Analysis
