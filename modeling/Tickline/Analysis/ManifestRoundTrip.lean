import Tickline.Analysis.ArtifactFiles

/-!
# Manifests are read back

The text of a manifest is JSON, and `parse` reads it back up to what JSON cannot hold: in every
string, a byte that is not part of a character in UTF-8 becomes U+FFFD (`decodeManifest_text`).
Everything else that `build` records survives, so a manifest that was built verifies what it was
built from exactly when the strings that it was given are valid UTF-8.
-/

set_option autoImplicit false

namespace Tickline.Analysis

open Tickline.Library Tickline.Model Tickline.Model.Artifacts
open Tickline.Library.Json (Reads Written utf16 units hexValue? isPlain block intDigits
  integer?_intDigits)
open Tickline.Library.Json.Written (Member)
open Tickline.Library.Json.Written.Member (line)

/-! ## Writing -/

/-- Every object is let through. -/
abbrev acceptAll : List (List UInt16 × Json) → Bool := fun _ => true

/-- INTERNAL: a rune is read back. -/
theorem escapedRune_reads (rune : Option Char) :
    Reads (escapedRune rune) (utf16 (rune.getD Unicode.replacement)) := by
  have hhex : ∀ n < 16, hexValue? (Nat.digitChar n) = some n := by decide
  cases rune with
  | none =>
    have hfifteen : hexValue? 'f' = some 15 := by decide
    have hthirteen : hexValue? 'd' = some 13 := by decide
    exact Reads.unicode hfifteen hfifteen hfifteen hthirteen
  | some c =>
    have hunit : ∀ {n : ℕ}, c.toNat = n → n < 0x10000 → utf16 c = [UInt16.ofNat n] := by
      rintro n rfl hn
      rw [utf16, if_pos hn]
    show Reads (escapedRune (some c)) (utf16 c)
    unfold escapedRune
    dsimp only
    split_ifs with hquote hback hfeed hline hreturn htab hcontrol hseparator
    · rcases hquote with rfl | rfl <;> exact Reads.escape (by decide) (by decide)
    · subst hback
      exact Reads.escape (by decide) (by decide)
    · subst hfeed
      exact Reads.escape (by decide) (by decide)
    · subst hline
      exact Reads.escape (by decide) (by decide)
    · subst hreturn
      exact Reads.escape (by decide) (by decide)
    · subst htab
      exact Reads.escape (by decide) (by decide)
    · have hsmall : c.toNat < 0x100 := by
        rcases hcontrol with h | rfl | rfl | rfl
        · omega
        all_goals decide
      have hvalue : c.toNat = ((0 * 16 + 0) * 16 + c.toNat / 16) * 16 + c.toNat % 16 := by omega
      rw [hunit hvalue (by omega)]
      exact Reads.unicode (by decide) (by decide) (hhex _ (by omega)) (hhex _ (by omega))
    · have hvalue : c.toNat = ((2 * 16 + 0) * 16 + 2) * 16 + c.toNat % 16 := by omega
      rw [hunit hvalue (by omega)]
      exact Reads.unicode (by decide) (by decide) (by decide) (hhex _ (by omega))
    · refine Reads.plain (fun h => hquote (Or.inl h)) (fun h => hquote (Or.inr h)) ?_
      exact fun h => hcontrol (Or.inl h)

/-- INTERNAL: a string is read back as its text. -/
theorem runes_reads (text : GoString) :
    Reads ((Unicode.runes text).flatMap escapedRune) (units (Unicode.decode text)) := by
  rw [Unicode.decode]
  induction Unicode.runes text with
  | nil => exact Reads.nil
  | cons rune runes ih => exact (escapedRune_reads rune).append ih

/-- A member that is a string. -/
def stringMember (name : String) (h : name.toList.all isPlain = true) (text : GoString) :
    Member acceptAll :=
  ⟨name, h, Written.string (runes_reads text)⟩

/-- A member that is an integer. -/
def intMember (name : String) (h : name.toList.all isPlain = true) (n : ℤ) : Member acceptAll :=
  ⟨name, h, Written.int n⟩

/-- The members of an artifact. -/
def artifactMembers (artifact : Artifact) : List (Member acceptAll) :=
  [stringMember "path" (by decide) artifact.path, stringMember "kind" (by decide) artifact.kind] ++
    (if artifact.stageID = [] then []
      else [stringMember "stage_id" (by decide) artifact.stageID]) ++
    [intMember "size_bytes" (by decide) artifact.sizeBytes,
      stringMember "sha256" (by decide) artifact.sha256]

/-- An artifact, as it is written. -/
def writtenArtifact (artifact : Artifact) : Written acceptAll :=
  Written.object 4 (artifactMembers artifact) (by simp [artifactMembers]) rfl

/-- A manifest, as it is written. -/
def writtenManifest (manifest : Manifest) : Written acceptAll :=
  Written.object 0 [intMember "schema_version" (by decide) manifest.schemaVersion,
    stringMember "run_id" (by decide) manifest.runID,
    ⟨"artifacts", by decide,
      Written.array 2 (manifest.artifacts.map writtenArtifact)⟩] (by simp) rfl

/-- INTERNAL: the text of an artifact. -/
theorem text_writtenArtifact (artifact : Artifact) :
    (writtenArtifact artifact).text = block 4 '{' '}' artifact.lines := by
  show block 4 '{' '}' ((artifactMembers artifact).map _) = _
  unfold artifactMembers Artifact.lines
  split_ifs <;> rfl

/-- INTERNAL: the text of a manifest. -/
theorem text_writtenManifest (manifest : Manifest) :
    (writtenManifest manifest).text = manifest.text := by
  have hartifacts : (manifest.artifacts.map writtenArtifact).map (·.text) =
      manifest.artifacts.map fun artifact => block 4 '{' '}' artifact.lines := by
    rw [List.map_map]
    exact List.map_congr_left fun artifact _ => text_writtenArtifact artifact
  unfold Manifest.text
  rw [← hartifacts]
  rfl

/-! ## Reading -/

/-- An artifact as it is read back. -/
def coercedArtifact (artifact : Artifact) : Artifact where
  path := Unicode.coerce artifact.path
  kind := Unicode.coerce artifact.kind
  stageID := Unicode.coerce artifact.stageID
  sizeBytes := artifact.sizeBytes
  sha256 := Unicode.coerce artifact.sha256

/-- A manifest as it is read back. -/
def coercedManifest (manifest : Manifest) : Manifest where
  schemaVersion := manifest.schemaVersion
  runID := Unicode.coerce manifest.runID
  artifacts := manifest.artifacts.map coercedArtifact

/-- An `int64`. -/
def IsInt64 (n : ℤ) : Prop := -2 ^ 63 ≤ n ∧ n < 2 ^ 63

/-- INTERNAL: a string is decoded. -/
theorem decodeString_written (value text : GoString) :
    decodeString value (.string (units (Unicode.decode text))) = some (Unicode.coerce text) := by
  rw [decodeString, Unicode.chars_units]
  rfl

/-- INTERNAL: an integer is decoded. -/
theorem decodeInt_written (value : ℤ) {n : ℤ} (h : IsInt64 n) :
    decodeInt value (.number (intDigits n)) = some n := by
  rw [decodeInt, integer?_intDigits, Option.bind_eq_bind, Option.bind_some]
  exact if_pos h

section

variable {α : Type} (fields : List (StructField α)) (name : List UInt16)

/-- INTERNAL: a member is decoded into the field that has its name. -/
theorem decodeMember_of_find {field : StructField α}
    (h : (fields.find? fun field => (units field.name.toList).map foldUnit = name.map foldUnit) =
      some field) (value : α) (json : Json) :
    decodeMember fields value (name, json) = field.read value json := by
  rw [decodeMember, h]
  rfl

/-- INTERNAL: a string is decoded into its field. -/
theorem decodeMember_string {fieldName : String} {get : α → GoString} {set : α → GoString → α}
    (h : (fields.find? fun field => (units field.name.toList).map foldUnit = name.map foldUnit) =
      some (stringField fieldName get set)) (value : α) (text : GoString) :
    decodeMember fields value (name, .string (units (Unicode.decode text))) =
      some (set value (Unicode.coerce text)) := by
  rw [decodeMember_of_find fields name h]
  show (decodeString (get value) (.string (units (Unicode.decode text)))).map (set value) = _
  rw [decodeString_written, Option.map_some]

/-- INTERNAL: an integer is decoded into its field. -/
theorem decodeMember_int {fieldName : String} {get : α → ℤ} {set : α → ℤ → α}
    (h : (fields.find? fun field => (units field.name.toList).map foldUnit = name.map foldUnit) =
      some (intField fieldName get set)) (value : α) {n : ℤ} (hn : IsInt64 n) :
    decodeMember fields value (name, .number (intDigits n)) = some (set value n) := by
  rw [decodeMember_of_find fields name h]
  show (decodeInt (get value) (.number (intDigits n))).map (set value) = _
  rw [decodeInt_written _ hn, Option.map_some]

end

/-- INTERNAL: an artifact is decoded. -/
theorem decodeStruct_writtenArtifact {artifact : Artifact} (h : IsInt64 artifact.sizeBytes) :
    decodeStruct Artifact.fields {} (writtenArtifact artifact).json =
      some (coercedArtifact artifact) := by
  have hpath := decodeMember_string Artifact.fields (units "path".toList) rfl
  have hkind := decodeMember_string Artifact.fields (units "kind".toList) rfl
  have hstageID :=
    decodeMember_string Artifact.fields (units "stage_id".toList) rfl
  have hsize := fun value =>
    decodeMember_int Artifact.fields (units "size_bytes".toList) rfl value h
  have hdigest :=
    decodeMember_string Artifact.fields (units "sha256".toList) rfl
  show ((artifactMembers artifact).map fun member =>
    (units member.name.toList, member.value.json)).foldlM (decodeMember Artifact.fields) {} = _
  unfold artifactMembers
  split_ifs with hstage
  · simp only [List.append_nil, List.cons_append, List.nil_append, List.map_cons, List.map_nil,
      List.foldlM_cons, List.foldlM_nil, stringMember, intMember, Written.string, Written.int,
      hpath, hkind, hsize, hdigest, Option.bind_eq_bind, Option.bind_some, Option.pure_def]
    rw [coercedArtifact, hstage]
    rfl
  · simp only [List.cons_append, List.nil_append, List.map_cons, List.map_nil,
      List.foldlM_cons, List.foldlM_nil, stringMember, intMember, Written.string, Written.int,
      hpath, hkind, hstageID, hsize, hdigest, Option.bind_eq_bind, Option.bind_some,
      Option.pure_def]
    rfl

/-- INTERNAL: artifacts are decoded. -/
theorem decodeArtifacts_written {artifacts : List Artifact}
    (h : ∀ artifact ∈ artifacts, IsInt64 artifact.sizeBytes) :
    decodeArtifacts (Written.array 2 (artifacts.map writtenArtifact)).json =
      some (artifacts.map coercedArtifact) := by
  show ((artifacts.map writtenArtifact).map (·.json)).mapM (decodeStruct Artifact.fields {}) = _
  induction artifacts with
  | nil => rfl
  | cons artifact artifacts ih =>
    obtain ⟨hartifact, hrest⟩ := List.forall_mem_cons.mp h
    rw [List.map_cons, List.map_cons, List.mapM_cons, decodeStruct_writtenArtifact hartifact,
      ih hrest]
    rfl

/-- **What is read back of the text of a manifest.**
SRC: manifest.go:128-183 -/
theorem decodeManifest_text {manifest : Manifest} (hversion : IsInt64 manifest.schemaVersion)
    (hsizes : ∀ artifact ∈ manifest.artifacts, IsInt64 artifact.sizeBytes) :
    decodeManifest (Unicode.encode (manifest.text ++ ['\n'])) =
      some (coercedManifest manifest) := by
  rw [decodeManifest, Unicode.decode_encode, ← text_writtenManifest, Written.decode_written]
  show [(units "schema_version".toList, Json.number (intDigits manifest.schemaVersion)),
    (units "run_id".toList, Json.string (units (Unicode.decode manifest.runID))),
    (units "artifacts".toList,
      (Written.array 2 (manifest.artifacts.map writtenArtifact)).json)].foldlM
        (decodeMember Manifest.fields) {} = _
  have hversionRead := fun value =>
    decodeMember_int Manifest.fields (units "schema_version".toList) rfl value
      hversion
  have hrunRead :=
    decodeMember_string Manifest.fields (units "run_id".toList) rfl
  have hartifactsRead : ∀ value : Manifest, decodeMember Manifest.fields value
      (units "artifacts".toList,
        (Written.array 2 (manifest.artifacts.map writtenArtifact)).json) =
          some { value with artifacts := manifest.artifacts.map coercedArtifact } := by
    intro value
    show (decodeArtifacts _).map _ = _
    rw [decodeArtifacts_written hsizes]
    rfl
  simp only [List.foldlM_cons, List.foldlM_nil, hversionRead, hrunRead, hartifactsRead,
    Option.bind_eq_bind, Option.bind_some, Option.pure_def]
  rfl

/-! ## Valid strings -/

/-- INTERNAL: ASCII is valid. -/
theorem valid_of_ascii {bytes : List UInt8} (h : ∀ byte ∈ bytes, byte < 128) :
    Unicode.Valid bytes := by
  have hbyte : ∀ n < 128, String.utf8EncodeChar (Char.ofNat n) = [UInt8.ofNat n] := by
    decide +kernel
  rw [Unicode.valid_iff]
  induction bytes with
  | nil => exact ⟨[], rfl⟩
  | cons byte bytes ih =>
    obtain ⟨hfirst, hrest⟩ := List.forall_mem_cons.mp h
    obtain ⟨text, rfl⟩ := ih hrest
    refine ⟨Char.ofNat byte.toNat :: text, ?_⟩
    rw [Unicode.encode_cons, hbyte _ (UInt8.lt_iff_toNat_lt.mp hfirst), UInt8.ofNat_toNat]
    rfl

/-- INTERNAL: a valid digest is valid UTF-8. -/
theorem valid_of_isValidDigest {digest : GoString} (h : isValidDigest digest = true) :
    Unicode.Valid digest := by
  refine valid_of_ascii fun byte hbyte => ?_
  rw [isValidDigest, Bool.and_eq_true, List.all_eq_true] at h
  have hdigit := h.2 byte hbyte
  simp only [isLowerHexDigit, Bool.or_eq_true, Bool.and_eq_true, decide_eq_true_eq] at hdigit
  rcases hdigit with ⟨-, hhigh⟩ | ⟨-, hhigh⟩
  · exact UInt8.lt_of_le_of_lt hhigh (by decide)
  · exact UInt8.lt_of_le_of_lt hhigh (by decide)

/-- INTERNAL: a kind of a valid target is valid UTF-8. -/
theorem valid_kind {target : Target} (h : validateTarget target = .ok ()) :
    Unicode.Valid target.kind := by
  have hall : ∀ kind ∈ [kindResult, kindStdoutLog, kindStderrLog, kindCombinedLog],
      Unicode.Valid kind := by
    simp only [List.forall_mem_cons]
    refine ⟨?_, ?_, ?_, ?_, by simp⟩ <;>
      exact valid_of_ascii (List.all_iff_forall_prop.mp (by decide))
  exact hall _ (validateTarget_ok h).2

/-- **Which artifacts are read back**: those whose path and stage are valid UTF-8. -/
theorem coercedArtifact_eq_iff {artifact : Artifact}
    (htarget : validateTarget artifact.target = .ok ())
    (hdigest : isValidDigest artifact.sha256 = true) : coercedArtifact artifact = artifact ↔
      Unicode.Valid artifact.path ∧ Unicode.Valid artifact.stageID := by
  have hkind : Unicode.coerce artifact.kind = artifact.kind :=
    Unicode.coerce_eq_iff.mpr (valid_kind htarget)
  have hsha : Unicode.coerce artifact.sha256 = artifact.sha256 :=
    Unicode.coerce_eq_iff.mpr (valid_of_isValidDigest hdigest)
  obtain ⟨path, kind, stageID, sizeBytes, sha256⟩ := artifact
  simp only at hkind hsha
  simp only [coercedArtifact, Artifact.mk.injEq, hkind, hsha, Unicode.coerce_eq_iff, true_and,
    and_true]

/-- **Which manifests are read back.** -/
theorem coercedManifest_eq_iff {manifest : Manifest} (h : validateManifest manifest = .ok ()) :
    coercedManifest manifest = manifest ↔ Unicode.Valid manifest.runID ∧
      ∀ artifact ∈ manifest.artifacts,
        Unicode.Valid artifact.path ∧ Unicode.Valid artifact.stageID := by
  have hvalid := validateArtifacts_ok (validateManifest_iff.mp h).2.2.2
  have hmap : manifest.artifacts.map coercedArtifact = manifest.artifacts ↔
      ∀ artifact ∈ manifest.artifacts,
        Unicode.Valid artifact.path ∧ Unicode.Valid artifact.stageID := by
    have hself := List.map_inj_left (l := manifest.artifacts) (f := coercedArtifact) (g := id)
    rw [List.map_id] at hself
    rw [hself]
    exact forall₂_congr fun artifact hmem =>
      coercedArtifact_eq_iff (hvalid artifact hmem).1 (hvalid artifact hmem).2.2
  obtain ⟨schemaVersion, runID, artifacts⟩ := manifest
  simp only [coercedManifest, Manifest.mk.injEq, Unicode.coerce_eq_iff, hmap, true_and]

/-! ## What was built -/

/-- INTERNAL: the sizes of files that are there. -/
theorem isInt64_of_asRecorded {tree : FileTree} {root : GoString} {artifact : Artifact}
    (h : AsRecorded tree root artifact) : IsInt64 artifact.sizeBytes := by
  obtain ⟨file, -, hsize, -⟩ := h
  have hsmall := file.small
  rw [hsize]
  constructor <;> omega

/-- INTERNAL: the run and the targets of what was built are valid when its strings are. -/
theorem valid_targets_iff {tree : FileTree} {root runID : GoString} {targets : List Target}
    {manifest : Manifest} (h : build tree root runID targets = .ok manifest) :
    coercedManifest manifest = manifest ↔ Unicode.Valid runID ∧
      ∀ target ∈ targets, Unicode.Valid target.path ∧ Unicode.Valid target.stageID := by
  obtain ⟨hvalid, -, hrun, hperm⟩ := build_ok h
  have htargets : (∀ target ∈ targets, Unicode.Valid target.path ∧ Unicode.Valid target.stageID) ↔
      ∀ artifact ∈ manifest.artifacts,
        Unicode.Valid artifact.path ∧ Unicode.Valid artifact.stageID := by
    simp only [← hperm.mem_iff, List.forall_mem_map]
    rfl
  rw [coercedManifest_eq_iff hvalid, hrun, htargets]

/-- **What parsing the text of what was built returns.**
SRC: manifest.go:49-183 -/
theorem parse_marshal {tree : FileTree} {root runID : GoString} {targets : List Target}
    {manifest : Manifest} (h : build tree root runID targets = .ok manifest) :
    ∃ data, marshal manifest = .ok data ∧
      (parse data = .ok manifest ↔ coercedManifest manifest = manifest) := by
  obtain ⟨hvalid, hrecorded, -⟩ := build_ok h
  have hversion : IsInt64 manifest.schemaVersion := by
    rw [(validateManifest_iff.mp hvalid).1]
    constructor <;> decide
  have hdecode := decodeManifest_text hversion fun artifact hmem =>
    isInt64_of_asRecorded (hrecorded artifact hmem)
  refine ⟨_, by rw [marshal, hvalid]; rfl, ?_⟩
  have hparse : parse (Unicode.encode (manifest.text ++ ['\n'])) =
      (validateManifest (coercedManifest manifest)).mapError .invalid >>= fun _ =>
        pure (coercedManifest manifest) := by
    rw [parse, hdecode]
  rw [hparse, Checks.bind_ok_iff]
  simp only [Checks.mapError_eq_ok, Checks.pure_eq_ok]
  constructor
  · rintro ⟨_, -, heq⟩
    exact heq
  · intro heq
    exact ⟨(), by rw [heq, hvalid], heq⟩

/-- A manifest verifies what it was built from: it is read back, verified on the same files, and
verified on others when every listed path is a regular file with the recorded size and digest. -/
structure VerifiesSource (tree : FileTree) (root : GoString) (manifest : Manifest) : Prop where
  parsed : ∃ data, marshal manifest = .ok data ∧ parse data = .ok manifest
  unchanged : verify tree root manifest = .ok ()
  others : ∀ (other : FileTree) (otherRoot : GoString), verify other otherRoot manifest = .ok () ↔
    ∀ artifact ∈ manifest.artifacts, AsRecorded other otherRoot artifact

/-! ## A tree with one file -/

/-- The nodes of a tree that has one file, in the directory `/r`. -/
def sampleNode (name : GoString) (names : List GoString) : Option Node :=
  if names = [.ascii "r", name] then some (.file ⟨[1, 2, 3], by decide⟩)
  else if names = [.ascii "r"] ∨ names = [] then some .directory
  else none

/-- A tree that has one file. -/
def sampleTree (name : GoString) : FileTree where
  workingDirectory := .ascii "/"
  node := sampleNode name
  absolute := by decide
  parents names last h := by
    have hdirectory : names = [.ascii "r"] ∨ names = [] := by
      unfold sampleNode at h
      split_ifs at h with hfile hup
      · exact Or.inl (List.append_inj_left' (hfile.trans (List.append_cons [] _ [name])) rfl)
      · rcases hup with hup | hup
        · exact Or.inr (List.append_inj_left' (hup.trans (List.nil_append _).symm) rfl)
        · simp at hup
      · simp at h
    have hne : names ≠ [.ascii "r", name] := by
      rcases hdirectory with rfl | rfl <;> simp
    rw [sampleNode, if_neg hne, if_pos hdirectory]

/-- The manifest of that file. -/
def builtSample (name : GoString) : Manifest where
  schemaVersion := Artifacts.schemaVersion
  runID := .ascii "run"
  artifacts := [{
    path := name
    kind := kindResult
    sizeBytes := 3
    sha256 := hexDigest [1, 2, 3] }]

/-- INTERNAL: that manifest is built. -/
theorem build_sampleTree {name : GoString}
    (htarget : validateTarget { path := name, kind := kindResult } = .ok ())
    (hnode : nodeBelow (sampleTree name) (.ascii "/r") name =
      some (.file ⟨[1, 2, 3], by decide⟩)) :
    build (sampleTree name) (.ascii "/r") (.ascii "run") [{ path := name, kind := kindResult }] =
      .ok (builtSample name) := by
  have hhash : hashFile (sampleTree name) (.ascii "/r") name = .ok (3, hexDigest [1, 2, 3]) :=
    hashFile_ok_iff.mpr ⟨(validateTarget_ok htarget).1, _, hnode, Eq.refl _, Eq.refl _⟩
  have hrun : ¬ (GoString.ascii "run").trimSpace = [] := by decide
  have hartifacts : buildArtifacts (sampleTree name) (.ascii "/r") none
      [{ path := name, kind := kindResult }] = .ok (builtSample name).artifacts := by
    rw [buildArtifacts, htarget, hhash]
    rfl
  have hordered : orderedTargets [{ path := name, kind := kindResult }] =
      [{ path := name, kind := kindResult }] := rfl
  rw [build, if_neg hrun, if_neg (List.cons_ne_nil _ _), hordered, hartifacts]
  rfl

/-- A path that is not UTF-8 is not read back, so that not every manifest verifies what it was
built from. -/
theorem invalid_path_not_parsed : ¬ ∀ (tree : FileTree) (root runID : GoString)
    (targets : List Target) (manifest : Manifest),
    build tree root runID targets = .ok manifest → VerifiesSource tree root manifest := by
  intro hall
  have hbuild : build (sampleTree [0xff]) (.ascii "/r") (.ascii "run")
      [{ path := [0xff], kind := kindResult }] = .ok (builtSample [0xff]) :=
    build_sampleTree (by decide +kernel) rfl
  obtain ⟨⟨data, hdata, hparsed⟩, -, -⟩ := hall _ _ _ _ _ hbuild
  obtain ⟨other, hother, hparse⟩ := parse_marshal hbuild
  rw [hdata] at hother
  obtain rfl := Except.ok.inj hother
  have hvalid := ((valid_targets_iff hbuild).mp (hparse.mp hparsed)).2 _
    (List.mem_singleton.mpr rfl)
  revert hvalid
  decide +kernel

/-- **When a manifest verifies what it was built from**: when the run identifier and the paths
and stages of the targets are valid UTF-8.
SRC: manifest.go:49-224 -/
theorem verifies_source_iff {tree : FileTree} {root runID : GoString} {targets : List Target}
    {manifest : Manifest} (h : build tree root runID targets = .ok manifest) :
    VerifiesSource tree root manifest ↔ Unicode.Valid runID ∧
      ∀ target ∈ targets, Unicode.Valid target.path ∧ Unicode.Valid target.stageID := by
  obtain ⟨hvalid, hrecorded, -⟩ := build_ok h
  obtain ⟨data, hdata, hparse⟩ := parse_marshal h
  rw [← valid_targets_iff h, ← hparse]
  constructor
  · rintro ⟨⟨other, hother, hparsed⟩, -, -⟩
    rw [hdata] at hother
    obtain rfl := Except.ok.inj hother
    exact hparsed
  · intro hparsed
    exact ⟨⟨data, hdata, hparsed⟩, (verify_iff hvalid).mpr hrecorded, fun other otherRoot =>
      verify_iff hvalid⟩

/-- A manifest of a file with a name in ASCII. -/
theorem verifies_source_iff_sample :
    VerifiesSource (sampleTree (.ascii "a.json")) (.ascii "/r") (builtSample (.ascii "a.json")) ↔
      Unicode.Valid (GoString.ascii "run") ∧
        ∀ target ∈ [({ path := .ascii "a.json", kind := kindResult } : Target)],
          Unicode.Valid target.path ∧ Unicode.Valid target.stageID := by
  have hbuild : build (sampleTree (.ascii "a.json")) (.ascii "/r") (.ascii "run")
      [{ path := .ascii "a.json", kind := kindResult }] = .ok (builtSample (.ascii "a.json")) :=
    build_sampleTree (by decide +kernel) rfl
  exact verifies_source_iff hbuild

end Tickline.Analysis
