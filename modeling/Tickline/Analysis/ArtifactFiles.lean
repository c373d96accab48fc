import Tickline.Analysis.ExportText
import Tickline.Analysis.GoPaths
import Tickline.Library.Checks
import Tickline.Model.ArtifactManifest

/-!
# Artifacts and their files

A valid path leads to the node of its names below the root, and to nothing outside
(`hashFile_ok_iff`).  So an artifact is verified exactly when its file is there as it was recorded
(`verifyArtifact_iff`), and the artifacts that `build` records are in strict order, valid and
verified on the same files (`buildArtifacts_ok`).
-/

set_option autoImplicit false

namespace Tickline.Analysis

open Tickline.Library Tickline.Library.Checks Tickline.Model Tickline.Model.Artifacts

/-! ## Files below a root -/

/-- The node at a path below the root of a repository. -/
def nodeBelow (tree : FileTree) (repositoryRoot path : GoString) : Option Node :=
  tree.node ((tree.abs repositoryRoot).elements ++ path.split '/')

/-- INTERNAL: a valid path consists of names. -/
theorem names_of_isRelativePath {path : GoString} (h : isRelativePath path = true) :
    ∀ name ∈ path.split '/', GoString.IsName name := by
  simp only [isRelativePath, Bool.not_eq_true', Bool.or_eq_false_iff, beq_eq_false_iff_ne,
    bne_eq_false_iff_eq] at h
  obtain ⟨⟨⟨⟨⟨⟨hne, hdot⟩, hup⟩, habs⟩, hclean⟩, hstays⟩, -⟩ := h
  exact GoString.names_of_clean hne hdot hup habs hclean hstays

/-- INTERNAL: a valid path does not lead out of a directory. -/
theorem not_escapes {path : GoString} (h : isRelativePath path = true) :
    ¬ (path = .ascii ".." ∨ path.hasPrefix "../" = true) := by
  simp only [isRelativePath, Bool.not_eq_true', Bool.or_eq_false_iff, beq_eq_false_iff_ne,
    bne_eq_false_iff_eq] at h
  obtain ⟨⟨⟨⟨⟨⟨-, -⟩, hup⟩, -⟩, -⟩, hstays⟩, -⟩ := h
  rintro (heq | hfront)
  · exact hup heq
  · rw [hstays] at hfront
    cases hfront

/-- INTERNAL: the absolute path is rooted. -/
theorem isAbs_abs (tree : FileTree) (path : GoString) : (tree.abs path).isAbs = true := by
  unfold FileTree.abs
  split_ifs with habs
  · exact (GoString.clean_clean_of_isAbs habs).1
  · exact GoString.isAbs_joinPath tree.absolute path

/-- INTERNAL: where there is a node, there is one on the way to it. -/
theorem isSome_node_of_append {tree : FileTree} {names : List GoString} (more : List GoString)
    (h : (tree.node (names ++ more)).isSome = true) : (tree.node names).isSome = true := by
  induction more using List.reverseRecOn with
  | nil => rwa [List.append_nil] at h
  | append_singleton more name ih =>
    rw [← List.append_assoc] at h
    exact ih (by rw [tree.parents _ _ h]; rfl)

/-- INTERNAL: a path that is there is resolved. -/
theorem resolveExistingPath_of_node {tree : FileTree} {root path : GoString}
    (hvalid : isRelativePath path = true) (h : (nodeBelow tree root path).isSome = true) :
    tree.resolveExistingPath root path = .ok (GoString.joinPath (tree.abs root) path).clean := by
  have habs := isAbs_abs tree root
  have hnames := names_of_isRelativePath hvalid
  have hroot : tree.evalSymlinks (tree.abs root) = some (tree.abs root).clean :=
    if_pos (isSome_node_of_append _ h)
  have hcandidate : tree.evalSymlinks (GoString.joinPath (tree.abs root) path) =
      some (GoString.joinPath (tree.abs root) path).clean := by
    refine if_pos ?_
    rw [(GoString.elements_joinPath habs hnames).1]
    exact h
  unfold FileTree.resolveExistingPath
  simp only [hvalid, hroot, hcandidate, GoString.rel_joinPath habs hnames, Bool.not_true,
    Bool.false_eq_true, if_false, if_neg (not_escapes hvalid)]
  rfl

/-- INTERNAL: a path that is not there is not resolved. -/
theorem resolveExistingPath_of_no_node {tree : FileTree} {root path : GoString}
    (hvalid : isRelativePath path = true) (h : nodeBelow tree root path = none)
    (resolved : GoString) : tree.resolveExistingPath root path ≠ .ok resolved := by
  have hcandidate : tree.evalSymlinks (GoString.joinPath (tree.abs root) path) = none := by
    refine if_neg ?_
    rw [(GoString.elements_joinPath (isAbs_abs tree root) (names_of_isRelativePath hvalid)).1]
    show ¬ (nodeBelow tree root path).isSome = true
    rw [h]
    simp
  unfold FileTree.resolveExistingPath
  cases hroot : tree.evalSymlinks (tree.abs root) <;> simp [hvalid, hroot, hcandidate, throw_ne_ok]

/-- INTERNAL: what is read is a regular file. -/
theorem hashNode_ok_iff {node : Option Node} {size : ℤ} {digest : GoString} :
    hashNode node = .ok (size, digest) ↔ ∃ file, node = some (.file file) ∧
      (file.content.length : ℤ) = size ∧ hexDigest file.content = digest := by
  rcases node with _ | (file | _ | _)
  · exact iff_of_false (by simp [hashNode]) (by simp)
  · rw [hashNode, Except.ok.injEq, Prod.mk.injEq]
    constructor
    · rintro ⟨hsize, hdigest⟩
      exact ⟨file, rfl, hsize, hdigest⟩
    · rintro ⟨other, heq, hsize, hdigest⟩
      obtain rfl := Node.file.inj (Option.some.inj heq)
      exact ⟨hsize, hdigest⟩
  · exact iff_of_false (by simp [hashNode]) (by simp)
  · exact iff_of_false (by simp [hashNode]) (by simp)

/-- **Which files are hashed**: those at a valid path.
SRC: manifest.go:348-450 -/
theorem hashFile_ok_iff {tree : FileTree} {root path : GoString} {size : ℤ} {digest : GoString} :
    hashFile tree root path = .ok (size, digest) ↔
      isRelativePath path = true ∧ ∃ file, nodeBelow tree root path = some (.file file) ∧
        (file.content.length : ℤ) = size ∧ hexDigest file.content = digest := by
  rw [← hashNode_ok_iff, hashFile, Checks.bind_ok_iff]
  by_cases hvalid : isRelativePath path = true
  · rw [and_iff_right hvalid]
    cases hnode : nodeBelow tree root path with
    | none =>
      refine iff_of_false ?_ (by simp [hashNode])
      rintro ⟨resolved, hresolved, -⟩
      exact resolveExistingPath_of_no_node hvalid hnode resolved hresolved
    | some node =>
      have helements := (GoString.elements_joinPath (isAbs_abs tree root)
        (names_of_isRelativePath hvalid)).2
      rw [resolveExistingPath_of_node hvalid (by rw [hnode]; rfl)]
      simp only [Except.ok.injEq, exists_eq_left', helements]
      rw [← hnode]
      rfl
  · refine iff_of_false ?_ (fun h => hvalid h.1)
    rintro ⟨resolved, hresolved, -⟩
    rw [FileTree.resolveExistingPath, if_pos (by simpa using hvalid)] at hresolved
    exact throw_ne_ok hresolved

/-! ## Verifying -/

/-- The file of an artifact is there as it was recorded. -/
def AsRecorded (tree : FileTree) (repositoryRoot : GoString) (artifact : Artifact) : Prop :=
  ∃ file, nodeBelow tree repositoryRoot artifact.path = some (.file file) ∧
    artifact.sizeBytes = file.content.length ∧ artifact.sha256 = hexDigest file.content

/-- INTERNAL: what a valid target is. -/
theorem validateTarget_ok {target : Target} (h : validateTarget target = .ok ()) :
    isRelativePath target.path = true ∧
      target.kind ∈ [kindResult, kindStdoutLog, kindStderrLog, kindCombinedLog] := by
  unfold validateTarget at h
  split_ifs at h with hpath hresult hstage hlog htrim
  · rw [Bool.not_eq_true', Bool.not_eq_false] at hpath
    exact ⟨hpath, by simp [hresult]⟩
  · rw [Bool.not_eq_true', Bool.not_eq_false] at hpath
    exact ⟨hpath, by simpa using Or.inr hlog⟩

/-- INTERNAL: what valid artifacts are. -/
theorem validateArtifacts_ok {artifacts : List Artifact} :
    ∀ {previous : Option GoString}, validateArtifacts previous artifacts = .ok () →
      ∀ artifact ∈ artifacts, validateTarget artifact.target = .ok () ∧
        0 ≤ artifact.sizeBytes ∧ isValidDigest artifact.sha256 = true := by
  induction artifacts with
  | nil => simp
  | cons artifact artifacts ih =>
    intro previous h
    simp only [validateArtifacts, Checks.bind_ok_iff, mapError_eq_ok, except_guard_iff,
      Bool.not_eq_true', Bool.not_eq_false, Int.not_lt] at h
    obtain ⟨_, htarget, -, hsize, hdigest, hrest⟩ := h
    exact List.forall_mem_cons.mpr ⟨⟨htarget, hsize, hdigest⟩, ih hrest⟩

/-- INTERNAL: what a valid manifest is. -/
theorem validateManifest_iff {manifest : Manifest} : validateManifest manifest = .ok () ↔
    manifest.schemaVersion = Artifacts.schemaVersion ∧ manifest.runID.trimSpace ≠ [] ∧
      manifest.artifacts ≠ [] ∧ validateArtifacts none manifest.artifacts = .ok () := by
  simp only [validateManifest, except_guard_iff, ne_eq, not_not]

/-- **When an artifact is verified.**
SRC: manifest.go:193-221 -/
theorem verifyArtifact_iff {tree : FileTree} {root : GoString} {artifact : Artifact}
    (hvalid : isRelativePath artifact.path = true) :
    verifyArtifact tree root artifact = .ok () ↔ AsRecorded tree root artifact := by
  simp only [verifyArtifact, Checks.bind_ok_iff, mapError_eq_ok, Prod.exists, except_guard_iff,
    hashFile_ok_iff, and_iff_right hvalid, ne_eq, not_not]
  constructor
  · rintro ⟨size, digest, ⟨file, hnode, rfl, rfl⟩, hsize, hdigest⟩
    refine ⟨file, hnode, hsize.symm, ?_⟩
    by_contra hne
    rw [if_pos fun heq => hne heq.symm] at hdigest
    exact throw_ne_ok hdigest
  · rintro ⟨file, hnode, hsize, hdigest⟩
    refine ⟨_, _, ⟨file, hnode, rfl, rfl⟩, hsize.symm, ?_⟩
    rw [if_neg (not_not.mpr hdigest.symm)]
    rfl

/-- **When a valid manifest is verified**: when every listed path is a regular file with the
recorded size and digest.
SRC: manifest.go:185-224 -/
theorem verify_iff {tree : FileTree} {root : GoString} {manifest : Manifest}
    (hvalid : validateManifest manifest = .ok ()) : verify tree root manifest = .ok () ↔
      ∀ artifact ∈ manifest.artifacts, AsRecorded tree root artifact := by
  have hpaths : ∀ artifact ∈ manifest.artifacts, isRelativePath artifact.path = true :=
    fun artifact hmem => (validateTarget_ok
      (validateArtifacts_ok (validateManifest_iff.mp hvalid).2.2.2 artifact hmem).1).1
  have hloop : verify tree root manifest = .ok () ↔
      ∀ artifact ∈ manifest.artifacts, verifyArtifact tree root artifact = .ok () := by
    simp only [verify, Checks.bind_ok_iff, mapError_eq_ok, hvalid]
    constructor
    · rintro ⟨_, -, _, hall, -⟩
      exact forIn_eq_ok.mp hall
    · intro hall
      exact ⟨(), trivial, (), forIn_eq_ok.mpr hall, rfl⟩
  rw [hloop]
  exact forall₂_congr fun artifact hmem => verifyArtifact_iff (hpaths artifact hmem)

/-! ## Building -/

/-- INTERNAL: a digest in hexadecimal is valid. -/
theorem isValidDigest_hexDigest (content : List UInt8) :
    isValidDigest (hexDigest content) = true := by
  have hdigit : ∀ n < 16, isLowerHexDigit (UInt8.ofNat (Nat.digitChar n).toNat) = true := by
    decide
  have hlength : (hexDigest content).length = 64 := by
    rw [hexDigest, List.length_map, ← length_units_toHex (Model.sha256 content), units_toHex,
      List.length_map]
  rw [isValidDigest, hlength, decide_eq_true rfl, Bool.true_and, List.all_eq_true]
  intro byte hbyte
  obtain ⟨c, hc, rfl⟩ := List.mem_map.mp hbyte
  obtain ⟨n, hn, rfl⟩ := toHex_digits hc
  exact hdigit n hn

/-- INTERNAL: paths with the same bytes are equal. -/
theorem key_injective : Function.Injective GoString.key :=
  List.map_injective_iff.mpr fun _ _ h => UInt8.toNat_inj.mp h

/-- **What the loop over ordered targets records** is valid, was read from the files, and has the
targets.
SRC: manifest.go:82-119 -/
theorem buildArtifacts_ok {tree : FileTree} {root : GoString} {targets : List Target} :
    ∀ {previous : Option GoString} {artifacts : List Artifact},
      buildArtifacts tree root previous targets = .ok artifacts →
      (∀ path ∈ previous, ∀ target ∈ targets, path.key ≤ target.path.key) →
      (targets.Pairwise fun left right => left.path.key ≤ right.path.key) →
      validateArtifacts previous artifacts = .ok () ∧
        (∀ artifact ∈ artifacts, AsRecorded tree root artifact) ∧
        artifacts.map Artifact.target = targets := by
  induction targets with
  | nil =>
    rintro previous artifacts ⟨⟩ - -
    exact ⟨rfl, by simp, rfl⟩
  | cons target targets ih =>
    intro previous artifacts h hprevious hordered
    obtain ⟨hfirst, hrest⟩ := List.pairwise_cons.mp hordered
    simp only [buildArtifacts, Checks.bind_ok_iff, mapError_eq_ok, except_guard_iff,
      Prod.exists, hashFile_ok_iff] at h
    obtain ⟨_, htarget, hnew, size, digest, ⟨-, file, hnode, hsize, hdigest⟩, others, hothers,
      hresult⟩ := h
    obtain rfl := Except.ok.inj hresult
    obtain ⟨hvalid, hrecorded, htargets⟩ := ih hothers
      (fun path hpath other hother => Option.mem_some.mp hpath ▸ hfirst other hother) hrest
    refine ⟨?_, List.forall_mem_cons.mpr ⟨⟨file, hnode, hsize.symm, hdigest.symm⟩, hrecorded⟩, ?_⟩
    · have hstrict : ¬ (previous.any fun path => decide (target.path.key ≤ path.key)) = true := by
        cases previous with
        | none => simp
        | some path =>
          have hne : path.key ≠ target.path.key := fun heq =>
            hnew (congrArg some (key_injective heq))
          have hlt := lt_of_le_of_ne (hprevious path rfl target (List.mem_cons_self ..)) hne
          simpa using hlt
      simp only [validateArtifacts, Checks.bind_ok_iff, mapError_eq_ok, except_guard_iff]
      refine ⟨(), htarget, hstrict, ?_, ?_, hvalid⟩
      · rw [← hsize]
        exact Int.not_lt.mpr (Int.natCast_nonneg _)
      · rw [← hdigest, isValidDigest_hexDigest]
        simp
    · rw [List.map_cons, htargets]
      rfl

/-- **What is built is valid**, and was read from the files.
SRC: manifest.go:49-126 -/
theorem build_ok {tree : FileTree} {root runID : GoString} {targets : List Target}
    {manifest : Manifest} (h : build tree root runID targets = .ok manifest) :
    validateManifest manifest = .ok () ∧
      (∀ artifact ∈ manifest.artifacts, AsRecorded tree root artifact) ∧
      manifest.runID = runID ∧ (manifest.artifacts.map Artifact.target).Perm targets := by
  simp only [build, except_guard_iff, Checks.bind_ok_iff] at h
  obtain ⟨hrun, htargets, artifacts, hartifacts, hresult⟩ := h
  obtain rfl := Except.ok.inj hresult
  have hperm : (orderedTargets targets).Perm targets := List.perm_insertionSort ..
  have hsorted : (orderedTargets targets).Pairwise fun left right =>
      left.path.key ≤ right.path.key := by
    have hall := List.pairwise_insertionSort
      (fun left right : Target => left.path.key ≤ right.path.key) targets
    exact hall
  obtain ⟨hvalid, hrecorded, hsame⟩ := buildArtifacts_ok hartifacts (by simp) hsorted
  refine ⟨validateManifest_iff.mpr ⟨rfl, hrun, ?_, hvalid⟩, hrecorded, rfl, hsame ▸ hperm⟩
  rintro rfl
  rw [← hsame] at hperm
  exact htargets hperm.nil_eq.symm

end Tickline.Analysis
