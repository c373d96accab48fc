import Tickline.Analysis.ArtifactPaths
import Tickline.Analysis.ManifestRoundTrip
import Tickline.Analysis.TaskPlan
import Tickline.Model.RunStore

/-!
# The directory of a run

A run gets a directory of its own, whose name is made of digits and letters (`newRunID_ok`), so a
path in it is what the manifest takes for a path (`OfRun.artifactPath_eq`), and at that path below
the root is what the store has written (`OfRun.node`).  The directory was not there before, and
nothing else is touched (`create_ok`, `files_node_of_not_below`).
-/

set_option autoImplicit false

namespace Tickline.Analysis

open Tickline.Library Tickline.Model Tickline.Model.Artifacts Tickline.Model.RunLog
open Tickline.Model.Report (UTCTime padded)

/-! ## Names -/

/-- A letter, a digit, a hyphen or a dot. -/
def isNameByte (b : UInt8) : Bool :=
  (48 ≤ b && b ≤ 57) || (65 ≤ b && b ≤ 90) || (97 ≤ b && b ≤ 122) || b == 45 || b == 46

/-- A name of such bytes, not all of which are dots. -/
structure IsPlainName (name : GoString) : Prop where
  plain : ∀ b ∈ name, isNameByte b = true
  undotted : ∃ b ∈ name, b ≠ GoString.byte '.'

namespace IsPlainName

variable {name : GoString}

theorem isSegment (h : IsPlainName name) : IsSegment name where
  nonempty := by
    obtain ⟨b, hb, -⟩ := h.undotted
    exact List.ne_nil_of_mem hb
  notDot := by
    rintro rfl
    obtain ⟨b, hb, hdot⟩ := h.undotted
    exact hdot (List.mem_singleton.mp hb)
  notDotDot := by
    rintro rfl
    obtain ⟨b, hb, hdot⟩ := h.undotted
    have hall : ∀ b ∈ GoString.ascii "..", b = GoString.byte '.' := by decide +kernel
    exact hdot (hall b hb)
  noSeparator hmem := by
    have hplain := h.plain _ hmem
    revert hplain
    decide
  noBackslash hmem := by
    have hplain := h.plain _ hmem
    revert hplain
    decide

theorem lt (h : IsPlainName name) : ∀ b ∈ name, b < 128 := by
  intro b hb
  have hplain := h.plain b hb
  simp only [isNameByte, Bool.or_eq_true, Bool.and_eq_true, decide_eq_true_eq, beq_iff_eq] at hplain
  rcases hplain with (((⟨-, hhigh⟩ | ⟨-, hhigh⟩) | ⟨-, hhigh⟩) | rfl) | rfl
  · exact UInt8.lt_of_le_of_lt hhigh (by decide)
  · exact UInt8.lt_of_le_of_lt hhigh (by decide)
  · exact UInt8.lt_of_le_of_lt hhigh (by decide)
  · decide
  · decide

theorem valid (h : IsPlainName name) : Unicode.Valid name := valid_of_ascii h.lt

/-- A name in front of an ending. -/
theorem append (h : IsPlainName name) {ending : GoString}
    (hending : ∀ b ∈ ending, isNameByte b = true) : IsPlainName (name ++ ending) where
  plain b hb := (List.mem_append.mp hb).elim (h.plain b) (hending b)
  undotted := by
    obtain ⟨b, hb, hdot⟩ := h.undotted
    exact ⟨b, List.mem_append_left _ hb, hdot⟩

end IsPlainName

/-- No space starts or ends a path of plain names. -/
theorem trimSpace_of_bytes {text : GoString}
    (h : ∀ b ∈ text, isNameByte b = true ∨ b = GoString.byte '/') : text.trimSpace = text := by
  have hspaces : ∀ spelling ∈ GoString.spaces ++ GoString.spaces.map List.reverse,
      ∃ b ∈ spelling.head?, ¬ (isNameByte b = true ∨ b = GoString.byte '/') := by decide
  have hnone : ∀ spelling ∈ GoString.spaces ++ GoString.spaces.map List.reverse,
      ∀ text : GoString, (∀ b ∈ text, isNameByte b = true ∨ b = GoString.byte '/') →
        spelling.isPrefixOf text = false := by
    intro spelling hspelling text htext
    rw [Bool.eq_false_iff]
    intro hfront
    obtain ⟨rest, rfl⟩ := List.isPrefixOf_iff_prefix.mp hfront
    obtain ⟨b, hb, hspace⟩ := hspaces spelling hspelling
    exact hspace (htext b (List.mem_append_left _ (List.mem_of_mem_head? hb)))
  unfold GoString.trimSpace
  dsimp only
  rw [dropSpellings_eq fun spelling hspelling =>
      hnone spelling (List.mem_append_left _ hspelling) text h,
    dropSpellings_eq fun spelling hspelling =>
      hnone spelling (List.mem_append_right _ hspelling) text.reverse
        fun b hb => h b (List.mem_reverse.mp hb), List.reverse_reverse]

theorem IsPlainName.trimSpace {name : GoString} (h : IsPlainName name) : name.trimSpace = name :=
  trimSpace_of_bytes fun b hb => .inl (h.plain b hb)

theorem isNameByte_digitChar {n : ℕ} (h : n < 16) :
    isNameByte (GoString.byte (Nat.digitChar n)) = true := by
  have hall : ∀ n < 16, isNameByte (GoString.byte (Nat.digitChar n)) = true := by decide
  exact hall n h

theorem isNameByte_of_mem_padded {width n : ℕ} {b : UInt8} (h : b ∈ padded width n) :
    isNameByte b = true := by
  rcases List.mem_append.mp h with hzero | hdigit
  · obtain rfl := (List.mem_replicate.mp hzero).2
    decide
  · obtain ⟨c, hc, rfl⟩ := List.mem_map.mp hdigit
    have hall : ∀ c ∈ "0123456789".toList, isNameByte (GoString.byte c) = true :=
      List.all_eq_true.mp (by decide)
    exact hall c (Json.mem_digits (Json.isDigit_of_mem_toDigits hc))

theorem isNameByte_of_mem_hexByte {byte b : UInt8} (h : b ∈ hexByte byte) :
    isNameByte b = true := by
  have hbyte := byte.toNat_lt
  simp only [hexByte, List.mem_cons, List.not_mem_nil, or_false] at h
  rcases h with rfl | rfl
  · exact isNameByte_digitChar (by omega)
  · exact isNameByte_digitChar (by omega)

/-- **The identifier of a run is a plain name.** -/
theorem newRunID_ok {now : UTCTime} {entropy : Except GoString (List UInt8)} {runID : GoString}
    (h : newRunID now entropy = .ok runID) : IsPlainName runID := by
  simp only [newRunID, Checks.bind_ok_iff, Checks.mapError_eq_ok] at h
  obtain ⟨bytes, -, hresult⟩ := h
  obtain rfl := Except.ok.inj hresult
  have hT : ∀ b ∈ GoString.ascii "T", isNameByte b = true := by decide +kernel
  have hdot : ∀ b ∈ GoString.ascii ".", isNameByte b = true := by decide +kernel
  have hZ : ∀ b ∈ GoString.ascii "Z-", isNameByte b = true := by decide +kernel
  refine ⟨fun b hb => ?_, GoString.byte 'T', by simp [GoString.ascii, GoString.byte], by decide⟩
  simp only [List.mem_append, List.mem_flatMap] at hb
  rcases hb with ((((((((((hb | hb) | hb) | hb) | hb) | hb) | hb) | hb) | hb) | hb) | ⟨_, -, hb⟩)
  · exact isNameByte_of_mem_padded hb
  · exact isNameByte_of_mem_padded hb
  · exact isNameByte_of_mem_padded hb
  · exact hT b hb
  · exact isNameByte_of_mem_padded hb
  · exact isNameByte_of_mem_padded hb
  · exact isNameByte_of_mem_padded hb
  · exact hdot b hb
  · exact isNameByte_of_mem_padded hb
  · exact hZ b hb
  · exact isNameByte_of_mem_hexByte hb

/-! ## Paths -/

/-- What stands between the root of the repository and the files of a run. -/
def runSegments (runID : GoString) : List GoString :=
  [.ascii "reports", .ascii "check-local", runID]

/-- A store whose directory is that of its run, below a root. -/
structure OfRun (store : RunStore) (root : GoString) : Prop where
  plain : IsPlainName store.runID
  relative : store.relativeDirectory = GoString.join (runSegments store.runID) '/'
  absolute : store.absoluteDirectory.elements =
    (store.tree.abs root).elements ++ runSegments store.runID

theorem isPlainName_runSegments {runID : GoString} (h : IsPlainName runID) :
    ∀ segment ∈ runSegments runID, IsPlainName segment := by
  have hfront : ∀ segment ∈ [GoString.ascii "reports", GoString.ascii "check-local"],
      (∀ b ∈ segment, isNameByte b = true) ∧ ∃ b ∈ segment, b ≠ GoString.byte '.' := by
    decide +kernel
  simp only [runSegments, List.forall_mem_cons]
  refine ⟨?_, ?_, h, by simp⟩
  · obtain ⟨hplain, hundotted⟩ := hfront _ (List.mem_cons_self ..)
    exact ⟨hplain, hundotted⟩
  · obtain ⟨hplain, hundotted⟩ := hfront _ (List.mem_cons_of_mem _ (List.mem_cons_self ..))
    exact ⟨hplain, hundotted⟩

theorem join_concat {parts : List GoString} (hne : parts ≠ []) (last : GoString) :
    GoString.join (parts ++ [last]) '/' = GoString.join parts '/' ++ GoString.byte '/' :: last := by
  induction parts with
  | nil => exact absurd rfl hne
  | cons first rest ih =>
    cases rest with
    | nil => simp [GoString.join, List.intercalate]
    | cons next rest =>
      have hrest := ih (List.cons_ne_nil _ _)
      simp only [GoString.join, List.cons_append, List.intercalate_cons_cons] at hrest ⊢
      rw [hrest]
      simp only [List.append_assoc]

/-- INTERNAL: a name in a directory of names. -/
theorem joinPath_join {parts : List GoString} (hne : parts ≠ [])
    (hparts : ∀ part ∈ parts, GoString.IsName part) {name : GoString}
    (hname : GoString.IsName name) :
    GoString.joinPath (GoString.join parts '/') name = GoString.join (parts ++ [name]) '/' := by
  have hall : ∀ part ∈ parts ++ [name], GoString.IsName part := by
    intro part hpart
    rcases List.mem_append.mp hpart with hpart | hlast
    · exact hparts part hpart
    · exact List.mem_singleton.mp hlast ▸ hname
  have hempty := (tests_of_names hne hparts rfl).1
  have hclean := (tests_of_names (by simp) hall rfl).2.2.2.2.1
  rw [GoString.joinPath, if_neg hempty, if_neg hname.nonempty, ← join_concat hne, hclean]

/-- INTERNAL: what is in the directory of a run. -/
theorem files_node_below (store : RunStore) (rest : List GoString) :
    store.files.node (store.absoluteDirectory.elements ++ rest) =
      FileTree.nodeIn store.contents rest := by
  refine (if_pos (List.prefix_append _ _)).trans ?_
  rw [List.drop_left]

/-- INTERNAL: what is in the tree of a run outside its directory. -/
theorem files_node_of_not_below {store : RunStore} {names : List GoString}
    (h : ¬ store.absoluteDirectory.elements <+: names) :
    store.files.node names = store.tree.node names := if_neg h

namespace OfRun

variable {store : RunStore} {root name : GoString}

theorem segments (h : OfRun store root) (hname : IsPlainName name) :
    ∀ segment ∈ runSegments store.runID ++ [name], IsPlainName segment := by
  intro segment hsegment
  rcases List.mem_append.mp hsegment with hsegment | hlast
  · exact isPlainName_runSegments h.plain segment hsegment
  · exact List.mem_singleton.mp hlast ▸ hname

/-- **The path of a file of the run.** -/
theorem artifactPath_eq (h : OfRun store root) (hname : IsPlainName name) :
    store.artifactPath name = GoString.join (runSegments store.runID ++ [name]) '/' := by
  rw [RunStore.artifactPath, h.relative]
  exact joinPath_join (List.cons_ne_nil _ _)
    (fun part hpart => (isPlainName_runSegments h.plain part hpart).isSegment.toIsName)
    hname.isSegment.toIsName

theorem split_artifactPath (h : OfRun store root) (hname : IsPlainName name) :
    (store.artifactPath name).split '/' = runSegments store.runID ++ [name] := by
  rw [h.artifactPath_eq hname]
  exact GoString.split_join
    (fun segment hsegment => (h.segments hname segment hsegment).isSegment.noSeparator) (by simp)

theorem isRelativePath_artifactPath (h : OfRun store root) (hname : IsPlainName name) :
    isRelativePath (store.artifactPath name) = true :=
  (isRelativePath_iff _).mpr ⟨runSegments store.runID ++ [name], by simp,
    fun segment hsegment => (h.segments hname segment hsegment).isSegment, h.artifactPath_eq hname⟩

/-- Two names have two paths. -/
theorem artifactPath_inj (h : OfRun store root) (hname : IsPlainName name) {other : GoString}
    (hother : IsPlainName other) (heq : store.artifactPath name = store.artifactPath other) :
    name = other := by
  have hsplit := congrArg (GoString.split · '/') heq
  rw [h.split_artifactPath hname, h.split_artifactPath hother] at hsplit
  exact List.singleton_inj.mp (List.append_cancel_left hsplit)

theorem valid_artifactPath (h : OfRun store root) (hname : IsPlainName name) :
    Unicode.Valid (store.artifactPath name) := by
  rw [h.artifactPath_eq hname]
  refine valid_of_ascii fun b hb => ?_
  rcases mem_intercalate hb with hslash | ⟨segment, hsegment, hb⟩
  · obtain rfl := List.mem_singleton.mp hslash
    decide
  · exact (h.segments hname segment hsegment).lt b hb

/-- **What is at the path of a file of the run**: what the store has written in it. -/
theorem node (h : OfRun store root) (hname : IsPlainName name) :
    nodeBelow store.files root (store.artifactPath name) =
      (store.contents name).map FileTree.fileNode := by
  have habs : store.files.abs root = store.tree.abs root := rfl
  rw [nodeBelow, h.split_artifactPath hname, habs, ← List.append_assoc, ← h.absolute,
    files_node_below]
  rfl

end OfRun

/-! ## Trees that keep what they have -/

/-- Everything that is in a tree is in another. -/
structure Extends (before after : FileTree) : Prop where
  workingDirectory : after.workingDirectory = before.workingDirectory
  node : ∀ names node, before.node names = some node → after.node names = some node

namespace Extends

variable {before middle after : FileTree}

theorem trans (h : Extends before middle) (h' : Extends middle after) : Extends before after where
  workingDirectory := h'.workingDirectory.trans h.workingDirectory
  node names node hnode := h'.node names node (h.node names node hnode)

theorem abs (h : Extends before after) (path : GoString) : after.abs path = before.abs path := by
  rw [FileTree.abs, FileTree.abs, h.workingDirectory]

/-- **A manifest that is verified on a tree** is verified on every tree that keeps it. -/
theorem verify (h : Extends before after) {root : GoString} {manifest : Manifest}
    (hverified : Artifacts.verify before root manifest = .ok ()) :
    Artifacts.verify after root manifest = .ok () := by
  have hvalid : validateManifest manifest = .ok () := by
    simp only [Artifacts.verify, Checks.bind_ok_iff, Checks.mapError_eq_ok] at hverified
    obtain ⟨_, hvalid, -⟩ := hverified
    exact hvalid
  rw [verify_iff hvalid] at hverified ⊢
  intro artifact hartifact
  obtain ⟨file, hnode, hrecorded⟩ := hverified artifact hartifact
  refine ⟨file, ?_, hrecorded⟩
  rw [nodeBelow, h.abs]
  exact h.node _ _ hnode

end Extends

/-- What making directories changes. -/
theorem mkdirAll_ok {tree : FileTree} {names : List GoString}
    {made : { after : FileTree // after.node names = some .directory }}
    (h : tree.mkdirAll names = some made) : Extends tree made.1 ∧
      ∀ other, made.1.node other = tree.node other ∨
        tree.node other = none ∧ made.1.node other = some .directory := by
  unfold FileTree.mkdirAll at h
  split_ifs at h
  obtain rfl := Option.some.inj h
  refine ⟨⟨rfl, fun other node hnode => ?_⟩, fun other => ?_⟩
  · simp [hnode]
  · dsimp only
    split_ifs with hmade
    · exact .inr ⟨Option.isNone_iff_eq_none.mp hmade.2, rfl⟩
    · exact .inl rfl

theorem mkdir_ok {tree : FileTree} {names : List GoString}
    {made : { after : FileTree // after.node names = some .directory }}
    (h : tree.mkdir names = some made) : tree.node names = none ∧ Extends tree made.1 ∧
      ∀ other, made.1.node other = tree.node other ∨
        tree.node other = none ∧ made.1.node other = some .directory := by
  unfold FileTree.mkdir at h
  cases hnode : tree.node names with
  | some node => simp [hnode] at h
  | none =>
    cases hparent : tree.node names.dropLast with
    | none => simp [hnode, hparent] at h
    | some node =>
      cases node with
      | directory => exact ⟨rfl, mkdirAll_ok (by simpa [hnode, hparent] using h)⟩
      | _ => simp [hnode, hparent] at h

/-- **A run gets a directory of its own**, which was not there. -/
structure Created (tree : FileTree) (root : GoString) (store : RunStore) : Prop extends
    OfRun store root where
  fresh : tree.node store.absoluteDirectory.elements = none
  extended : Extends tree store.tree
  made : ∀ names, store.tree.node names = tree.node names ∨
    tree.node names = none ∧ store.tree.node names = some .directory
  empty : store.toStore = {} ∧ store.artifacts = fun _ => none

theorem create_ok {tree : FileTree} {answers : CreateAnswers} {root : GoString} {now : UTCTime}
    {store : RunStore} (h : create tree answers root now = .ok store) :
    Created tree root store := by
  have habs := isAbs_abs tree root
  simp only [create, Checks.bind_ok_iff] at h
  obtain ⟨_, -, runID, hrunID, h⟩ := h
  have hplain := newRunID_ok hrunID
  have hchecks : ∀ name ∈ (GoString.ascii "reports/check-local").split '/', GoString.IsName name :=
    fun name hname => (isPlainName_runSegments hplain name
      (List.mem_append_left [runID] hname)).isSegment.toIsName
  have hsplit : runID.split '/' = [runID] := by
    simpa [GoString.join] using GoString.split_join
      (List.forall_mem_singleton.mpr hplain.isSegment.noSeparator) (List.cons_ne_nil runID [])
  have hparent := (GoString.elements_joinPath habs hchecks).1
  have hown : ∀ name ∈ runID.split '/', GoString.IsName name := by
    rw [hsplit]
    exact List.forall_mem_singleton.mpr hplain.isSegment.toIsName
  have habsolute : (GoString.joinPath (GoString.joinPath (tree.abs root)
      (GoString.ascii "reports/check-local")) runID).elements =
        (tree.abs root).elements ++ runSegments runID := by
    rw [(GoString.elements_joinPath (GoString.isAbs_joinPath habs _) hown).1, hparent, hsplit,
      List.append_assoc]
    rfl
  cases hmade : (if answers.mkdirAll = true then tree.mkdirAll (GoString.joinPath (tree.abs root)
    (GoString.ascii "reports/check-local")).elements else none) with
  | none =>
    rw [hmade] at h
    cases h
  | some parent =>
    rw [hmade] at h
    cases hmake : (if answers.mkdir = true then parent.1.mkdir (GoString.joinPath
      (GoString.joinPath (tree.abs root) (GoString.ascii "reports/check-local"))
        runID).elements else none) with
    | none =>
      simp only [hmake] at h
      cases h
    | some own =>
      simp only [hmake] at h
      obtain rfl := Except.ok.inj h
      split_ifs at hmade hmake
      obtain ⟨hparentExtends, hparentNode⟩ := mkdirAll_ok hmade
      obtain ⟨hfresh, hownExtends, hownNode⟩ := mkdir_ok hmake
      refine ⟨⟨hplain, ?_, ?_⟩, ?_, hparentExtends.trans hownExtends, fun names => ?_, rfl, rfl⟩
      · exact joinPath_join (List.cons_ne_nil _ [_]) (fun part hpart => hchecks part hpart)
          hplain.isSegment.toIsName
      · have habs' := (hparentExtends.trans hownExtends).abs root
        exact habsolute.trans (congrArg (fun path : GoString =>
          path.elements ++ runSegments runID) habs'.symm)
      · rcases hparentNode _ with hsame | ⟨hnone, -⟩
        · rw [← hsame]
          exact hfresh
        · exact hnone
      · rcases hownNode names with hown | ⟨hnone, hmadeHere⟩
        · rcases hparentNode names with hsame | ⟨hfree, hmadeThere⟩
          · exact .inl (hown.trans hsame)
          · exact .inr ⟨hfree, hown.trans hmadeThere⟩
        · refine .inr ⟨?_, hmadeHere⟩
          rcases hparentNode names with hsame | ⟨hfree, -⟩
          · rw [← hsame]
            exact hnone
          · exact hfree

/-- **A run keeps everything that was there before it.** -/
theorem Created.extends_files {tree : FileTree} {root : GoString} {store after : RunStore}
    (h : Created tree root store) (hdirectory : after.absoluteDirectory = store.absoluteDirectory)
    (htree : after.tree = store.tree) : Extends tree after.files where
  workingDirectory := by
    show after.tree.workingDirectory = _
    rw [htree, h.extended.workingDirectory]
  node names node hnode := by
    have houtside : ¬ after.absoluteDirectory.elements <+: names := by
      rintro ⟨rest, rfl⟩
      have hsome := isSome_node_of_append rest (show (tree.node
        (after.absoluteDirectory.elements ++ rest)).isSome = true by rw [hnode]; rfl)
      rw [hdirectory, h.fresh] at hsome
      cases hsome
    rw [files_node_of_not_below houtside, htree]
    exact h.extended.node names node hnode

end Tickline.Analysis
