import Tickline.Analysis.RunDirectories
import Tickline.Analysis.RunLogs
import Tickline.Analysis.RunOutput
import Tickline.Model.RunEvidence

/-!
# The evidence of a run

An artifact is written whole or not at all, unless the system does not remove it
(`writeArtifact_wrote`).  The manifest is written last, and only where everything before it was, so
what is left is evidence (`Evidence`) or a report of what went wrong: a manifest that is read back,
verifies, and has the size and the digest of the report and of every stream of every stage that was
started.
-/

set_option autoImplicit false

namespace Tickline.Analysis

open Tickline.Library Tickline.Model Tickline.Model.Artifacts Tickline.Model.RunLog
open Tickline.Model.Report (ReportedRun ReportedStage)
open Tickline.Model.Stage (Event NumberedEvent RunEnvironment RunResult StageResult Stream
  isIdentifier)

/-! ## Stores of one run -/

/-- A store of the same run, with the same tree around its directory. -/
structure SameRun (store after : RunStore) : Prop where
  runID : after.runID = store.runID
  relative : after.relativeDirectory = store.relativeDirectory
  absolute : after.absoluteDirectory = store.absoluteDirectory
  tree : after.tree = store.tree

namespace SameRun

variable {store middle after : RunStore}

theorem refl (store : RunStore) : SameRun store store := ⟨rfl, rfl, rfl, rfl⟩

theorem trans (h : SameRun store middle) (h' : SameRun middle after) : SameRun store after :=
  ⟨h'.runID.trans h.runID, h'.relative.trans h.relative, h'.absolute.trans h.absolute,
    h'.tree.trans h.tree⟩

theorem symm (h : SameRun store after) : SameRun after store :=
  ⟨h.runID.symm, h.relative.symm, h.absolute.symm, h.tree.symm⟩

theorem ofRun (h : SameRun store after) {root : GoString} (hrun : OfRun store root) :
    OfRun after root where
  plain := h.runID ▸ hrun.plain
  relative := by rw [h.relative, h.runID, hrun.relative]
  absolute := by rw [h.absolute, h.runID, h.tree, hrun.absolute]

theorem artifactPath (h : SameRun store after) (name : GoString) :
    after.artifactPath name = store.artifactPath name := by
  rw [RunStore.artifactPath, RunStore.artifactPath, h.relative]

/-- Where a file of the run is kept, the tree with the files of the run keeps everything. -/
theorem files_extends (h : SameRun store after)
    (hkept : ∀ name content, store.contents name = some content →
      after.contents name = some content) : Extends store.files after.files where
  workingDirectory := by
    show after.tree.workingDirectory = store.tree.workingDirectory
    rw [h.tree]
  node names node hnode := by
    by_cases hbelow : store.absoluteDirectory.elements <+: names
    · obtain ⟨rest, rfl⟩ := hbelow
      rw [files_node_below] at hnode
      rw [← h.absolute, files_node_below]
      match rest with
      | [] => exact hnode
      | [name] =>
        obtain ⟨content, hcontent, rfl⟩ := Option.map_eq_some_iff.mp hnode
        show (after.contents name).map FileTree.fileNode = _
        rw [hkept name content hcontent]
        rfl
      | _ :: _ :: _ => cases hnode
    · rw [files_node_of_not_below hbelow] at hnode
      rw [files_node_of_not_below (h.absolute ▸ hbelow), h.tree]
      exact hnode

end SameRun

/-! ## One artifact -/

/-- What writing an artifact comes to: it is written whole, not at all, or it remains in part where
it is not removed. -/
inductive Wrote (answers : ArtifactAnswers) (store after : RunStore) (name : GoString)
    (data : List UInt8) : Except GoString GoString → Prop
  | whole (hnew : store.contents name = none)
      (hcontents : after.contents = Function.update store.contents name (some data)) :
      Wrote answers store after name data (.ok (store.artifactPath name))
  | nothing {err : GoString} (hcontents : after.contents = store.contents) :
      Wrote answers store after name data (.error err)
  | partly {err : GoString} {content : List UInt8} (hremains : answers.removes name = false)
      (hcontents : after.contents = Function.update store.contents name (some content)) :
      Wrote answers store after name data (.error err)

/-- Writing an artifact leaves the others as they are. -/
theorem Wrote.other {answers : ArtifactAnswers} {store after : RunStore} {name other : GoString}
    {data : List UInt8} {result : Except GoString GoString}
    (h : Wrote answers store after name data result) (hne : other ≠ name) :
    after.contents other = store.contents other := by
  cases h with
  | whole _ hcontents => rw [hcontents, Function.update_of_ne hne]
  | nothing hcontents => rw [hcontents]
  | partly _ hcontents => rw [hcontents, Function.update_of_ne hne]

/-- INTERNAL: the contents of a store with one artifact more or less. -/
theorem contents_withArtifact {store : RunStore} {name : GoString}
    (hnew : store.contents name = none) (content : Option (List UInt8)) :
    (store.withArtifact name content).contents = Function.update store.contents name content := by
  have hlog : logContent store.stages name = none := by
    rw [RunStore.contents] at hnew
    cases hartifact : store.artifacts name with
    | none => simpa [hartifact] using hnew
    | some content => simp [hartifact] at hnew
  funext other
  show (Function.update store.artifacts name content other <|> logContent store.stages other) = _
  by_cases hother : other = name
  · subst hother
    rw [Function.update_self, Function.update_self, hlog]
    cases content <;> rfl
  · rw [Function.update_of_ne hother, Function.update_of_ne hother]
    rfl

theorem writeArtifact_wrote (answers : ArtifactAnswers) (store : RunStore) (name : GoString)
    (data : List UInt8) :
    SameRun store (store.writeArtifact answers name data).1 ∧
      (store.writeArtifact answers name data).1.toStore = store.toStore ∧
      Wrote answers store (store.writeArtifact answers name data).1 name data
        (store.writeArtifact answers name data).2 := by
  unfold RunStore.writeArtifact
  by_cases hclosed : store.closed = true
  · rw [if_pos hclosed]
    exact ⟨.refl store, rfl, .nothing rfl⟩
  rw [if_neg hclosed]
  by_cases hname : (!isArtifactName name) = true
  · rw [if_pos hname]
    exact ⟨.refl store, rfl, .nothing rfl⟩
  rw [if_neg hname]
  cases hcreate : store.createArtifact answers name with
  | error err => exact ⟨.refl store, rfl, .nothing rfl⟩
  | ok _ =>
    have hnew : store.contents name = none := by
      unfold RunStore.createArtifact at hcreate
      dsimp only at hcreate
      split at hcreate
      · cases hcreate
      · split_ifs at hcreate with hthere
        exact Option.not_isSome_iff_eq_none.mp hthere
    cases hwrite : writeAll answers.toLogFiles name data.length [] data with
    | mk content writeErr =>
      dsimp only
      cases herr : artifactErr answers name writeErr with
      | some err =>
        refine ⟨⟨rfl, rfl, rfl, rfl⟩, rfl, ?_⟩
        cases hremoves : answers.removes name with
        | true =>
          refine .nothing ((contents_withArtifact hnew _).trans ?_)
          rw [if_pos rfl, ← hnew, Function.update_eq_self]
        | false => exact .partly hremoves (contents_withArtifact hnew _)
      | none =>
        have hwriteErr : writeErr = none := by
          cases writeErr with
          | none => rfl
          | some cause => simp [artifactErr] at herr
        subst hwriteErr
        obtain rfl := writeAll_ok (Nat.le_refl _) hwrite
        exact ⟨⟨rfl, rfl, rfl, rfl⟩, rfl, .whole hnew (contents_withArtifact hnew _)⟩

/-! ## Logs -/

theorem isPlainName_of_isIdentifier {id : GoString} (h : isIdentifier id = true) :
    IsPlainName id := by
  have hbyte : ∀ b ∈ id, isNameByte b = true ∧ b ≠ GoString.byte '.' := by
    intro b hb
    rcases isIdentifierByte_or h hb with hbyte | rfl
    · simp only [Stage.isIdentifierByte, Bool.or_eq_true, Bool.and_eq_true,
        decide_eq_true_eq] at hbyte
      refine ⟨?_, ?_⟩
      · simp only [isNameByte, Bool.or_eq_true, Bool.and_eq_true, decide_eq_true_eq, beq_iff_eq]
        rcases hbyte with hletter | hdigit
        · exact .inl (.inl (.inr hletter))
        · exact .inl (.inl (.inl (.inl hdigit)))
      · rintro rfl
        revert hbyte
        decide
    · decide
  obtain ⟨b, hb⟩ := List.exists_mem_of_ne_nil id (ne_nil_of_isIdentifier h)
  exact ⟨fun b hb => (hbyte b hb).1, b, hb, (hbyte b hb).2⟩

theorem stripSuffix?_append (text suffix : GoString) :
    (text ++ suffix).stripSuffix? suffix = some text := by
  rw [GoString.stripSuffix?, if_pos (List.suffix_append _ _), List.length_append,
    Nat.add_sub_cancel, List.take_left]

theorem stripSuffix?_other (text : GoString) {suffix other : GoString} (h : ¬ suffix <:+ other)
    (h' : ¬ other <:+ suffix) : (text ++ suffix).stripSuffix? other = none := by
  refine if_neg fun hother => ?_
  exact (List.suffix_or_suffix_of_suffix (List.suffix_append text suffix) hother).elim h h'

/-- The name of a log of a stage. -/
def logName (stageID : GoString) (ending : String) : GoString := stageID ++ GoString.ascii ending

/-- INTERNAL: the ending of a log is one of three. -/
theorem stripSuffix?_logName (id : GoString) :
    ∀ ending ∈ [".stdout.log", ".stderr.log", ".combined.log"],
      ∀ other ∈ [".stdout.log", ".stderr.log", ".combined.log"], ending ≠ other →
        (logName id ending).stripSuffix? (GoString.ascii other) = none := by
  have hother : ∀ ending ∈ [".stdout.log", ".stderr.log", ".combined.log"],
      ∀ other ∈ [".stdout.log", ".stderr.log", ".combined.log"], ending ≠ other →
        ¬ GoString.ascii ending <:+ GoString.ascii other := by decide
  exact fun ending hending other hmem hne => stripSuffix?_other id
    (hother ending hending other hmem hne) (hother other hmem ending hending hne.symm)

/-- **The logs of a stage are its files.** -/
theorem logContent_logName (stages : GoString → Option StageFiles) (id : GoString) :
    logContent stages (logName id ".stdout.log") = (stages id).map (·.stdout) ∧
      logContent stages (logName id ".stderr.log") = (stages id).map (·.stderr) ∧
      logContent stages (logName id ".combined.log") = (stages id).map (·.combined) := by
  have hnone := stripSuffix?_logName id
  have hown : ∀ suffix, (logName id suffix).stripSuffix? (GoString.ascii suffix) = some id :=
    fun suffix => stripSuffix?_append id (GoString.ascii suffix)
  refine ⟨?_, ?_, ?_⟩
  · unfold logContent
    dsimp only
    rw [hown, hnone _ (by simp) ".stderr.log" (by simp) (by decide),
      hnone _ (by simp) ".combined.log" (by simp) (by decide)]
    cases hstage : stages id <;> simp [hstage]
  · unfold logContent
    dsimp only
    rw [hown, hnone _ (by simp) ".stdout.log" (by simp) (by decide),
      hnone _ (by simp) ".combined.log" (by simp) (by decide)]
    cases hstage : stages id <;> simp [hstage]
  · unfold logContent
    dsimp only
    rw [hown, hnone _ (by simp) ".stdout.log" (by simp) (by decide),
      hnone _ (by simp) ".stderr.log" (by simp) (by decide)]
    cases hstage : stages id <;> simp [hstage]

/-- INTERNAL: the artifacts are no logs. -/
theorem logContent_artifacts (stages : GoString → Option StageFiles) :
    logContent stages resultArtifactName = none ∧ logContent stages artifactManifestName = none :=
  ⟨rfl, rfl⟩

/-! ## Manifests -/

/-- A manifest has the size and the digest of what a file holds. -/
def Records (manifest : Manifest) (path : GoString) (content : List UInt8) : Prop :=
  ∃ artifact ∈ manifest.artifacts, artifact.path = path ∧
    artifact.sizeBytes = content.length ∧ artifact.sha256 = hexDigest content

/-- A target that is a file in the directory of the run. -/
structure OwnTarget (store : RunStore) (target : Target) : Prop where
  path : ∃ name, IsPlainName name ∧ target.path = store.artifactPath name
  stageID : Unicode.Valid target.stageID

theorem content_of_fileNode {content : List UInt8} {file : File}
    (h : FileTree.fileNode content = .file file) : file.content = content := by
  unfold FileTree.fileNode at h
  split_ifs at h
  exact (Node.file.inj h) ▸ rfl

/-- **A manifest that was built of files of the run** is read back, verifies as long as they are
kept, and records what they hold. -/
theorem built_of_run {store : RunStore} {root : GoString} (hrun : OfRun store root)
    {targets : List Target} (hown : ∀ target ∈ targets, OwnTarget store target)
    {manifest : Manifest} (hbuild : build store.files root store.runID targets = .ok manifest)
    {data : GoString} (hdata : marshal manifest = .ok data) :
    parse data = .ok manifest ∧
      (∀ after, Extends store.files after → verify after root manifest = .ok ()) ∧
      ∀ name, IsPlainName name → (∃ target ∈ targets, target.path = store.artifactPath name) →
        ∃ content, store.contents name = some content ∧
          Records manifest (store.artifactPath name) content := by
  obtain ⟨hvalid, hrecorded, -, hperm⟩ := build_ok hbuild
  refine ⟨?_, fun after hafter => ?_, ?_⟩
  · obtain ⟨other, hother, hparse⟩ := parse_marshal hbuild
    obtain rfl := Except.ok.inj (hdata.symm.trans hother)
    refine hparse.mpr ((valid_targets_iff hbuild).mpr ⟨hrun.plain.valid, fun target htarget => ?_⟩)
    obtain ⟨⟨name, hname, hpath⟩, hstage⟩ := hown target htarget
    exact ⟨hpath ▸ hrun.valid_artifactPath hname, hstage⟩
  · exact hafter.verify ((verify_iff hvalid).mpr hrecorded)
  · rintro name hname ⟨target, htarget, hpath⟩
    obtain ⟨artifact, hartifact, rfl⟩ := List.mem_map.mp (hperm.mem_iff.mpr htarget)
    obtain ⟨file, hnode, hsize, hdigest⟩ := hrecorded artifact hartifact
    have hsame : artifact.path = store.artifactPath name := hpath
    rw [hsame, hrun.node hname] at hnode
    obtain ⟨content, hcontent, hfile⟩ := Option.map_eq_some_iff.mp hnode
    obtain rfl := content_of_fileNode hfile
    exact ⟨file.content, hcontent, artifact, hartifact, hsame, hsize, hdigest⟩

/-- What writing the manifest comes to: it is written whole, behind a build, or there is a fault and
nothing of it is left that could be removed. -/
inductive WroteManifest (answers : ArtifactAnswers) (root : GoString) (store after : RunStore)
    (targets : List Target) (faults : List EvidenceFault) : Prop
  | whole {manifest : Manifest} {data : GoString}
      (hbuild : build store.files root store.runID targets = .ok manifest)
      (hdata : marshal manifest = .ok data) (hnew : store.contents artifactManifestName = none)
      (hcontents : after.contents = Function.update store.contents artifactManifestName (some data))
      (hfaults : faults = [])
  | failed (hfaults : faults ≠ [])
      (hcontents : answers.removes artifactManifestName = true →
        after.contents artifactManifestName = store.contents artifactManifestName)

theorem writeManifest_wrote (answers : ArtifactAnswers) (root : GoString) (store : RunStore)
    (targets : List Target) :
    SameRun store (store.writeManifest answers root targets).1 ∧
      (store.writeManifest answers root targets).1.toStore = store.toStore ∧
      WroteManifest answers root store (store.writeManifest answers root targets).1 targets
        (store.writeManifest answers root targets).2 := by
  unfold RunStore.writeManifest
  cases hbuild : build store.files root store.runID targets with
  | error fault => exact ⟨.refl store, rfl, .failed (List.cons_ne_nil _ _) fun _ => rfl⟩
  | ok manifest =>
    dsimp only
    cases hdata : marshal manifest with
    | error fault => exact ⟨.refl store, rfl, .failed (List.cons_ne_nil _ _) fun _ => rfl⟩
    | ok data =>
      obtain ⟨hsame, hstore, hwrote⟩ :=
        writeArtifact_wrote answers store artifactManifestName data
      dsimp only
      refine ⟨hsame, hstore, ?_⟩
      generalize store.writeArtifact answers artifactManifestName data = written at hwrote
      obtain ⟨after, result⟩ := written
      cases hwrote with
      | whole hnew hcontents => exact .whole hbuild hdata hnew hcontents rfl
      | nothing hcontents =>
        exact .failed (List.cons_ne_nil _ _) fun _ => congrFun hcontents artifactManifestName
      | partly hremains =>
        refine .failed (List.cons_ne_nil _ _) fun hremoves => ?_
        rw [hremains] at hremoves
        cases hremoves

/-! ## Persisting a run -/

/-- What persisting a run comes to: the report and then the manifest are written whole, or there is
a fault and no manifest. -/
inductive Persisted (answers : ArtifactAnswers) (root : GoString) (store after : RunStore)
    (result : ReportedRun) (logWriteError : Option GoString) (faults : List EvidenceFault) : Prop
  | whole {middle : RunStore} {manifest : Manifest} {data : GoString} (hlog : logWriteError = none)
      (hsame : SameRun store middle) (hreport : store.contents resultArtifactName = none)
      (hmiddle : middle.contents = Function.update store.contents resultArtifactName
        (some (store.located result).marshal))
      (hbuild : build middle.files root middle.runID (store.targets result) = .ok manifest)
      (hdata : marshal manifest = .ok data) (hnew : middle.contents artifactManifestName = none)
      (hcontents : after.contents =
        Function.update middle.contents artifactManifestName (some data))
  | failed (hfaults : faults ≠ [])
      (hcontents : answers.removes artifactManifestName = true →
        after.contents artifactManifestName = store.contents artifactManifestName)

theorem close_contents (answers : ArtifactAnswers) (store : RunStore) (ids : List GoString) :
    SameRun store (store.close answers ids).1 ∧
      (store.close answers ids).1.contents = store.contents := by
  unfold RunStore.close
  split_ifs
  · exact ⟨.refl store, rfl⟩
  · exact ⟨⟨rfl, rfl, rfl, rfl⟩, rfl⟩

theorem persist_persisted (answers : ArtifactAnswers) (root : GoString) (store : RunStore)
    (result : ReportedRun) (logWriteError : Option GoString) {after : RunStore}
    {reported : ReportedRun} {faults : List EvidenceFault}
    (h : persistRunArtifacts answers root store result logWriteError = (after, reported, faults)) :
    SameRun store after ∧ reported = store.located result ∧
      Persisted answers root store after result logWriteError faults := by
  unfold persistRunArtifacts at h
  dsimp only at h
  obtain ⟨hsame, -, hwrote⟩ :=
    writeArtifact_wrote answers store resultArtifactName (store.located result).marshal
  generalize hmiddle : store.writeArtifact answers resultArtifactName
    (store.located result).marshal = report at h hsame hwrote
  obtain ⟨middle, written⟩ := report
  dsimp only at h hsame hwrote
  split_ifs at h with hall
  · obtain ⟨hlog, hwritten⟩ := hall
    obtain ⟨hsame', -, hmanifest⟩ :=
      writeManifest_wrote answers root middle (store.targets result)
    generalize hmade : middle.writeManifest answers root (store.targets result) = made
      at h hsame' hmanifest
    obtain ⟨behind, manifestFaults⟩ := made
    obtain ⟨hclosed, hkept⟩ :=
      close_contents answers behind ((store.located result).stages.map (·.id))
    obtain ⟨rfl, rfl, rfl⟩ : _ ∧ _ ∧ _ := by simpa only [Prod.mk.injEq] using h
    refine ⟨(hsame.trans hsame').trans hclosed, rfl, ?_⟩
    have hother := hwrote.other (show artifactManifestName ≠ resultArtifactName by decide)
    cases hwrote with
    | nothing => cases hwritten
    | partly => cases hwritten
    | whole hreport hcontents =>
      cases hmanifest with
      | whole hbuild hdata hnew hwhole =>
        exact .whole (Option.isNone_iff_eq_none.mp hlog) hsame hreport hcontents hbuild hdata hnew
          (hkept.trans hwhole)
      | failed hfaults hfailed =>
        refine .failed (by simp [hfaults]) fun hremoves => ?_
        rw [hkept, hfailed hremoves, hother]
  · obtain ⟨hclosed, hkept⟩ :=
      close_contents answers middle ((store.located result).stages.map (·.id))
    obtain ⟨rfl, rfl, rfl⟩ : _ ∧ _ ∧ _ := by simpa only [Prod.mk.injEq] using h
    refine ⟨hsame.trans hclosed, rfl, .failed ?_ fun _ => ?_⟩
    · intro hnone
      simp only [List.append_eq_nil_iff, List.map_eq_nil_iff] at hnone
      refine hall ⟨?_, hnone.1.1.2⟩
      cases logWriteError with
      | none => rfl
      | some err => cases hnone.1.1.1
    · rw [hkept]
      exact hwrote.other (by decide)

/-! ## Evidence -/

/-- The evidence of a run: a manifest that is read back and verifies, with the report of the run and
with the logs of every stage that was started, which hold what the runner returned of its streams,
and the output of both in the order in which it was observed. -/
structure Evidence (after : RunStore) (root : GoString) (result : ReportedRun)
    (events : List Event) (manifest : Manifest) : Prop where
  read : ∃ data, after.contents artifactManifestName = some data ∧ parse data = .ok manifest
  verified : verify after.files root manifest = .ok ()
  runID : manifest.runID = result.runID
  targets : (manifest.artifacts.map Artifact.target).Perm (after.targets result)
  report : Records manifest result.resultPath result.marshal
  logs : ∀ stage ∈ result.stages, stage.startedAt.isZero = false →
    Records manifest (after.stageStdoutPath stage.id) stage.stdout ∧
      Records manifest (after.stageStderrPath stage.id) stage.stderr ∧
        Records manifest stage.logPath ((outputOf (numbered events) stage.id).flatMap (·.data))

/-- A store whose logs hold the output in events, of which results return theirs. -/
structure Logged (store : RunStore) (root : GoString) (result : ReportedRun)
    (events : List Event) : Prop where
  run : OfRun store root
  artifacts : store.artifacts = fun _ => none
  stages : ∀ stage ∈ result.stages, isIdentifier stage.id = true ∧
    ∀ stream, bytesOf (numbered events) stage.id stream = returnedBytes stage.toStageResult stream

theorem isPlainName_artifacts :
    IsPlainName resultArtifactName ∧ IsPlainName artifactManifestName := by
  have hall : ∀ name ∈ [resultArtifactName, artifactManifestName],
      (∀ b ∈ name, isNameByte b = true) ∧ ∃ b ∈ name, b ≠ GoString.byte '.' := by
    decide +kernel
  exact ⟨⟨(hall _ (by simp)).1, (hall _ (by simp)).2⟩, (hall _ (by simp)).1, (hall _ (by simp)).2⟩

theorem isPlainName_logName {id : GoString} (hid : isIdentifier id = true) :
    ∀ ending ∈ [".stdout.log", ".stderr.log", ".combined.log"], IsPlainName (logName id ending) := by
  have hall : ∀ ending ∈ [".stdout.log", ".stderr.log", ".combined.log"],
      ∀ b ∈ GoString.ascii ending, isNameByte b = true := by decide +kernel
  exact fun ending hending => (isPlainName_of_isIdentifier hid).append (hall ending hending)

/-- INTERNAL: the targets of a run are files in its directory. -/
theorem Logged.ownTarget {store : RunStore} {root : GoString} {result : ReportedRun}
    {events : List Event} (h : Logged store root result events) :
    ∀ target ∈ store.targets result, OwnTarget store target := by
  intro target htarget
  rcases List.mem_cons.mp htarget with rfl | hlog
  · exact ⟨⟨_, isPlainName_artifacts.1, rfl⟩, (by decide : Unicode.Valid [])⟩
  · obtain ⟨stage, hstage, htarget⟩ := List.mem_flatMap.mp hlog
    have hid := (h.stages stage hstage).1
    have hvalid := (isPlainName_of_isIdentifier hid).valid
    unfold RunStore.stageTargets at htarget
    split_ifs at htarget
    · cases htarget
    · simp only [List.mem_cons, List.not_mem_nil, or_false] at htarget
      rcases htarget with rfl | rfl | rfl
      · exact ⟨⟨_, isPlainName_logName hid _ (by simp), rfl⟩, hvalid⟩
      · exact ⟨⟨_, isPlainName_logName hid _ (by simp), rfl⟩, hvalid⟩
      · exact ⟨⟨_, isPlainName_logName hid _ (by simp), rfl⟩, hvalid⟩

/-- INTERNAL: a log has another name than the report. -/
theorem logName_ne_result (id : GoString) :
    ∀ ending ∈ [".stdout.log", ".stderr.log", ".combined.log"],
      logName id ending ≠ resultArtifactName := by
  have hnone : ∀ ending ∈ [".stdout.log", ".stderr.log", ".combined.log"],
      resultArtifactName.stripSuffix? (GoString.ascii ending) = none := by decide
  intro ending hending heq
  have hsome := stripSuffix?_append id (GoString.ascii ending)
  rw [show id ++ GoString.ascii ending = resultArtifactName from heq, hnone ending hending] at hsome
  cases hsome

/-- A log has the name of its stage and of its kind. -/
theorem logName_inj {id other : GoString} {ending otherEnding : String}
    (hending : ending ∈ [".stdout.log", ".stderr.log", ".combined.log"])
    (hotherEnding : otherEnding ∈ [".stdout.log", ".stderr.log", ".combined.log"])
    (h : logName id ending = logName other otherEnding) : id = other ∧ ending = otherEnding := by
  have hsome : (logName id ending).stripSuffix? (GoString.ascii ending) = some id :=
    stripSuffix?_append id (GoString.ascii ending)
  by_cases hsame : ending = otherEnding
  · subst hsame
    exact ⟨List.append_cancel_right h, rfl⟩
  · rw [h, stripSuffix?_logName other _ hotherEnding _ hending (Ne.symm hsame)] at hsome
    cases hsome

/-- INTERNAL: the targets of a run do not change with its store, nor with the paths of its logs. -/
theorem targets_located {store after : RunStore} (h : SameRun store after) (result : ReportedRun) :
    after.targets (store.located result) = store.targets result := by
  have hstage : ∀ stage, after.stageTargets (store.withLogPath stage) = store.stageTargets stage := by
    intro stage
    have hzero : (store.withLogPath stage).startedAt = stage.startedAt ∧
        (store.withLogPath stage).id = stage.id := by
      unfold RunStore.withLogPath
      split_ifs <;> exact ⟨rfl, rfl⟩
    rw [RunStore.stageTargets, RunStore.stageTargets, hzero.1, hzero.2]
    simp only [RunStore.stageStdoutPath, RunStore.stageStderrPath, RunStore.stageCombinedPath,
      h.relative]
  rw [RunStore.targets, RunStore.targets, h.artifactPath]
  congr 1
  show ((result.stages.map store.withLogPath).flatMap after.stageTargets) = _
  rw [List.flatMap_map]
  exact List.flatMap_congr fun stage _ => hstage stage

/-- INTERNAL: a log that a manifest records holds the output in events. -/
theorem recorded_log {store middle : RunStore} {events : List Event}
    (hholds : LogHolds store.toStore (numbered events))
    (hartifacts : store.artifacts = fun _ => none) {report : GoString}
    (hmiddle : middle.contents = Function.update store.contents resultArtifactName (some report))
    {manifest : Manifest} {id : GoString}
    (hrecords : ∀ ending ∈ [".stdout.log", ".stderr.log", ".combined.log"], ∃ content,
      middle.contents (logName id ending) = some content ∧
        Records manifest (middle.artifactPath (logName id ending)) content) :
    Records manifest (middle.artifactPath (logName id ".stdout.log"))
        (bytesOf (numbered events) id .stdout) ∧
      Records manifest (middle.artifactPath (logName id ".stderr.log"))
        (bytesOf (numbered events) id .stderr) ∧
      Records manifest (middle.artifactPath (logName id ".combined.log"))
        ((outputOf (numbered events) id).flatMap (·.data)) := by
  have hcontents : ∀ ending ∈ [".stdout.log", ".stderr.log", ".combined.log"],
      middle.contents (logName id ending) = logContent store.stages (logName id ending) := by
    intro ending hending
    rw [hmiddle, Function.update_of_ne (logName_ne_result id ending hending), RunStore.contents,
      hartifacts]
    rfl
  obtain ⟨hstdout, hstderr, hcombined⟩ := logContent_logName store.stages id
  refine ⟨?_, ?_, ?_⟩
  · obtain ⟨content, hcontent, hrecord⟩ := hrecords ".stdout.log" (by simp)
    rw [hcontents _ (by simp), hstdout] at hcontent
    obtain ⟨stage, hstage, rfl⟩ := Option.map_eq_some_iff.mp hcontent
    exact hholds.streams id stage hstage .stdout ▸ hrecord
  · obtain ⟨content, hcontent, hrecord⟩ := hrecords ".stderr.log" (by simp)
    rw [hcontents _ (by simp), hstderr] at hcontent
    obtain ⟨stage, hstage, rfl⟩ := Option.map_eq_some_iff.mp hcontent
    exact hholds.streams id stage hstage .stderr ▸ hrecord
  · obtain ⟨content, hcontent, hrecord⟩ := hrecords ".combined.log" (by simp)
    rw [hcontents _ (by simp), hcombined] at hcontent
    obtain ⟨stage, hstage, rfl⟩ := Option.map_eq_some_iff.mp hcontent
    exact hholds.combined id stage hstage ▸ hrecord

/-- **A run that is persisted whole leaves evidence.** -/
theorem Logged.evidence {answers : ArtifactAnswers} {store after : RunStore} {root : GoString}
    {result : ReportedRun} {events : List Event} (h : Logged store root result events)
    {logWriteError : Option GoString} (hlog : logWriteError = none →
      LogHolds store.toStore (numbered events)) {faults : List EvidenceFault}
    (hsame : SameRun store after)
    (hpersisted : Persisted answers root store after result logWriteError faults) :
    (∃ manifest, Evidence after root (store.located result) events manifest) ∨
      faults ≠ [] ∧ (answers.removes artifactManifestName = true →
        after.contents artifactManifestName = none) := by
  cases hpersisted with
  | failed hfaults hcontents =>
    refine .inr ⟨hfaults, fun hremoves => ?_⟩
    rw [hcontents hremoves, RunStore.contents, h.artifacts]
    exact (logContent_artifacts store.stages).2
  | @whole middle manifest data hnone hmiddleSame hreport hmiddle hbuild hdata hnew hcontents =>
    have hrun : OfRun middle root := hmiddleSame.ofRun h.run
    have hown : ∀ target ∈ store.targets result, OwnTarget middle target := by
      intro target htarget
      obtain ⟨⟨name, hname, hpath⟩, hstage⟩ := h.ownTarget target htarget
      exact ⟨⟨name, hname, hpath.trans (hmiddleSame.artifactPath name).symm⟩, hstage⟩
    obtain ⟨hparse, hverify, hrecords⟩ := built_of_run hrun hown hbuild hdata
    obtain ⟨-, -, hrunID, hperm⟩ := build_ok hbuild
    have hkept : ∀ name content, middle.contents name = some content →
        after.contents name = some content := by
      intro name content hcontent
      rw [hcontents, Function.update_of_ne, hcontent]
      rintro rfl
      rw [hnew] at hcontent
      cases hcontent
    refine .inl ⟨manifest, ⟨data, ?_, hparse⟩, ?_, ?_, ?_, ?_, ?_⟩
    · rw [hcontents, Function.update_self]
    · exact hverify _ ((hmiddleSame.symm.trans hsame).files_extends hkept)
    · exact hrunID.trans hmiddleSame.runID
    · rw [targets_located hsame]
      exact hperm
    · obtain ⟨content, hcontent, hrecord⟩ := hrecords resultArtifactName isPlainName_artifacts.1
        ⟨_, List.mem_cons_self, (hmiddleSame.artifactPath _).symm⟩
      rw [hmiddle, Function.update_self] at hcontent
      obtain rfl := Option.some.inj hcontent
      rw [hmiddleSame.artifactPath] at hrecord
      exact hrecord
    · intro stage hstage hzero
      obtain ⟨plain, hplain, rfl⟩ := List.mem_map.mp hstage
      obtain ⟨hid, hbytes⟩ := h.stages plain hplain
      have hstarted : plain.startedAt.isZero = false := by
        unfold RunStore.withLogPath at hzero
        split_ifs at hzero <;> exact hzero
      have hlocated : store.withLogPath plain =
          { plain with logPath := store.stageCombinedPath plain.id } :=
        if_neg (by rw [hstarted]; exact Bool.false_ne_true)
      have htargets : ∀ target ∈ store.stageTargets plain, target ∈ store.targets result :=
        fun target htarget => List.mem_cons_of_mem _ (List.mem_flatMap.mpr ⟨plain, hplain, htarget⟩)
      have hpaths : ∀ ending ∈ [".stdout.log", ".stderr.log", ".combined.log"],
          ∃ target ∈ store.targets result,
            target.path = middle.artifactPath (logName plain.id ending) := by
        intro ending hending
        simp only [hmiddleSame.artifactPath]
        simp only [List.mem_cons, List.not_mem_nil, or_false] at hending
        simp only [RunStore.stageTargets, hstarted, Bool.false_eq_true, if_false,
          List.forall_mem_cons] at htargets
        obtain ⟨hout, herr, hboth, -⟩ := htargets
        rcases hending with rfl | rfl | rfl
        · exact ⟨_, hout, rfl⟩
        · exact ⟨_, herr, rfl⟩
        · exact ⟨_, hboth, rfl⟩
      obtain ⟨hout, herr, hboth⟩ := recorded_log (hlog hnone) h.artifacts hmiddle
        fun ending hending => hrecords _ (isPlainName_logName hid ending hending)
          (hpaths ending hending)
      rw [hlocated]
      simp only [hmiddleSame.artifactPath] at hout herr hboth
      rw [hbytes .stdout] at hout
      rw [hbytes .stderr] at herr
      refine ⟨?_, ?_, hboth⟩
      · rw [show after.stageStdoutPath plain.id = store.stageStdoutPath plain.id from
          hsame.artifactPath _]
        exact hout
      · rw [show after.stageStderrPath plain.id = store.stageStderrPath plain.id from
          hsame.artifactPath _]
        exact herr

end Tickline.Analysis
