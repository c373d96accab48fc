import Tickline.Analysis.ExecutedRuns

/-!
# Runs on a system that answers

Where the system answers without an error, takes something of what it is given to write, and no
file outgrows what its size can say, nothing in the way of evidence fails: every file that the
observer writes to is complete, the targets of the manifest are different files that are there,
and a run that is not refused leaves its evidence (`Answered.evidence`).
-/

set_option autoImplicit false

namespace Tickline.Analysis

open Tickline.Library Tickline.Model Tickline.Model.Artifacts Tickline.Model.RunLog
open Tickline.Model.Report (ReportedRun ReportedStage UTCTime)
open Tickline.Model.Stage (Event NumberedEvent RunEnvironment RunResult StageResult Stream
  isIdentifier)

/-- A system that answers without an error, and takes something of what it is given to write. -/
structure Answered (answers : ArtifactAnswers) : Prop where
  created : ∀ name, answers.createErr name = none
  written : ∀ name content data, data ≠ [] →
    0 < (answers.write name content data).1 ∧ (answers.write name content data).2 = none
  synchronized : ∀ name, answers.syncErr name = none
  closed : ∀ name, answers.closeErr name = none

namespace Answered

variable {answers : ArtifactAnswers}

/-! ## The log -/

theorem writeAll (h : Answered answers) (name : GoString) {fuel : ℕ} (content data : List UInt8)
    (hfuel : data.length ≤ fuel) :
    writeAll answers.toLogFiles name fuel content data = (content ++ data, none) := by
  have herr : (RunLog.writeAll answers.toLogFiles name fuel content data).2 = none := by
    induction fuel generalizing content data with
    | zero =>
      obtain rfl := List.length_eq_zero_iff.mp (Nat.le_zero.mp hfuel)
      rfl
    | succ fuel ih =>
      cases data with
      | nil => rfl
      | cons b data =>
        obtain ⟨hsome, hnone⟩ := h.written name content (b :: data) (List.cons_ne_nil b data)
        rw [RunLog.writeAll]
        · cases hwrite : answers.write name content (b :: data) with
          | mk written err =>
            rw [hwrite] at hsome hnone
            obtain rfl : err = none := hnone
            dsimp only
            rw [if_neg (Nat.ne_of_gt hsome)]
            refine ih _ _ ?_
            rw [List.length_drop]
            omega
        · simp
  have hpair : RunLog.writeAll answers.toLogFiles name fuel content data =
      ((RunLog.writeAll answers.toLogFiles name fuel content data).1, none) := Prod.ext rfl herr
  rw [hpair, writeAll_ok hfuel hpair]

theorem ensureStage (h : Answered answers) (store : Store) (stageID : GoString) :
    ∃ next stage, store.ensureStage answers.toLogFiles stageID = .ok (next, stage) ∧
      next.closed = store.closed := by
  have hcreate : ∀ name, createFile answers.toLogFiles name = .ok () := by
    intro name
    rw [createFile, h.created]
    rfl
  unfold Store.ensureStage
  cases store.stages stageID with
  | some existing => exact ⟨store, existing, rfl, rfl⟩
  | none =>
    simp only [hcreate]
    exact ⟨_, _, rfl, rfl⟩

theorem write (h : Answered answers) (stage : StageFiles) (stageID : GoString) (stream : Stream)
    (data : List UInt8) : (stage.write answers.toLogFiles stageID stream data).2 = none := by
  obtain ⟨name, both, failed, failedBoth, hwrite⟩ :=
    write_eq answers.toLogFiles stage stageID stream data
  rw [hwrite, h.writeAll name _ data (Nat.le_refl _)]
  dsimp only
  rw [h.writeAll both _ data (Nat.le_refl _)]
  rfl

/-- A store that is open and has files for what was there and for an event. -/
structure Ready (store next : Store) (event : Event) : Prop where
  opened : next.closed = false
  kept : ∀ id, (store.stages id).isSome = true → (next.stages id).isSome = true
  started : event.kind = .stageStarted → (next.stages event.stageID).isSome = true

/-- INTERNAL: a store with files for one more stage. -/
theorem ready_update {store next : Store} {event : Event} {stage : StageFiles}
    (hopened : next.closed = false)
    (hstages : next.stages = Function.update store.stages event.stageID (some stage)) :
    Ready store next event where
  opened := hopened
  kept id hid := by
    rw [hstages]
    by_cases hsame : id = event.stageID
    · subst hsame
      rw [Function.update_self]
      rfl
    · rwa [Function.update_of_ne hsame]
  started _ := by
    rw [hstages, Function.update_self]
    rfl

theorem observe (h : Answered answers) {store : Store} (hopened : store.closed = false)
    {event : Event} (hstream : event.kind = .stageOutput → event.stream.isSome = true) :
    ∃ next, store.observe answers.toLogFiles event = (next, none) ∧ Ready store next event := by
  obtain ⟨next, stage, hensure, hclosed⟩ := h.ensureStage store event.stageID
  obtain ⟨hstages, -⟩ := ensureStage_ok hensure
  have hnot : ¬ store.closed = true := by simp [hopened]
  unfold Store.observe
  rw [if_neg hnot]
  cases hkind : event.kind with
  | stageStarted =>
    dsimp only
    rw [hensure]
    exact ⟨next, rfl, ready_update (hclosed.trans hopened) hstages⟩
  | stageOutput =>
    obtain ⟨stream, hsome⟩ := Option.isSome_iff_exists.mp (hstream hkind)
    dsimp only
    rw [hensure, hsome]
    dsimp only
    have hwrite := h.write stage event.stageID stream event.data
    generalize stage.write answers.toLogFiles event.stageID stream event.data = written at hwrite
    obtain ⟨after, err⟩ := written
    obtain rfl : err = none := hwrite
    have hafter : Function.update next.stages event.stageID (some after) =
        Function.update store.stages event.stageID (some after) := by
      rw [hstages, Function.update_idem]
    exact ⟨_, rfl, ready_update (hclosed.trans hopened) hafter⟩
  | _ => exact ⟨store, rfl, hopened, fun _ hid => hid, fun hstarted => by simp [hkind] at hstarted⟩

/-- **Everything a run emits is written**, and every stage that was started has files. -/
theorem observeAll (h : Answered answers) {events : List Event} (hstreamed : Streamed events) :
    ∃ log, events.foldl (observeEvent answers.toLogFiles) ({}, none) = (log, none) ∧
      log.closed = false ∧ ∀ event ∈ events, event.kind = .stageStarted →
        (log.stages event.stageID).isSome = true := by
  induction events using List.reverseRecOn with
  | nil => exact ⟨{}, rfl, rfl, by simp⟩
  | append_singleton events event ih =>
    obtain ⟨log, hlog, hopened, hstarted⟩ :=
      ih fun event hevent => hstreamed event (List.mem_append_left _ hevent)
    obtain ⟨next, hnext, hready⟩ :=
      h.observe hopened (hstreamed event (List.mem_append_right _ (List.mem_singleton.mpr rfl)))
    refine ⟨next, ?_, hready.opened, fun other hother hkind => ?_⟩
    · rw [List.foldl_append, hlog]
      exact hnext
    · rcases List.mem_append.mp hother with hother | hlast
      · exact hready.kept _ (hstarted other hother hkind)
      · obtain rfl := List.mem_singleton.mp hlast
        exact hready.started hkind

/-! ## Artifacts -/

theorem writeArtifact (h : Answered answers) {store : RunStore} {name : GoString}
    (hopened : store.closed = false) (hname : isArtifactName name = true)
    (hnew : store.contents name = none) (data : List UInt8) :
    store.writeArtifact answers name data =
      (store.withArtifact name (some data), .ok (store.artifactPath name)) := by
  have hcreate : store.createArtifact answers name = .ok () := by
    unfold RunStore.createArtifact
    rw [h.created, hnew]
    rfl
  have herr : artifactErr answers name none = none := by
    rw [artifactErr, h.synchronized, h.closed]
    rfl
  unfold RunStore.writeArtifact
  rw [if_neg (by simp [hopened]), if_neg (by simp [hname]), hcreate]
  dsimp only
  rw [h.writeAll name [] data (Nat.le_refl _)]
  dsimp only
  rw [herr, List.nil_append]

theorem close (h : Answered answers) (store : RunStore) (ids : List GoString) :
    (store.close answers ids).2 = [] := by
  unfold RunStore.close
  split_ifs
  · rfl
  · simp [closeFile, h.closed]

end Answered

/-! ## The manifest -/

/-- INTERNAL: different files that are there are recorded, in the order of their paths. -/
theorem buildArtifacts_of_files {tree : FileTree} {root : GoString} {targets : List Target}
    {previous : Option GoString} (hdistinct : (previous.toList ++ targets.map (·.path)).Nodup)
    (hall : ∀ target ∈ targets, validateTarget target = .ok () ∧
      ∃ file, nodeBelow tree root target.path = some (.file file)) :
    ∃ artifacts, buildArtifacts tree root previous targets = .ok artifacts := by
  induction targets generalizing previous with
  | nil => exact ⟨[], rfl⟩
  | cons target targets ih =>
    obtain ⟨⟨hvalid, file, hnode⟩, hrest⟩ := List.forall_mem_cons.mp hall
    have hnew : previous ≠ some target.path := by
      rintro rfl
      simp at hdistinct
    obtain ⟨size, digest, hhash⟩ : ∃ size digest,
        hashFile tree root target.path = .ok (size, digest) :=
      ⟨_, _, hashFile_ok_iff.mpr ⟨(validateTarget_ok hvalid).1, file, hnode, rfl, rfl⟩⟩
    have hothers : ((some target.path).toList ++ targets.map (·.path)).Nodup :=
      (List.nodup_append.mp hdistinct).2.1
    obtain ⟨artifacts, hartifacts⟩ := ih hothers hrest
    refine ⟨{
      path := target.path
      kind := target.kind
      stageID := target.stageID
      sizeBytes := size
      sha256 := digest } :: artifacts, ?_⟩
    rw [buildArtifacts, hvalid, if_neg hnew, hhash]
    simp only [Except.mapError, hartifacts]
    rfl

/-- **Different files that are there have a manifest.** -/
theorem build_of_files {tree : FileTree} {root runID : GoString} {targets : List Target}
    (hrun : runID.trimSpace ≠ []) (hne : targets ≠ [])
    (hdistinct : (targets.map (·.path)).Nodup)
    (hall : ∀ target ∈ targets, validateTarget target = .ok () ∧
      ∃ file, nodeBelow tree root target.path = some (.file file)) :
    ∃ manifest, build tree root runID targets = .ok manifest := by
  have hperm : (orderedTargets targets).Perm targets := List.perm_insertionSort ..
  have hordered : ((none : Option GoString).toList ++
      (orderedTargets targets).map (·.path)).Nodup :=
    (hperm.map fun target : Target => target.path).nodup_iff.mpr hdistinct
  obtain ⟨artifacts, hartifacts⟩ := buildArtifacts_of_files hordered
    fun target htarget => hall target (hperm.mem_iff.mp htarget)
  refine ⟨{ schemaVersion := Artifacts.schemaVersion, runID, artifacts }, ?_⟩
  rw [build, if_neg hrun, if_neg hne, hartifacts]
  rfl

/-! ## The targets -/

/-- The names of the files that the manifest of a run lists. -/
def targetNames (result : ReportedRun) : List GoString :=
  resultArtifactName :: result.stages.flatMap fun stage =>
    if stage.startedAt.isZero then []
    else [".stdout.log", ".stderr.log", ".combined.log"].map (logName stage.id)

theorem map_path_targets (store : RunStore) (result : ReportedRun) :
    (store.targets result).map (·.path) = (targetNames result).map store.artifactPath := by
  have hstage : ∀ stage, (store.stageTargets stage).map (·.path) =
      (if stage.startedAt.isZero then []
        else [".stdout.log", ".stderr.log", ".combined.log"].map (logName stage.id)).map
          store.artifactPath := by
    intro stage
    unfold RunStore.stageTargets
    split_ifs <;> rfl
  rw [RunStore.targets, targetNames, List.map_cons, List.map_cons, List.map_flatMap,
    List.map_flatMap]
  exact congrArg _ (List.flatMap_congr fun stage _ => hstage stage)

theorem targetNames_nodup {result : ReportedRun} (h : (result.stages.map (·.id)).Nodup) :
    (targetNames result).Nodup := by
  refine List.nodup_cons.mpr ⟨fun hmem => ?_, List.nodup_flatMap.mpr ⟨fun stage _ => ?_, ?_⟩⟩
  · obtain ⟨stage, -, hname⟩ := List.mem_flatMap.mp hmem
    split_ifs at hname
    · cases hname
    · obtain ⟨ending, hending, heq⟩ := List.mem_map.mp hname
      exact logName_ne_result stage.id ending hending heq
  · split_ifs
    · exact List.nodup_nil
    · exact List.Nodup.map_on
        (fun ending hending other hother heq => (logName_inj hending hother heq).2) (by decide)
  · refine (List.pairwise_map.mp h).imp ?_
    intro stage other hne name hname hother
    dsimp only at hname hother
    split_ifs at hname hother
    · cases hname
    · cases hname
    · cases hother
    · obtain ⟨ending, hending, rfl⟩ := List.mem_map.mp hname
      obtain ⟨otherEnding, hotherEnding, heq⟩ := List.mem_map.mp hother
      exact hne (logName_inj hotherEnding hending heq).1.symm

/-- INTERNAL: the targets of a run are different files. -/
theorem Logged.distinct {store : RunStore} {root : GoString} {result : ReportedRun}
    {events : List Event} (h : Logged store root result events)
    (hdistinct : (result.stages.map (·.id)).Nodup) :
    ((store.targets result).map (·.path)).Nodup := by
  have hplain : ∀ name ∈ targetNames result, IsPlainName name := by
    intro name hname
    rcases List.mem_cons.mp hname with rfl | hlog
    · exact isPlainName_artifacts.1
    · obtain ⟨stage, hstage, hname⟩ := List.mem_flatMap.mp hlog
      split_ifs at hname
      · cases hname
      · obtain ⟨ending, hending, rfl⟩ := List.mem_map.mp hname
        exact isPlainName_logName (h.stages stage hstage).1 ending hending
  rw [map_path_targets]
  exact List.Nodup.map_on (fun name hname other hother heq =>
    h.run.artifactPath_inj (hplain name hname) (hplain other hother) heq)
    (targetNames_nodup hdistinct)

/-- INTERNAL: the targets of a run are valid. -/
theorem Logged.validTarget {store : RunStore} {root : GoString} {result : ReportedRun}
    {events : List Event} (h : Logged store root result events) :
    ∀ target ∈ store.targets result, validateTarget target = .ok () := by
  intro target htarget
  obtain ⟨⟨name, hname, hpath⟩, -⟩ := h.ownTarget target htarget
  have hrelative : isRelativePath target.path = true :=
    hpath ▸ h.run.isRelativePath_artifactPath hname
  rcases List.mem_cons.mp htarget with rfl | hlog
  · exact (if_neg (by rw [hrelative]; decide)).trans rfl
  · obtain ⟨stage, hstage, hlog⟩ := List.mem_flatMap.mp hlog
    have hplain := isPlainName_of_isIdentifier (h.stages stage hstage).1
    have htrim : stage.id.trimSpace ≠ [] := hplain.trimSpace.symm ▸ hplain.isSegment.nonempty
    unfold RunStore.stageTargets at hlog
    split_ifs at hlog
    · cases hlog
    · simp only [List.mem_cons, List.not_mem_nil, or_false] at hlog
      rcases hlog with rfl | rfl | rfl
      · exact (if_neg (by rw [hrelative]; decide)).trans (if_neg htrim)
      · exact (if_neg (by rw [hrelative]; decide)).trans (if_neg htrim)
      · exact (if_neg (by rw [hrelative]; decide)).trans (if_neg htrim)

/-! ## Runs -/

/-- INTERNAL: the files of a stage hold no more than everything that was emitted. -/
theorem length_log_le (events : List Event) (stageID : GoString) :
    (∀ stream, (bytesOf (numbered events) stageID stream).length ≤
        (events.flatMap (·.data)).length) ∧
      ((outputOf (numbered events) stageID).flatMap (·.data)).length ≤
        (events.flatMap (·.data)).length := by
  have hall : (numbered events).flatMap (·.data) = events.flatMap (·.data) := by
    rw [numbered, List.flatMap_map]
    rfl
  rw [← hall]
  exact ⟨fun stream => (List.filter_sublist.flatMap _).length_le,
    (List.filter_sublist.flatMap _).length_le⟩

theorem fileNode_of_small {content : List UInt8} (h : content.length < 2 ^ 63) :
    ∃ file, FileTree.fileNode content = .file file := ⟨_, dif_pos h⟩

/-- INTERNAL: the targets of a run are there behind its report. -/
theorem Logged.thereTarget {store : RunStore} {root : GoString} {result : ReportedRun}
    {events : List Event} (h : Logged store root result events)
    (hholds : LogHolds store.toStore (numbered events))
    (hstarted : ∀ stage ∈ result.stages, stage.startedAt.isZero = false →
      (store.stages stage.id).isSome = true)
    (houtput : (events.flatMap (·.data)).length < 2 ^ 63) {report : List UInt8}
    (hreport : report.length < 2 ^ 63) {middle : RunStore} (hsame : SameRun store middle)
    (hmiddle : middle.contents = Function.update store.contents resultArtifactName (some report)) :
    ∀ target ∈ store.targets result,
      ∃ file, nodeBelow middle.files root target.path = some (.file file) := by
  have hrun := hsame.ofRun h.run
  have hthere : ∀ name content, IsPlainName name → middle.contents name = some content →
      content.length < 2 ^ 63 →
      ∃ file, nodeBelow middle.files root (store.artifactPath name) = some (.file file) := by
    intro name content hname hcontent hsmall
    obtain ⟨file, hfile⟩ := fileNode_of_small hsmall
    refine ⟨file, ?_⟩
    rw [← hsame.artifactPath, hrun.node hname, hcontent, Option.map_some, hfile]
  intro target htarget
  rcases List.mem_cons.mp htarget with rfl | hlog
  · refine hthere _ report isPlainName_artifacts.1 ?_ hreport
    rw [hmiddle, Function.update_self]
  · obtain ⟨stage, hstage, hlog⟩ := List.mem_flatMap.mp hlog
    have hid := (h.stages stage hstage).1
    unfold RunStore.stageTargets at hlog
    split_ifs at hlog with hzero
    · cases hlog
    · obtain ⟨files, hfiles⟩ :=
        Option.isSome_iff_exists.mp (hstarted stage hstage (by simpa using hzero))
      obtain ⟨hstreams, hboth⟩ := length_log_le events stage.id
      obtain ⟨hstdout, hstderr, hcombined⟩ := logContent_logName store.stages stage.id
      have hcontent : ∀ ending ∈ [".stdout.log", ".stderr.log", ".combined.log"],
          middle.contents (logName stage.id ending) =
            logContent store.stages (logName stage.id ending) := by
        intro ending hending
        rw [hmiddle, Function.update_of_ne (logName_ne_result stage.id ending hending),
          RunStore.contents, h.artifacts]
        rfl
      rw [hfiles] at hstdout hstderr hcombined
      simp only [List.mem_cons, List.not_mem_nil, or_false] at hlog
      rcases hlog with rfl | rfl | rfl
      · refine hthere _ files.stdout (isPlainName_logName hid ".stdout.log" (by simp))
          ((hcontent _ (by simp)).trans hstdout) ?_
        rw [show files.stdout = bytesOf (numbered events) stage.id .stdout from
          hholds.streams stage.id files hfiles .stdout]
        exact Nat.lt_of_le_of_lt (hstreams .stdout) houtput
      · refine hthere _ files.stderr (isPlainName_logName hid ".stderr.log" (by simp))
          ((hcontent _ (by simp)).trans hstderr) ?_
        rw [show files.stderr = bytesOf (numbered events) stage.id .stderr from
          hholds.streams stage.id files hfiles .stderr]
        exact Nat.lt_of_le_of_lt (hstreams .stderr) houtput
      · refine hthere _ files.combined (isPlainName_logName hid ".combined.log" (by simp))
          ((hcontent _ (by simp)).trans hcombined) ?_
        exact hholds.combined stage.id files hfiles ▸ Nat.lt_of_le_of_lt hboth houtput

/-- INTERNAL: a manifest that can be built is written. -/
theorem Answered.writeManifest {answers : ArtifactAnswers} (h : Answered answers)
    {store : RunStore} {root : GoString} {targets : List Target} (hopened : store.closed = false)
    (hnew : store.contents artifactManifestName = none) {manifest : Manifest}
    (hbuild : build store.files root store.runID targets = .ok manifest) :
    (store.writeManifest answers root targets).2 = [] := by
  obtain ⟨data, hdata, -⟩ := parse_marshal hbuild
  rw [RunStore.writeManifest, hbuild]
  dsimp only
  rw [hdata]
  dsimp only
  rw [h.writeArtifact hopened (by decide) hnew data]
  rfl

/-- **A run whose log is complete is persisted** on a system that answers. -/
theorem Answered.persist {answers : ArtifactAnswers} (h : Answered answers) {store : RunStore}
    {root : GoString} {result : ReportedRun} {events : List Event}
    (hlogged : Logged store root result events) (hopened : store.closed = false)
    (hholds : LogHolds store.toStore (numbered events))
    (hdistinct : (result.stages.map (·.id)).Nodup)
    (hstarted : ∀ stage ∈ result.stages, stage.startedAt.isZero = false →
      (store.stages stage.id).isSome = true)
    (houtput : (events.flatMap (·.data)).length < 2 ^ 63)
    (hreport : (store.located result).marshal.length < 2 ^ 63) :
    (persistRunArtifacts answers root store result none).2.2 = [] := by
  have hnone : store.contents resultArtifactName = none := by
    rw [RunStore.contents, hlogged.artifacts]
    exact (logContent_artifacts store.stages).1
  have hwrite := h.writeArtifact hopened (by decide) hnone (store.located result).marshal
  have hcontents := contents_withArtifact hnone (some (store.located result).marshal)
  generalize hmiddle : store.withArtifact resultArtifactName
    (some (store.located result).marshal) = middle at hwrite hcontents
  have hsame : SameRun store middle := hmiddle ▸ ⟨rfl, rfl, rfl, rfl⟩
  have hstill : middle.closed = false := hmiddle ▸ hopened
  have hthere := hlogged.thereTarget hholds hstarted houtput hreport hsame hcontents
  have hrunID : middle.runID.trimSpace ≠ [] := by
    rw [hsame.runID, hlogged.run.plain.trimSpace]
    exact hlogged.run.plain.isSegment.nonempty
  have hne : store.targets result ≠ [] := List.cons_ne_nil _ _
  obtain ⟨manifest, hbuild⟩ := build_of_files hrunID hne (hlogged.distinct hdistinct)
    fun target htarget => ⟨hlogged.validTarget target htarget, hthere target htarget⟩
  have hfree : middle.contents artifactManifestName = none := by
    rw [hcontents, Function.update_of_ne (by decide), RunStore.contents, hlogged.artifacts]
    exact (logContent_artifacts store.stages).2
  have hmanifest := h.writeManifest hstill hfree hbuild
  unfold persistRunArtifacts
  dsimp only
  rw [hwrite]
  dsimp only
  rw [if_pos ⟨rfl, rfl⟩, hmanifest, h.close]
  rfl

variable {tree : FileTree} {root : GoString} {creating : CreateAnswers} {now : UTCTime}
  {store : RunStore} {plan : List Stage.Task} {environment : RunEnvironment} {clock : RunClock}
  {answers : ArtifactAnswers} {ran : RunResult} {events : List Event}

/-- INTERNAL: a run that is not refused has no fault on a system that answers. -/
theorem Answered.execute (h : Answered answers) (hplan : IsPlan plan)
    (hcreated : Created tree root store)
    (hrun : Stage.run environment root plan = .ok (ran, events))
    (houtput : (events.flatMap (·.data)).length < 2 ^ 63)
    (hreport : (store.located (reportedRun clock events ran)).marshal.length < 2 ^ 63) :
    (execute environment clock answers root plan store).2.2 = [] := by
  obtain ⟨log, hlog, hopened, hstarted⟩ := h.observeAll (run_streamed hrun)
  have hnumbered : logOfEvents answers.toLogFiles (numbered events) = (log, none) := by
    rw [logOfEvents_numbered, hlog]
  have hids : ((reportedRun clock events ran).stages.map (·.id)).Nodup := by
    have hsame : (reportedRun clock events ran).stages.map (·.id) = ran.stages.map (·.id) :=
      List.map_map
    rw [hsame, run_ids hrun]
    exact hplan.identifiers.2
  have hpersist := h.persist (hcreated.logged hplan hrun log) hopened (logHolds_run hnumbered) hids
    (fun stage hstage hzero => by
      obtain ⟨plain, -, rfl⟩ := List.mem_map.mp hstage
      dsimp only [reportedStage] at hzero
      split_ifs at hzero with hany
      · obtain ⟨event, hevent, hboth⟩ := List.any_eq_true.mp hany
        obtain ⟨hkind, hid⟩ := of_decide_eq_true hboth
        exact hid ▸ hstarted event hevent hkind
      · cases hzero) houtput hreport
  unfold RunLog.execute
  rw [hrun]
  dsimp only
  rw [hcreated.empty.1, hlog]
  dsimp only
  rw [hpersist]
  rfl

/-- **A run that is not refused leaves its evidence** on a system that answers. -/
theorem Answered.evidence (h : Answered answers) (hplan : IsPlan plan)
    (hcreated : Created tree root store)
    (hrun : Stage.run environment root plan = .ok (ran, events))
    (houtput : (events.flatMap (·.data)).length < 2 ^ 63)
    (hreport : (store.located (reportedRun clock events ran)).marshal.length < 2 ^ 63) :
    ∃ after manifest, RunLog.execute environment clock answers root plan store =
        (after, store.located (reportedRun clock events ran), []) ∧
      Evidence after root (store.located (reportedRun clock events ran)) events manifest := by
  have hfaults : (RunLog.execute environment clock answers root plan store).2.2 = [] :=
    h.execute hplan hcreated hrun houtput hreport
  generalize hexecute : RunLog.execute environment clock answers root plan store = executed
    at hfaults
  obtain ⟨after, result, faults⟩ := executed
  obtain rfl : faults = [] := hfaults
  obtain ⟨-, hleft, hresult⟩ := execute_leaves hcreated hplan hexecute
  obtain ⟨other, otherEvents, hother, rfl⟩ := hresult rfl
  obtain ⟨rfl, rfl⟩ := Prod.mk.inj (Except.ok.inj (hrun.symm.trans hother))
  rcases hleft with ⟨manifest, hevidence⟩ | ⟨hnone, -⟩
  · rw [sentEvents, hrun] at hevidence
    exact ⟨after, manifest, rfl, hevidence⟩
  · exact absurd rfl hnone

end Tickline.Analysis
