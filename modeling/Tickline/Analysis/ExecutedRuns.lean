import Tickline.Analysis.RunEvidence
import Tickline.Analysis.WorkflowPlans

/-!
# What a run leaves

Executing a plan comes to the evidence of the run, or to an error and no manifest
(`execute_leaves`), and leaves what was there before as it was (`execute_extends`).
-/

set_option autoImplicit false

namespace Tickline.Analysis

open Tickline.Library Tickline.Model Tickline.Model.Artifacts Tickline.Model.RunLog
open Tickline.Model.Report (ReportedRun ReportedStage UTCTime)
open Tickline.Model.Stage (Event NumberedEvent RunEnvironment RunResult StageResult Stream
  isIdentifier)

/-! ## Plans and logs -/

/-- A plan of a manifest that is valid. -/
def IsPlan (plan : List Stage.Task) : Prop :=
  ∃ (files : FileSystem) (root : GoString) (manifest : Stage.Manifest)
    (selection : Stage.Selection),
    manifest.validate files root = .ok () ∧ manifest.buildPlan selection = .ok plan

theorem IsPlan.identifiers {plan : List Stage.Task} (h : IsPlan plan) :
    (∀ id ∈ plan.map (·.id), isIdentifier id = true) ∧ (plan.map (·.id)).Nodup := by
  obtain ⟨files, root, manifest, selection, hvalid, hplan⟩ := h
  have hvalidated := validated_of_ok hvalid
  have hplanned := buildPlan_planned hvalidated hplan
  exact ⟨fun id hid => (hplanned.identifiers hvalidated id hid).1, hplanned.finds.nodup⟩

/-- The events of a run; one that is refused has none. -/
def sentEvents (environment : RunEnvironment) (root : GoString) (plan : List Stage.Task) :
    List Event :=
  match Stage.run environment root plan with
  | .ok (_, events) => events
  | .error _ => []

theorem logOfEvents_numbered (files : LogFiles) (events : List Event) :
    logOfEvents files (numbered events) = events.foldl (observeEvent files) ({}, none) := by
  have hevents : (numbered events).map (·.toEvent) = events := by
    rw [numbered, List.map_map]
    exact List.map_id events
  rw [logOfEvents, hevents]

variable {tree : FileTree} {root : GoString} {store after : RunStore} {plan : List Stage.Task}
  {environment : RunEnvironment} {clock : RunClock} {answers : ArtifactAnswers}
  {ran : RunResult} {events : List Event} {result : ReportedRun} {faults : List ExecuteFault}

/-- INTERNAL: the store of a run that was made with another log. -/
theorem Created.withLog (h : Created tree root store) (log : Store) :
    SameRun store { store with toStore := log } ∧
      OfRun { store with toStore := log } root :=
  have hsame : SameRun store { store with toStore := log } := ⟨rfl, rfl, rfl, rfl⟩
  ⟨hsame, hsame.ofRun h.toOfRun⟩

/-- INTERNAL: behind the events of a run, what the results return is in them. -/
theorem Created.logged (h : Created tree root store) (hplan : IsPlan plan)
    (hrun : Stage.run environment root plan = .ok (ran, events)) (log : Store) :
    Logged { store with toStore := log } root (reportedRun clock events ran) events where
  run := (h.withLog log).2
  artifacts := h.empty.2
  stages := by
    intro stage hstage
    obtain ⟨plain, hplain, rfl⟩ := List.mem_map.mp hstage
    have hid : plain.id ∈ plan.map (·.id) := by
      rw [← run_ids hrun]
      exact List.mem_map_of_mem hplain
    exact ⟨hplan.identifiers.1 plain.id hid,
      fun stream => run_output hplan.identifiers.2 hrun plain hplain stream⟩

/-- **What executing a plan comes to**: evidence, or a fault and no manifest. -/
theorem execute_leaves (hcreated : Created tree root store) (hplan : IsPlan plan)
    (h : execute environment clock answers root plan store = (after, result, faults)) :
    SameRun store after ∧
      ((∃ manifest, Evidence after root result (sentEvents environment root plan) manifest) ∨
        faults ≠ [] ∧ (answers.removes artifactManifestName = true →
          after.contents artifactManifestName = none)) ∧
      (faults = [] → ∃ ran events, Stage.run environment root plan = .ok (ran, events) ∧
        result = store.located (reportedRun clock events ran)) := by
  unfold execute at h
  cases hrun : Stage.run environment root plan with
  | error fault =>
    rw [hrun] at h
    dsimp only at h
    generalize hpersist : persistRunArtifacts answers root store {} none = persisted at h
    obtain ⟨behind, reported, evidenceFaults⟩ := persisted
    obtain ⟨rfl, rfl, rfl⟩ : _ ∧ _ ∧ _ := by simpa only [Prod.mk.injEq] using h
    obtain ⟨hsame, rfl, hpersisted⟩ := persist_persisted answers root store {} none hpersist
    have hlogged : Logged store root {} [] := ⟨hcreated.toOfRun, hcreated.empty.2, by simp⟩
    have hholds : LogHolds store.toStore (numbered []) := hcreated.empty.1 ▸ logHolds_new
    refine ⟨hsame, ?_, fun hnone => absurd hnone (List.cons_ne_nil _ _)⟩
    rw [sentEvents, hrun]
    rcases hlogged.evidence (fun _ => hholds) hsame hpersisted with hevidence | ⟨-, hgone⟩
    · exact .inl hevidence
    · exact .inr ⟨List.cons_ne_nil _ _, hgone⟩
  | ok pair =>
    obtain ⟨ran, events⟩ := pair
    rw [hrun] at h
    dsimp only at h
    generalize hlog : events.foldl (observeEvent answers.toLogFiles) (store.toStore, none) = logged
      at h
    obtain ⟨log, logWriteError⟩ := logged
    dsimp only at h
    generalize hpersist : persistRunArtifacts answers root { store with toStore := log }
      (reportedRun clock events ran) logWriteError = persisted at h
    obtain ⟨behind, reported, evidenceFaults⟩ := persisted
    obtain ⟨rfl, rfl, rfl⟩ : _ ∧ _ ∧ _ := by simpa only [Prod.mk.injEq] using h
    obtain ⟨hsame, rfl, hpersisted⟩ := persist_persisted answers root _ _ _ hpersist
    have hholds : logWriteError = none → LogHolds log (numbered events) := by
      rintro rfl
      have hnumbered : logOfEvents answers.toLogFiles (numbered events) = (log, none) := by
        rw [logOfEvents_numbered, ← hlog, hcreated.empty.1]
      exact logHolds_run hnumbered
    refine ⟨(hcreated.withLog log).1.trans hsame, ?_, fun _ => ⟨ran, events, rfl, rfl⟩⟩
    rw [sentEvents, hrun]
    rcases (hcreated.logged hplan hrun log).evidence hholds hsame hpersisted with
      hevidence | ⟨hfaults, hgone⟩
    · exact .inl hevidence
    · exact .inr ⟨by simpa using hfaults, hgone⟩

/-! ## Runs one after the other -/

/-- Runs one after the other, each on the files that the one before has left. -/
inductive RunsTo (root : GoString) : FileTree → FileTree → Prop
  | none (tree : FileTree) : RunsTo root tree tree
  | run {before tree : FileTree} {creating : CreateAnswers} {now : UTCTime}
      {environment : RunEnvironment} {clock : RunClock} {answers : ArtifactAnswers}
      {plan : List Stage.Task} {store after : RunStore} {result : ReportedRun}
      {faults : List ExecuteFault} (earlier : RunsTo root before tree) (hplan : IsPlan plan)
      (hcreate : create tree creating root now = .ok store)
      (hexecute : execute environment clock answers root plan store = (after, result, faults)) :
      RunsTo root before after.files

/-- INTERNAL: a run keeps everything that was there. -/
theorem execute_extends {creating : CreateAnswers} {now : UTCTime} (hplan : IsPlan plan)
    (hcreate : create tree creating root now = .ok store)
    (h : execute environment clock answers root plan store = (after, result, faults)) :
    Extends tree after.files := by
  have hcreated := create_ok hcreate
  obtain ⟨hsame, -, -⟩ := execute_leaves hcreated hplan h
  exact hcreated.extends_files hsame.absolute hsame.tree

end Tickline.Analysis
