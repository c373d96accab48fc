import Mathlib.Data.List.Perm.Subperm
import Tickline.Analysis.StageRuns
import Tickline.Model.Workflow

/-!
# Planning a plan again

A workflow is shown as the plan of its selection and run as the plan of the stages it is shown
with.  The second plan always exists and has the same stages (`Planned.replan`).  It has them in
the same order exactly when the selection tells the order of any two of them as all needed stages
together do (`KeepsOrder`, `replan_iff`).
-/

set_option autoImplicit false

namespace Tickline.Analysis

open Tickline.Library Tickline.Library.Checks Tickline.Model
open Tickline.Model.Stage (Manifest Selection tasksByID isIdentifier Catalog WorkflowPlan)

/-! ## The second plan -/

/-- The selection of some stages by their identifiers. -/
def onlyOf (ids : List GoString) : Selection := { only := ids }

/-- INTERNAL: identifiers are their own trimmed texts. -/
theorem map_trimSpace_eq {ids : List GoString} (h : ∀ id ∈ ids, isIdentifier id = true) :
    ids.map GoString.trimSpace = ids := by
  conv_rhs => rw [← List.map_id ids]
  exact List.map_congr_left fun id hid => trimSpace_eq (inStageList_of_isIdentifier (h id hid))

variable {manifest : Manifest} {selection : Selection} {plan : List Stage.Task}

/-- INTERNAL: the stages of a plan are stages of the manifest. -/
theorem Planned.mem (h : Planned manifest selection plan) {current : Stage.Task}
    (hcurrent : current ∈ plan) : current ∈ manifest.tasks :=
  (tasksByID_some (h.tasks current hcurrent)).1

theorem Planned.identifiers (h : Planned manifest selection plan) (hvalid : Validated manifest) :
    ∀ id ∈ plan.map (·.id), isIdentifier id = true ∧ (tasksByID manifest.tasks id).isSome := by
  intro id hid
  obtain ⟨current, hcurrent, rfl⟩ := List.mem_map.mp hid
  exact ⟨hvalid.identifiers current (h.mem hcurrent), by rw [h.tasks current hcurrent]; rfl⟩

/-- INTERNAL: a plan is closed under dependencies. -/
theorem Planned.closed (h : Planned manifest selection plan) :
    DepthFirst.Closed (dependenciesOf manifest) (plan.map (·.id)) := by
  simpa using h.finds.ordered.closed (by simp [DepthFirst.Closed])

/-- INTERNAL: a plan is no longer than the manifest. -/
theorem Planned.length_le (h : Planned manifest selection plan) :
    plan.length ≤ manifest.tasks.length := by
  have hsub : plan.map (·.id) ⊆ manifest.tasks.map (·.id) := by
    intro id hid
    obtain ⟨current, hcurrent, rfl⟩ := List.mem_map.mp hid
    exact List.mem_map_of_mem (h.mem hcurrent)
  simpa using (List.subperm_of_subset h.finds.nodup hsub).length_le

/-- INTERNAL: the stages of a plan are ranked by their places in it. -/
theorem Planned.ranked (h : Planned manifest selection plan) :
    DepthFirst.Ranked (Stage.planNeeds manifest.tasks []) (· ∈ plan.map (·.id))
      (DepthFirst.place (plan.map (·.id))) := by
  intro id hid
  obtain ⟨current, hcurrent, rfl⟩ := List.mem_map.mp hid
  refine ⟨current.dependencies, by simp [Stage.planNeeds, h.tasks current hcurrent], ?_⟩
  intro dependency hdependency
  have hdeps : dependency ∈ dependenciesOf manifest current.id := by
    simpa [dependenciesOf, h.tasks current hcurrent] using hdependency
  exact h.finds.ordered.place_lt h.finds.nodup hid hdeps

/-- **A plan can be planned again**: the selection of its stages has a plan. -/
theorem Planned.replan_ok (h : Planned manifest selection plan) (hvalid : Validated manifest) :
    ∃ again, manifest.buildPlan (onlyOf (plan.map (·.id))) = .ok again := by
  have honly : Stage.validateSelectionIDs manifest.tasks .only [] (plan.map (·.id)) =
      .ok (plan.map (·.id)) :=
    validateSelectionIDs_eq (h.identifiers hvalid) h.finds.nodup
  have hne : plan.map (·.id) ≠ [] := by simpa using h.nonempty
  have hroots : ∀ id ∈ (manifest.tasks.map (·.id)).filter (· ∈ plan.map (·.id)),
      id ∈ plan.map (·.id) ∧
        DepthFirst.place (plan.map (·.id)) id < manifest.tasks.length + 1 := by
    intro id hid
    have hmem : id ∈ plan.map (·.id) := of_decide_eq_true (List.mem_filter.mp hid).2
    have hlt := DepthFirst.place_lt_length hmem
    rw [List.length_map] at hlt
    exact ⟨hmem, by have := h.length_le; omega⟩
  obtain ⟨search, hsearch⟩ := DepthFirst.search_ok h.ranked hroots
  have hselected : manifest.selected (onlyOf (plan.map (·.id))) [] = .ok (plan.map (·.id)) := by
    unfold Manifest.selected onlyOf
    simp [hne, honly, bind, Except.bind, pure, Except.pure]
  obtain ⟨hfinds, haccepted⟩ := DepthFirst.search_finds hsearch
  have hordered : search.order.filterMap (tasksByID manifest.tasks) ≠ [] := by
    obtain ⟨current, hcurrent⟩ := List.exists_mem_of_ne_nil plan h.nonempty
    have hroot : current.id ∈ [] ++ search.order := by
      apply hfinds.roots_mem
      exact List.mem_filter.mpr ⟨List.mem_map_of_mem (h.mem hcurrent),
        decide_eq_true (List.mem_map_of_mem hcurrent)⟩
    exact List.ne_nil_of_mem (List.mem_filterMap.mpr ⟨_, hroot, h.tasks current hcurrent⟩)
  have hskip : Stage.validateSelectionIDs manifest.tasks .skip []
      (onlyOf (plan.map (·.id))).skip = .ok [] := rfl
  refine ⟨search.order.filterMap (tasksByID manifest.tasks), ?_⟩
  unfold Manifest.buildPlan
  simp only [hskip, hselected, hsearch, bind, Except.bind, Except.mapError, hordered, if_false,
    pure, Except.pure]

/-! ## Its stages and their order -/

/-- A stage is needed by a selection. -/
def NeededStage (manifest : Manifest) (selection : Selection) (id : GoString) : Prop :=
  ∃ root ∈ selectedStages manifest selection,
    DepthFirst.Needs (dependenciesOf manifest) root id

open Classical in
/-- All needed stages, in the manifest's order. -/
noncomputable def neededStages (manifest : Manifest) (selection : Selection) : List GoString :=
  (manifest.tasks.map (·.id)).filter fun id => NeededStage manifest selection id

theorem mem_neededStages {id : GoString} : id ∈ neededStages manifest selection ↔
    id ∈ manifest.tasks.map (·.id) ∧ NeededStage manifest selection id := by
  simp [neededStages]

/-- **The selection keeps the order**: for every two needed stages, the first selected stage (in
the manifest's order) that needs one of them and not the other, or where it needs both the first
of its dependencies that does, and so on, needs the same one of the two as the first needed stage
(in the manifest's order) that does. -/
def KeepsOrder (manifest : Manifest) (selection : Selection) : Prop :=
  ∀ a, NeededStage manifest selection a → ∀ b, NeededStage manifest selection b →
    (DepthFirst.Earlier (dependenciesOf manifest) (selectedStages manifest selection) a b ↔
      DepthFirst.Earlier (dependenciesOf manifest) (neededStages manifest selection) a b)

/-- A plan has the needed stages. -/
theorem Planned.mem_iff (h : Planned manifest selection plan) (id : GoString) :
    id ∈ plan.map (·.id) ↔ NeededStage manifest selection id := by
  constructor
  · exact h.finds.needed id
  · rintro ⟨root, hroot, hneeds⟩
    exact h.closed.needs (by simpa using h.finds.roots_mem root hroot) hneeds

/-- INTERNAL: the stages selected by a plan are the needed ones. -/
theorem Planned.selectedStages_onlyOf (h : Planned manifest selection plan)
    (hvalid : Validated manifest) :
    selectedStages manifest (onlyOf (plan.map (·.id))) = neededStages manifest selection := by
  have hne : plan.map (·.id) ≠ [] := by simpa using h.nonempty
  have htrim := map_trimSpace_eq fun id hid => (h.identifiers hvalid id hid).1
  unfold selectedStages neededStages
  rw [List.filter_map]
  congr 1
  apply List.filter_congr
  intro current _
  unfold selects onlyOf
  simp only [hne, if_false, htrim, Function.comp_apply]
  exact decide_eq_decide.mpr (h.mem_iff current.id)

/-- **The second plan has the same stages.** -/
theorem Planned.perm (h : Planned manifest selection plan) (hvalid : Validated manifest)
    {again : List Stage.Task} (hagain : Planned manifest (onlyOf (plan.map (·.id))) again) :
    (plan.map (·.id)).Perm (again.map (·.id)) := by
  rw [List.perm_ext_iff_of_nodup h.finds.nodup hagain.finds.nodup]
  intro id
  rw [hagain.mem_iff, NeededStage, h.selectedStages_onlyOf hvalid]
  constructor
  · intro hid
    refine ⟨id, mem_neededStages.mpr ⟨?_, (h.mem_iff id).mp hid⟩, .refl⟩
    obtain ⟨current, hcurrent, rfl⟩ := List.mem_map.mp hid
    exact List.mem_map_of_mem (h.mem hcurrent)
  · rintro ⟨root, hroot, hneeds⟩
    exact h.closed.needs ((h.mem_iff root).mpr (mem_neededStages.mp hroot).2) hneeds

/-- INTERNAL: stages that are looked up are those of their identifiers. -/
theorem filterMap_tasksByID_map {tasks stages : List Stage.Task}
    (h : ∀ current ∈ stages, tasksByID tasks current.id = some current) :
    (stages.map (·.id)).filterMap (tasksByID tasks) = stages := by
  induction stages with
  | nil => rfl
  | cons current stages ih =>
    obtain ⟨hcurrent, hrest⟩ := List.forall_mem_cons.mp h
    rw [List.map_cons, List.filterMap_cons_some hcurrent, ih hrest]

/-- INTERNAL: two plans with the same identifiers are one plan. -/
theorem Planned.eq_iff (h : Planned manifest selection plan) {selection' : Selection}
    {again : List Stage.Task} (hagain : Planned manifest selection' again) :
    again = plan ↔ plan.map (·.id) = again.map (·.id) := by
  constructor
  · rintro rfl
    rfl
  · intro hids
    rw [← filterMap_tasksByID_map h.tasks, ← filterMap_tasksByID_map hagain.tasks, hids]

/-- **The second plan is the first** exactly when the selection keeps the order. -/
theorem Planned.again_eq_iff (h : Planned manifest selection plan) (hvalid : Validated manifest)
    {again : List Stage.Task} (hagain : Planned manifest (onlyOf (plan.map (·.id))) again) :
    again = plan ↔ KeepsOrder manifest selection := by
  have hclosed : DepthFirst.Closed (dependenciesOf manifest) [] := by simp [DepthFirst.Closed]
  have hfirst := h.finds.pairwise hclosed
  have hsecond := hagain.finds.pairwise hclosed
  rw [h.selectedStages_onlyOf hvalid] at hsecond
  rw [h.eq_iff hagain, DepthFirst.eq_iff_of_pairwise (fun _ _ => DepthFirst.Earlier.asymm)
    (fun _ _ => DepthFirst.Earlier.asymm) hfirst hsecond (h.perm hvalid hagain)]
  unfold KeepsOrder
  simp only [h.mem_iff]

/-! ## Workflows -/

/-- INTERNAL: no identifier has a comma. -/
theorem comma_notMem {id : GoString} (h : isIdentifier id = true) : GoString.byte ',' ∉ id := by
  intro hmem
  rcases isIdentifierByte_or h hmem with hb | hb
  · exact absurd hb (by decide)
  · exact absurd hb (by decide)

/-- INTERNAL: identifiers with commas between them have no spaces at the ends. -/
theorem trimSpace_join {ids : List GoString} (h : ∀ id ∈ ids, isIdentifier id = true) :
    (GoString.join ids ',').trimSpace = GoString.join ids ',' := by
  apply trimSpace_eq
  intro b hb
  rcases mem_intercalate hb with hb | ⟨id, hid, hb⟩
  · obtain rfl := List.mem_singleton.mp hb
    decide
  · exact inStageList_of_isIdentifier (h id hid) b hb

/-- The identifiers of a plan come back from the joined list. -/
theorem splitStageList_join {ids : List GoString} (hne : ids ≠ [])
    (h : ∀ id ∈ ids, isIdentifier id = true) :
    Stage.splitStageList (GoString.join ids ',') = ids := by
  have hsplit : (GoString.join ids ',').split ',' = ids :=
    List.splitOn_intercalate _ (fun id hid => comma_notMem (h id hid)) hne
  have hjoin : GoString.join ids ',' ≠ [] := by
    intro hempty
    rw [hempty] at hsplit
    exact absurd (h [] (by simp [← hsplit, GoString.split])) (by decide)
  unfold Stage.splitStageList
  rw [trimSpace_join h, if_neg hjoin, hsplit, map_trimSpace_eq h]

/-- INTERNAL: the stages of a workflow are those of its plan. -/
theorem map_id_mapM {definition : Stage.Definition} {tasks : List Stage.Task}
    {stages : List Stage.PlannedStage} (h : tasks.mapM (Stage.planStage definition) = .ok stages) :
    stages.map (·.id) = tasks.map (·.id) := by
  induction tasks generalizing stages with
  | nil =>
    obtain rfl := pure_eq_ok.mp h
    rfl
  | cons current tasks ih =>
    simp only [List.mapM_cons, bind_ok_iff] at h
    obtain ⟨stage, hstage, rest, hrest, hstages⟩ := h
    obtain rfl := pure_eq_ok.mp hstages
    have hid : stage.id = current.id := by
      unfold Stage.planStage at hstage
      split at hstage
      · cases hstage
      · obtain rfl := Except.ok.inj hstage
        rfl
    rw [List.map_cons, List.map_cons, hid, ih hrest]

/-- INTERNAL: what a workflow is shown as. -/
theorem resolve_ok {catalog : Catalog} {id : GoString} {shown : WorkflowPlan}
    (h : catalog.resolve id manifest = .ok shown) :
    ∃ plan, manifest.buildPlan shown.definition.selection = .ok plan ∧
      shown.stageIDs = plan.map (·.id) := by
  unfold Catalog.resolve at h
  cases hfind : catalog.definitions.find? (·.id = id) with
  | none => simp [hfind, throw, throwThe, MonadExceptOf.throw] at h
  | some definition =>
    simp only [hfind, bind_ok_iff, mapError_eq_ok] at h
    obtain ⟨plan, hplan, stages, hstages, hshown⟩ := h
    obtain rfl := pure_eq_ok.mp hshown
    exact ⟨plan, hplan, map_id_mapM hstages⟩

/-- INTERNAL: what a workflow runs. -/
theorem runPlan_eq {catalog : Catalog} {id : GoString} {shown : WorkflowPlan}
    (h : catalog.resolve id manifest = .ok shown) (hne : shown.stageIDs ≠ [])
    (hids : ∀ id ∈ shown.stageIDs, isIdentifier id = true) :
    catalog.runPlan id manifest =
      (manifest.buildPlan (onlyOf shown.stageIDs)).mapError .check := by
  have hskip : Stage.splitStageList [] = [] := by decide
  unfold Catalog.runPlan Stage.checkPlan
  simp only [h, bind, Except.bind, hne, if_false, splitStageList_join hne hids, hskip]
  rfl

/-- A workflow runs the plan it shows. -/
def RunsShownPlan (catalog : Catalog) (id : GoString) (manifest : Manifest)
    (shown : WorkflowPlan) : Prop :=
  ∃ executed, catalog.runPlan id manifest = .ok executed ∧ executed.map (·.id) = shown.stageIDs

/-- **When planning a plan again gives it back.**  For every valid manifest and every selection
with a plan, planning the plan's stages again gives the plan back, and a workflow of that
selection runs the plan it shows, exactly when the selection keeps the order.
SRC: plan.go:8-127, catalog.go:147-222, workflow_run.go:15-89 -/
theorem replan_iff {files : FileSystem} {root : GoString}
    (hvalid : manifest.validate files root = .ok ()) :
    (∀ selection plan, manifest.buildPlan selection = .ok plan →
      (manifest.buildPlan (onlyOf (plan.map (·.id))) = .ok plan ↔
        KeepsOrder manifest selection)) ∧
    ∀ catalog id shown, catalog.resolve id manifest = .ok shown →
      (RunsShownPlan catalog id manifest shown ↔
        KeepsOrder manifest shown.definition.selection) := by
  have hvalidated := validated_of_ok hvalid
  constructor
  · intro selection plan hplan
    have hplanned := buildPlan_planned hvalidated hplan
    obtain ⟨again, hagain⟩ := hplanned.replan_ok hvalidated
    rw [← hplanned.again_eq_iff hvalidated (buildPlan_planned hvalidated hagain), hagain,
      Except.ok.injEq]
  · intro catalog id shown hshown
    obtain ⟨plan, hplan, hids⟩ := resolve_ok hshown
    have hplanned := buildPlan_planned hvalidated hplan
    obtain ⟨again, hagain⟩ := hplanned.replan_ok hvalidated
    have hne : shown.stageIDs ≠ [] := by
      rw [hids]
      simpa using hplanned.nonempty
    have hrun := runPlan_eq hshown hne fun id hid =>
      (hplanned.identifiers hvalidated id (hids ▸ hid)).1
    have hagainPlanned := buildPlan_planned hvalidated hagain
    rw [← hplanned.again_eq_iff hvalidated hagainPlanned, hplanned.eq_iff hagainPlanned]
    unfold RunsShownPlan
    rw [hrun, hids, hagain]
    constructor
    · rintro ⟨executed, hexecuted, hsame⟩
      obtain rfl := Except.ok.inj hexecuted
      exact hsame.symm
    · exact fun hsame => ⟨again, rfl, hsame.symm⟩

/-! ## A workflow that runs another order -/

/-- For the first stages of the shipped manifest. -/
theorem replan_iff_sample :
    (∀ selection plan, sampleManifest.buildPlan selection = .ok plan →
      (sampleManifest.buildPlan (onlyOf (plan.map (·.id))) = .ok plan ↔
        KeepsOrder sampleManifest selection)) ∧
    ∀ catalog id shown, catalog.resolve id sampleManifest = .ok shown →
      (RunsShownPlan catalog id sampleManifest shown ↔
        KeepsOrder sampleManifest shown.definition.selection) :=
  replan_iff (show sampleManifest.validate sampleFiles (.ascii "/r") = .ok () from rfl)

/-- Two stages that are not enabled, and one that needs both, the later one first. -/
def crossedManifest : Manifest where
  version := 1
  tasks := [
    stageOf "docs" "Documentation" "scripts/checks/docs.sh" false [] 0,
    stageOf "cpp" "C++ build and tests" "scripts/checks/cpp.sh" false [] 1,
    stageOf "python" "Python tests" "scripts/checks/python.sh" true ["cpp", "docs"] 2]

/-- **The built-in workflow is shown as `cpp`, `docs`, `python` and runs `docs`, `cpp`,
`python`.**
SRC: catalog.go:147-222, workflow_run.go:15-89 -/
theorem releaseReadiness_reorders :
    crossedManifest.validate sampleFiles (.ascii "/r") = .ok () ∧
      ∃ shown, Stage.builtInCatalog.resolve (.ascii "release-readiness") crossedManifest =
          .ok shown ∧
        ¬ RunsShownPlan Stage.builtInCatalog (.ascii "release-readiness") crossedManifest
          shown := by
  refine ⟨rfl, _, rfl, ?_⟩
  rintro ⟨executed, hexecuted, hsame⟩
  have hrun : (Stage.builtInCatalog.runPlan (.ascii "release-readiness") crossedManifest).map
      (·.map (·.id)) = .ok [.ascii "docs", .ascii "cpp", .ascii "python"] := rfl
  rw [hexecuted] at hrun
  have hids : executed.map (·.id) = [.ascii "docs", .ascii "cpp", .ascii "python"] :=
    Except.ok.inj hrun
  exact absurd (hids.symm.trans hsame) (by decide)

end Tickline.Analysis
