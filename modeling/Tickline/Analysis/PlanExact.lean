import Tickline.Analysis.WorkflowPlans
import Tickline.Library.SearchFaults

/-!
# When there is a plan

The stages of a list that depend on each other are a graph.  Looking for a cycle finds one exactly
where there is one (`validateAcyclic_exact`).  So in a manifest that was validated a plan fails
only where the selection is at fault, and a selection that is not has the plan that its stages
need (`buildPlan_exact`).
-/

set_option autoImplicit false

namespace Tickline.Analysis

open Tickline.Library Tickline.Library.Checks Tickline.Model
open Tickline.Model.Stage (Manifest Selection tasksByID)

/-! ## What validation has checked -/

/-- A stage of a list declares another as a dependency. -/
def DependsOn (tasks : List Stage.Task) (id dependency : GoString) : Prop :=
  ∃ current ∈ tasks, current.id = id ∧ dependency ∈ current.dependencies

/-- What validation has checked when it looks for a cycle. -/
structure Checked (tasks : List Stage.Task) : Prop where
  nodup : (tasks.map (·.id)).Nodup
  known : ∀ current ∈ tasks, ∀ dependency ∈ current.dependencies, dependency ∈ tasks.map (·.id)
  notItself : ∀ current ∈ tasks, current.id ∉ current.dependencies
  once : ∀ current ∈ tasks, current.dependencies.Nodup

variable {tasks : List Stage.Task}

/-- INTERNAL: the loop over the dependencies of one stage. -/
theorem validateDependencies_checks {current : Stage.Task} {seen dependencies : List GoString}
    (hseen : seen.Nodup)
    (h : Stage.validateDependencies tasks current seen dependencies = .ok ()) :
    current.id ∉ dependencies ∧ (seen ++ dependencies).Nodup := by
  induction dependencies generalizing seen with
  | nil => exact ⟨List.not_mem_nil, by rwa [List.append_nil]⟩
  | cons dependency rest ih =>
    simp only [Stage.validateDependencies, throw_bind, ite_error_eq_ok] at h
    obtain ⟨hself, -, hfresh, hrest⟩ := h
    have hmore : (seen ++ [dependency]).Nodup :=
      List.nodup_append.mpr ⟨hseen, List.nodup_singleton _, by
        intro a ha b hb heq
        obtain rfl := List.mem_singleton.mp hb
        exact hfresh (heq ▸ ha)⟩
    obtain ⟨hnot, hnodup⟩ := ih hmore hrest
    rw [List.append_assoc, List.singleton_append] at hnodup
    refine ⟨fun hmem => ?_, hnodup⟩
    rcases List.mem_cons.mp hmem with heq | hmem
    · exact hself heq.symm
    · exact hnot hmem

/-- **What `Validate` has checked before it looks for a cycle.**
SRC: task/manifest.go:159-220 -/
theorem checked_of_loops {files : FileSystem} {root : GoString}
    (htasks : Stage.validateTasks files root [] tasks = .ok ())
    (hdependencies : ∀ current ∈ tasks,
      Stage.validateDependencies tasks current [] current.dependencies = .ok ()) :
    Checked tasks where
  nodup := (validateTasks_ok htasks).2
  known current hcurrent dependency hdependency :=
    isSome_tasksByID.mp (validateDependencies_ok (hdependencies current hcurrent) _ hdependency)
  notItself current hcurrent :=
    (validateDependencies_checks List.nodup_nil (hdependencies current hcurrent)).1
  once current hcurrent := by
    simpa using (validateDependencies_checks List.nodup_nil (hdependencies current hcurrent)).2

/-- INTERNAL: the lookup of dependencies, where no two stages have one identifier. -/
theorem mem_dependenciesOf_iff {manifest : Manifest} (hnodup : (manifest.tasks.map (·.id)).Nodup)
    {id dependency : GoString} :
    dependency ∈ dependenciesOf manifest id ↔ DependsOn manifest.tasks id dependency := by
  unfold dependenciesOf DependsOn
  cases hid : tasksByID manifest.tasks id with
  | none =>
    simp only [Option.map_none, Option.getD_none, List.not_mem_nil, false_iff]
    rintro ⟨current, hcurrent, hsame, -⟩
    exact absurd (tasksByID_isSome.mpr ⟨current, hcurrent, hsame⟩) (by simp [hid])
  | some current =>
    obtain ⟨hcurrent, hsame⟩ := tasksByID_some hid
    simp only [Option.map_some, Option.getD_some]
    constructor
    · exact fun hdependency => ⟨current, hcurrent, hsame, hdependency⟩
    · rintro ⟨other, hother, hotherId, hdependency⟩
      rwa [List.inj_on_of_nodup_map hnodup hcurrent hother (hsame.trans hotherId.symm)]

/-- INTERNAL: the lookup of dependencies as a relation. -/
theorem dependenciesOf_rel (manifest : Manifest) (hnodup : (manifest.tasks.map (·.id)).Nodup) :
    (fun a b => b ∈ dependenciesOf manifest a) = DependsOn manifest.tasks := by
  funext a b
  exact propext (mem_dependenciesOf_iff hnodup)

/-! ## Cycles -/

/-- A cycle of stages: each depends on the next, the last is the first again, and no other comes
twice. -/
structure GenuineCycle (tasks : List Stage.Task) (stages : List GoString) : Prop where
  closed : ∃ first inner, stages = first :: inner ++ [first] ∧ (first :: inner).Nodup
  steps : stages.IsChain (DependsOn tasks)

/-- The search that looks for a cycle. -/
def acyclicSearch (tasks : List Stage.Task) (fuel : ℕ) :
    Except (DepthFirst.Fault GoString Empty) (DepthFirst.Search GoString) :=
  DepthFirst.visitAll (Stage.acyclicNeeds tasks) fuel (tasks.map (·.id)) .fresh

/-- INTERNAL: what the search visits behind a stage. -/
theorem neededBy_acyclicNeeds (manifest : Manifest) :
    DepthFirst.neededBy (Stage.acyclicNeeds manifest.tasks) = dependenciesOf manifest := by
  funext id
  unfold DepthFirst.neededBy Stage.acyclicNeeds dependenciesOf
  cases tasksByID manifest.tasks id <;> rfl

/-- INTERNAL: a search that ends has ordered the stages, so that none is behind itself. -/
theorem acyclic_of_search (hnodup : (tasks.map (·.id)).Nodup) {fuel : ℕ}
    {search : DepthFirst.Search GoString} (h : acyclicSearch tasks fuel = .ok search)
    (id : GoString) : ¬ Relation.TransGen (DependsOn tasks) id id := by
  intro hself
  obtain ⟨hfinds, -⟩ := DepthFirst.search_finds h
  rw [neededBy_acyclicNeeds ⟨1, tasks⟩] at hfinds
  obtain ⟨dependency, ⟨current, hcurrent, rfl, -⟩, -⟩ := Relation.TransGen.head'_iff.mp hself
  have hmem : current.id ∈ search.order := by
    simpa using hfinds.roots_mem _ (List.mem_map_of_mem hcurrent)
  rw [← dependenciesOf_rel ⟨1, tasks⟩ hnodup] at hself
  exact hfinds.ordered.not_needs_itself hfinds.nodup hmem hself

/-- INTERNAL: a search that fails has found a cycle on its stack. -/
theorem cycle_of_search (hnodup : (tasks.map (·.id)).Nodup)
    {fault : DepthFirst.Fault GoString Empty}
    (h : acyclicSearch tasks (tasks.length + 1) = .error fault) :
    ∃ front id inner, fault = .cycle (front ++ id :: inner) id ∧
      (front ++ id :: inner).dropWhile (· ≠ id) = id :: inner ∧
      GenuineCycle tasks (id :: inner ++ [id]) := by
  have hexplained := DepthFirst.search_fault h
  cases fault with
  | cycle stack id =>
    obtain ⟨hstack, hid, hpath⟩ := hexplained
    rw [neededBy_acyclicNeeds ⟨1, tasks⟩] at hpath
    obtain ⟨front, inner, rfl, hdrop, hcycle⟩ :=
      DepthFirst.isCycle_dropWhile hstack hid hpath.steps
    exact ⟨front, id, inner, rfl, hdrop, hcycle.closed,
      hcycle.steps.imp fun a b hab => (mem_dependenciesOf_iff hnodup).mp hab⟩
  | refused stack cause => exact cause.elim
  | exhausted => exact absurd h (acyclicSearch_not_exhausted tasks)

/-- INTERNAL: a stage on a cycle is behind itself. -/
theorem GenuineCycle.itself {stages : List GoString} (h : GenuineCycle tasks stages)
    (hnodup : (tasks.map (·.id)).Nodup) :
    ∃ id, Relation.TransGen (DependsOn tasks) id id := by
  have hcycle : DepthFirst.IsCycle (dependenciesOf ⟨1, tasks⟩) stages :=
    ⟨h.closed, h.steps.imp fun a b hab => (mem_dependenciesOf_iff hnodup).mpr hab⟩
  obtain ⟨id, -, hself⟩ := hcycle.needs_itself
  rw [dependenciesOf_rel ⟨1, tasks⟩ hnodup] at hself
  exact ⟨id, hself⟩

/-- INTERNAL: what the check says of the search. -/
theorem validateAcyclic_cases (hnodup : (tasks.map (·.id)).Nodup) :
    (∃ search, acyclicSearch tasks (tasks.length + 1) = .ok search ∧
        Stage.validateAcyclic tasks = .ok ()) ∨
      ∃ front id inner,
        acyclicSearch tasks (tasks.length + 1) = .error (.cycle (front ++ id :: inner) id) ∧
          Stage.validateAcyclic tasks = .error (.cycle (id :: inner ++ [id])) ∧
            GenuineCycle tasks (id :: inner ++ [id]) := by
  cases hsearch : acyclicSearch tasks (tasks.length + 1) with
  | ok search =>
    refine .inl ⟨search, rfl, ?_⟩
    unfold acyclicSearch at hsearch
    rw [Stage.validateAcyclic, hsearch]
  | error fault =>
    obtain ⟨front, id, inner, rfl, hdrop, hcycle⟩ := cycle_of_search hnodup hsearch
    refine .inr ⟨front, id, inner, rfl, ?_, hcycle⟩
    unfold acyclicSearch at hsearch
    rw [Stage.validateAcyclic, hsearch]
    simp only [hdrop]

/-- INTERNAL: there is no error exactly where there is no cycle. -/
theorem validateAcyclic_ok_iff (hnodup : (tasks.map (·.id)).Nodup) :
    Stage.validateAcyclic tasks = .ok () ↔
      ∀ id, ¬ Relation.TransGen (DependsOn tasks) id id := by
  rcases validateAcyclic_cases hnodup with ⟨search, hsearch, hok⟩ | ⟨front, id, inner, -, herror,
    hcycle⟩
  · exact iff_of_true hok (acyclic_of_search hnodup hsearch)
  · obtain ⟨other, hself⟩ := hcycle.itself hnodup
    rw [herror]
    exact iff_of_false (by simp) fun hacyclic => hacyclic other hself

/-- **Looking for a cycle is exact**: the search ends, and does not change with more fuel; there is
no error exactly where no stage depends on itself through others; and an error names a cycle, of
which the search had the stages at the end of its stack.
SRC: task/manifest.go:360-421 -/
theorem validateAcyclic_exact (h : Checked tasks) :
    (∀ fuel, tasks.length < fuel →
      acyclicSearch tasks fuel = acyclicSearch tasks (tasks.length + 1) ∧
        acyclicSearch tasks fuel ≠ .error .exhausted) ∧
    (Stage.validateAcyclic tasks = .ok () ↔
      ∀ id, ¬ Relation.TransGen (DependsOn tasks) id id) ∧
    ∀ fault, Stage.validateAcyclic tasks = .error fault → ∃ front id inner,
      acyclicSearch tasks (tasks.length + 1) = .error (.cycle (front ++ id :: inner) id) ∧
        fault = .cycle (id :: inner ++ [id]) ∧ GenuineCycle tasks (id :: inner ++ [id]) := by
  have hends := acyclicSearch_not_exhausted tasks
  refine ⟨fun fuel hfuel => ?_, validateAcyclic_ok_iff h.nodup, fun fault hfault => ?_⟩
  · have hsame : acyclicSearch tasks fuel = acyclicSearch tasks (tasks.length + 1) :=
      DepthFirst.visitAll_eq_of_le hends hfuel
    exact ⟨hsame, hsame ▸ hends⟩
  · rcases validateAcyclic_cases h.nodup with ⟨-, -, hok⟩ | ⟨front, id, inner, hsearch, herror,
      hcycle⟩
    · rw [hok] at hfault
      cases hfault
    · rw [herror] at hfault
      exact ⟨front, id, inner, hsearch, (Except.error.inj hfault).symm, hcycle⟩

/-- Two stages that depend on each other. -/
def circularStages : List Stage.Task := [
  stageOf "docs" "Documentation" "scripts/checks/docs.sh" true ["cpp"] 0,
  stageOf "cpp" "C++ build and tests" "scripts/checks/cpp.sh" true ["docs"] 1]

/-- The check of the two stages. -/
theorem validateAcyclic_exact_circular :
    Stage.validateAcyclic circularStages = .ok () ↔
      ∀ id, ¬ Relation.TransGen (DependsOn circularStages) id id := by
  have htasks : Stage.validateTasks sampleFiles (.ascii "/r") [] circularStages = .ok () := rfl
  have hdependencies : ∀ current ∈ circularStages,
      Stage.validateDependencies circularStages current [] current.dependencies = .ok () := by
    refine List.forall_mem_cons.mpr ⟨rfl, List.forall_mem_cons.mpr ⟨rfl, ?_⟩⟩
    simp
  exact (validateAcyclic_exact (checked_of_loops htasks hdependencies)).2.1

/-- **A manifest that was validated** has no cycle.
SRC: task/manifest.go:144-227 -/
theorem acyclic_of_ok {files : FileSystem} {root : GoString} {manifest : Manifest}
    (h : manifest.validate files root = .ok ()) : Checked manifest.tasks ∧
      ∀ id, ¬ Relation.TransGen (DependsOn manifest.tasks) id id := by
  unfold Manifest.validate at h
  simp only [throw_bind, ite_error_eq_ok, bind_ok_iff, mapError_eq_ok] at h
  obtain ⟨-, absoluteRoot, -, _, htasks, _, hdependencies, hacyclic⟩ := h
  have hchecked := checked_of_loops htasks (forIn_eq_ok.mp hdependencies)
  exact ⟨hchecked, (validateAcyclic_ok_iff hchecked.nodup).mp hacyclic⟩

/-! ## Selections -/

/-- **A selection that has a plan.** -/
structure Selectable (manifest : Manifest) (selection : Selection) : Prop where
  only : SelectionOk manifest.tasks selection.only
  skip : SelectionOk manifest.tasks selection.skip
  apart : ∀ id ∈ selection.only.map GoString.trimSpace,
    id ∉ selection.skip.map GoString.trimSpace
  nonempty : selectedStages manifest selection ≠ []
  allowed : ∀ root ∈ selectedStages manifest selection,
    ∀ id ∈ selection.skip.map GoString.trimSpace, ¬ Requires manifest root id

/-- INTERNAL: no skipped stage is selected. -/
theorem selectedStages_not_skipped {manifest : Manifest} {selection : Selection}
    (happart : ∀ id ∈ selection.only.map GoString.trimSpace,
      id ∉ selection.skip.map GoString.trimSpace) {id : GoString}
    (h : id ∈ selectedStages manifest selection) :
    id ∉ selection.skip.map GoString.trimSpace := by
  obtain ⟨current, hcurrent, rfl⟩ := List.mem_map.mp h
  have hselects := (List.mem_filter.mp hcurrent).2
  unfold selects at hselects
  split_ifs at hselects with honly
  · exact of_decide_eq_true (Bool.and_eq_true_iff.mp hselects).2
  · exact happart _ (of_decide_eq_true hselects)

/-- INTERNAL: when the two parts of a selection name stages together. -/
theorem selected_ok_iff {manifest : Manifest} {selection : Selection} {skipped : List GoString} :
    (∃ selected, manifest.selected selection skipped = .ok selected) ↔
      SelectionOk manifest.tasks selection.only ∧
        ∀ id ∈ selection.only.map GoString.trimSpace, id ∉ skipped := by
  unfold Manifest.selected
  by_cases honly : selection.only = []
  · have hok : SelectionOk manifest.tasks selection.only := by
      rw [honly]
      exact ⟨by simp, by simp, by simp⟩
    simp only [honly, if_true, pure_bind, ne_eq, not_true, false_and, if_false, List.map_nil,
      List.not_mem_nil, false_implies, implies_true, and_true]
    rw [honly] at hok
    exact iff_of_true ⟨_, rfl⟩ hok
  · simp only [honly, if_false, ne_eq, not_false_eq_true, true_and, throw_bind, bind_ok_iff,
      ite_error_eq_ok, validateSelectionIDs_ok_iff]
    constructor
    · rintro ⟨selected, chosen, ⟨rfl, hok⟩, hboth, -⟩
      exact ⟨hok, fun id hid hskipped =>
        hboth (List.any_eq_true.mpr ⟨id, hskipped, decide_eq_true hid⟩)⟩
    · rintro ⟨hok, happart⟩
      refine ⟨_, _, ⟨rfl, hok⟩, fun hboth => ?_, rfl⟩
      obtain ⟨id, hskipped, hid⟩ := List.any_eq_true.mp hboth
      exact happart id (of_decide_eq_true hid) hskipped

/-! ## Plans -/

variable {manifest : Manifest} {selection : Selection}

/-- INTERNAL: what the search of a plan visits behind a stage are dependencies of it. -/
theorem mem_planNeeds (hnodup : (manifest.tasks.map (·.id)).Nodup) {skipped : List GoString}
    {id dependency : GoString}
    (h : dependency ∈ DepthFirst.neededBy (Stage.planNeeds manifest.tasks skipped) id) :
    DependsOn manifest.tasks id dependency := by
  unfold DepthFirst.neededBy at h
  cases hneeds : Stage.planNeeds manifest.tasks skipped id with
  | error cause => simp [hneeds] at h
  | ok ids =>
    rw [hneeds] at h
    obtain ⟨rfl, -⟩ := planNeeds_ok hneeds
    exact (mem_dependenciesOf_iff hnodup).mp h

/-- INTERNAL: what a stage needs is the stage itself or something it requires. -/
theorem needs_iff (hnodup : (manifest.tasks.map (·.id)).Nodup) {id other : GoString} :
    DepthFirst.Needs (dependenciesOf manifest) id other ↔ other = id ∨ Requires manifest id other := by
  unfold DepthFirst.Needs
  rw [dependenciesOf_rel manifest hnodup, Relation.reflTransGen_iff_eq_or_transGen]
  rfl

/-- INTERNAL: a path of the search of a plan leads to a root or to something a root requires. -/
theorem path_requires (hnodup : (manifest.tasks.map (·.id)).Nodup)
    {skipped roots path : List GoString} {id : GoString}
    (h : DepthFirst.Path (DepthFirst.neededBy (Stage.planNeeds manifest.tasks skipped)) roots
      (path ++ [id])) :
    ∃ root ∈ roots, id = root ∨ Requires manifest root id := by
  obtain ⟨root, hroot, hneeds⟩ := h.needed
  refine ⟨root, hroot, (needs_iff hnodup).mp (Relation.ReflTransGen.mono ?_ _ _ hneeds)⟩
  exact fun a b hab => (mem_dependenciesOf_iff hnodup).mpr (mem_planNeeds hnodup hab)

/-- INTERNAL: what a stage of the manifest requires is a stage of the manifest. -/
theorem Checked.requires_known (h : Checked manifest.tasks) {id other : GoString}
    (hrequires : Requires manifest id other) : other ∈ manifest.tasks.map (·.id) := by
  obtain ⟨before, -, current, hcurrent, -, hdependency⟩ :=
    Relation.TransGen.tail'_iff.mp hrequires
  exact h.known current hcurrent other hdependency

/-- **The only fault of a search for a plan**: a skipped stage that a root requires. -/
theorem planSearch_fault (h : Checked manifest.tasks)
    (hacyclic : ∀ id, ¬ Relation.TransGen (DependsOn manifest.tasks) id id)
    {skipped roots : List GoString} (hroots : ∀ root ∈ roots, root ∈ manifest.tasks.map (·.id))
    {fault : DepthFirst.Fault GoString Stage.StageFault}
    (hsearch : DepthFirst.visitAll (Stage.planNeeds manifest.tasks skipped)
      (manifest.tasks.length + 1) roots .fresh = .error fault) :
    ∃ stack id, fault = .refused stack (.requiredButSkipped id) ∧ id ∈ skipped ∧
      ∃ root ∈ roots, id = root ∨ Requires manifest root id := by
  have hexplained := DepthFirst.search_fault hsearch
  cases fault with
  | cycle stack id =>
    obtain ⟨hstack, hid, hpath⟩ := hexplained
    obtain ⟨front, inner, -, -, hcycle⟩ := DepthFirst.isCycle_dropWhile hstack hid hpath.steps
    obtain ⟨other, -, hself⟩ := hcycle.needs_itself
    have hcycle' : Relation.TransGen (DependsOn manifest.tasks) other other :=
      Relation.TransGen.mono (fun a b hab => mem_planNeeds h.nodup hab) _ _ hself
    exact absurd hcycle' (hacyclic other)
  | exhausted => exact absurd hsearch (buildPlan_search_not_exhausted _ _ _)
  | refused stack cause =>
    obtain ⟨id, hneeds, hpath⟩ := hexplained
    obtain ⟨root, hroot, hid⟩ := path_requires h.nodup hpath
    have hknown : id ∈ manifest.tasks.map (·.id) := by
      rcases hid with rfl | hrequires
      · exact hroots _ hroot
      · exact h.requires_known hrequires
    unfold Stage.planNeeds at hneeds
    split_ifs at hneeds with hskipped
    · obtain rfl := Except.error.inj hneeds
      exact ⟨stack, id, rfl, hskipped, root, hroot, hid⟩
    · obtain ⟨current, hcurrent⟩ := Option.isSome_iff_exists.mp (isSome_tasksByID.mpr hknown)
      simp [hcurrent] at hneeds

/-- INTERNAL: selected stages are stages of the manifest. -/
theorem selectedStages_known {id : GoString} (h : id ∈ selectedStages manifest selection) :
    id ∈ manifest.tasks.map (·.id) := by
  obtain ⟨current, hcurrent, rfl⟩ := List.mem_map.mp h
  exact List.mem_map_of_mem (List.mem_filter.mp hcurrent).1

/-- INTERNAL: a selection with a plan is in order. -/
theorem selectable_of_plan (hvalid : Validated manifest) {plan : List Stage.Task}
    (h : manifest.buildPlan selection = .ok plan) : Selectable manifest selection := by
  have hplanned := buildPlan_planned hvalid h
  unfold Manifest.buildPlan at h
  simp only [bind_ok_iff, mapError_eq_ok, throw_bind, ite_error_eq_ok] at h
  obtain ⟨skipped, hskip, selected, hselected, search, hsearch, -, -⟩ := h
  have hroots := filter_selected hvalid hskip hselected
  obtain ⟨hfinds, haccepted⟩ := DepthFirst.search_finds hsearch
  obtain ⟨rfl, hskipOk⟩ := validateSelectionIDs_ok_iff.mp hskip
  obtain ⟨honlyOk, happart⟩ := selected_ok_iff.mp ⟨selected, hselected⟩
  refine ⟨honlyOk, hskipOk, happart, ?_, ?_⟩
  · intro hnil
    have hfound := hplanned.finds
    rw [hnil] at hfound
    generalize hids : plan.map (·.id) = ids at hfound
    cases hfound
    exact hplanned.nonempty (List.map_eq_nil_iff.mp hids)
  · intro root hroot id hid hrequires
    -- everything a root requires is found, and nothing that is found is skipped
    rw [hroots] at hfinds
    have hfinds' : DepthFirst.Finds (dependenciesOf manifest) [] []
        (selectedStages manifest selection) search.order := by
      apply hfinds.congr
      intro a ha
      obtain ⟨ids, hneeds⟩ := haccepted a ha
      rw [← (planNeeds_ok hneeds).1, DepthFirst.neededBy, hneeds]
    have hclosed : DepthFirst.Closed (dependenciesOf manifest) search.order := by
      simpa using hfinds'.ordered.closed (by simp [DepthFirst.Closed])
    have hmem : id ∈ search.order :=
      hclosed.needs (by simpa using hfinds'.roots_mem root hroot)
        ((needs_iff hvalid.nodup).mpr (.inr hrequires))
    obtain ⟨ids, hneeds⟩ := haccepted id hmem
    simp [Stage.planNeeds, hid] at hneeds

/-- INTERNAL: a selection that is in order has a plan. -/
theorem plan_of_selectable (hvalid : Validated manifest) (hchecked : Checked manifest.tasks)
    (hacyclic : ∀ id, ¬ Relation.TransGen (DependsOn manifest.tasks) id id)
    (h : Selectable manifest selection) : ∃ plan, manifest.buildPlan selection = .ok plan := by
  have hskip : Stage.validateSelectionIDs manifest.tasks .skip [] selection.skip =
      .ok (selection.skip.map GoString.trimSpace) :=
    validateSelectionIDs_ok_iff.mpr ⟨rfl, h.skip⟩
  obtain ⟨selected, hselected⟩ := selected_ok_iff.mpr ⟨h.only, h.apart⟩
  have hroots := filter_selected hvalid hskip hselected
  cases hsearch : DepthFirst.visitAll
      (Stage.planNeeds manifest.tasks (selection.skip.map GoString.trimSpace))
      (manifest.tasks.length + 1) (selectedStages manifest selection) .fresh with
  | error fault =>
    obtain ⟨stack, id, -, hid, root, hroot, hreached⟩ :=
      planSearch_fault hchecked hacyclic (fun root => selectedStages_known) hsearch
    rcases hreached with rfl | hrequires
    · exact absurd hid (selectedStages_not_skipped h.apart hroot)
    · exact absurd hrequires (h.allowed root hroot id hid)
  | ok search =>
    obtain ⟨hfinds, -⟩ := DepthFirst.search_finds hsearch
    obtain ⟨root, hroot⟩ := List.exists_mem_of_ne_nil _ h.nonempty
    obtain ⟨current, hcurrent⟩ :=
      Option.isSome_iff_exists.mp (isSome_tasksByID.mpr (selectedStages_known hroot))
    have hfound : root ∈ search.order := by simpa using hfinds.roots_mem root hroot
    have hordered : search.order.filterMap (tasksByID manifest.tasks) ≠ [] :=
      List.ne_nil_of_mem (List.mem_filterMap.mpr ⟨root, hfound, hcurrent⟩)
    refine ⟨search.order.filterMap (tasksByID manifest.tasks), ?_⟩
    unfold Manifest.buildPlan
    simp only [hskip, hselected, hroots, hsearch, bind, Except.bind, Except.mapError, hordered,
      if_false, pure, Except.pure]

/-! ## The order of maps -/

/-- INTERNAL: the keys of a map that is filled in some order. -/
theorem mem_foldl_insertKey {ids selected : List GoString} {id : GoString} :
    id ∈ ids.foldl Stage.insertKey selected ↔ id ∈ selected ∨ id ∈ ids := by
  induction ids generalizing selected with
  | nil => simp
  | cons first ids ih =>
    rw [List.foldl_cons, ih, List.mem_cons, Stage.insertKey]
    split_ifs with hmem
    · constructor
      · rintro (h | h)
        · exact .inl h
        · exact .inr (.inr h)
      · rintro (h | rfl | h)
        · exact .inl h
        · exact .inl hmem
        · exact .inr h
    · simp [or_assoc]

/-- INTERNAL: the loop that deletes skipped stages, in any order. -/
theorem deleteSkipped_eq {skipped selected : List GoString} :
    Stage.deleteSkipped selection skipped selected =
      if selection.only ≠ [] ∧ skipped.any (· ∈ selected) then .error .inBothSelections
      else .ok (selected.filter (· ∉ skipped)) := by
  induction skipped generalizing selected with
  | nil => simp [Stage.deleteSkipped, pure, Except.pure]
  | cons id rest ih =>
    rw [Stage.deleteSkipped]
    by_cases hboth : id ∈ selected ∧ selection.only ≠ []
    · rw [if_pos hboth, if_pos ⟨hboth.2, by simp [hboth.1]⟩]
      rfl
    · have hany : selection.only ≠ [] →
          rest.any (· ∈ selected.filter (· ≠ id)) = (id :: rest).any (· ∈ selected) := by
        intro honly
        have hid : id ∉ selected := fun h => hboth ⟨h, honly⟩
        rw [List.any_cons, decide_eq_false hid, Bool.false_or,
          List.filter_eq_self.mpr fun a ha =>
            decide_eq_true (show a ≠ id from fun heq => hid (heq ▸ ha))]
      have hfilter : (selected.filter (· ≠ id)).filter (· ∉ rest) =
          selected.filter (· ∉ id :: rest) := by
        rw [List.filter_filter]
        exact List.filter_congr fun a _ => by simp [Bool.and_comm]
      rw [if_neg hboth]
      show Stage.deleteSkipped selection rest (selected.filter (· ≠ id)) = _
      rw [ih, hfilter]
      by_cases honly : selection.only = []
      · rw [if_neg (fun h => h.1 honly), if_neg (fun h => h.1 honly)]
      · rw [hany honly]

/-- INTERNAL: the stages that remain selected are the same in any order. -/
theorem selectedInOrder_roots (manifest : Manifest) (selection : Selection)
    (orders : Stage.MapOrders) (skipped : List GoString) :
    (manifest.selectedInOrder selection orders skipped).map
        (fun selected => (manifest.tasks.map (·.id)).filter (· ∈ selected)) =
      (manifest.selected selection skipped).map
        (fun selected => (manifest.tasks.map (·.id)).filter (· ∈ selected)) := by
  have hsame : ∀ chosen chosen' : List GoString, (∀ id, id ∈ chosen ↔ id ∈ chosen') →
      (Stage.deleteSkipped selection (orders.skipped skipped) chosen).map
          (fun selected => (manifest.tasks.map (·.id)).filter (· ∈ selected)) =
        (if selection.only ≠ [] ∧ skipped.any (· ∈ chosen') then
          (.error .inBothSelections : Except Stage.PlanFault (List GoString))
        else .ok (chosen'.filter (· ∉ skipped))).map
          (fun selected => (manifest.tasks.map (·.id)).filter (· ∈ selected)) := by
    intro chosen chosen' hmem
    have hperm := orders.skipped_perm skipped
    have hany : (orders.skipped skipped).any (· ∈ chosen) = skipped.any (· ∈ chosen') := by
      rw [Bool.eq_iff_iff, List.any_eq_true, List.any_eq_true]
      simp only [decide_eq_true_eq, hmem, hperm.mem_iff]
    rw [deleteSkipped_eq, hany]
    split_ifs
    · rfl
    · refine congrArg Except.ok (List.filter_congr fun id _ => ?_)
      simp only [List.mem_filter, hmem, hperm.mem_iff]
  unfold Manifest.selectedInOrder Manifest.selected
  by_cases honly : selection.only = []
  · simp only [honly, if_true, pure_bind]
    have hchosen : ∀ id, id ∈ ((manifest.tasks.filter (·.enabledByDefault)).map (·.id)).foldl
        Stage.insertKey [] ↔ id ∈ (manifest.tasks.filter (·.enabledByDefault)).map (·.id) := by
      intro id
      rw [mem_foldl_insertKey]
      simp
    rw [hsame _ _ hchosen, honly]
    rfl
  · simp only [honly, if_false, throw_bind]
    cases hvalues : Stage.validateSelectionIDs manifest.tasks .only [] selection.only with
    | error fault => rfl
    | ok ids =>
      have hchosen : ∀ id, id ∈ (orders.only ids).foldl Stage.insertKey [] ↔ id ∈ ids := by
        intro id
        rw [mem_foldl_insertKey, (orders.only_perm ids).mem_iff]
        simp
      exact hsame _ _ hchosen

/-- **The order of Go's maps does not matter.**
SRC: plan.go:26-58 -/
theorem buildPlanInOrder_eq (manifest : Manifest) (selection : Selection)
    (orders : Stage.MapOrders) :
    manifest.buildPlanInOrder selection orders = manifest.buildPlan selection := by
  unfold Manifest.buildPlanInOrder Manifest.buildPlan
  cases hskip : Stage.validateSelectionIDs manifest.tasks .skip [] selection.skip with
  | error fault => rfl
  | ok skipped =>
    have hroots := selectedInOrder_roots manifest selection orders skipped
    cases hselected : manifest.selectedInOrder selection orders skipped with
    | error fault =>
      rw [hselected] at hroots
      cases hother : manifest.selected selection skipped with
      | error other =>
        rw [hother] at hroots
        simp only [bind, Except.bind, hselected, hother, Except.error.inj hroots]
      | ok selected =>
        rw [hother] at hroots
        cases hroots
    | ok selected =>
      rw [hselected] at hroots
      cases hother : manifest.selected selection skipped with
      | error other =>
        rw [hother] at hroots
        cases hroots
      | ok other =>
        rw [hother] at hroots
        have hsame := Except.ok.inj hroots
        simp only [bind, Except.bind, hselected, hother, hsame]

/-! ## Plans are exact -/

/-- **The plan of the stages that a selection needs**: exactly these, each once and as the manifest
has it, behind everything it depends on. -/
structure ExactPlan (manifest : Manifest) (selection : Selection) (plan : List Stage.Task) :
    Prop where
  stages : ∀ id, id ∈ plan.map (·.id) ↔
    ∃ root ∈ selectedStages manifest selection, id = root ∨ Requires manifest root id
  once : (plan.map (·.id)).Nodup
  fields : ∀ current ∈ plan, current ∈ manifest.tasks
  ordered : ∀ front current behind, plan = front ++ current :: behind →
    ∀ dependency ∈ current.dependencies, dependency ∈ front.map (·.id)

/-- INTERNAL: a plan that was built is exact. -/
theorem Planned.exact (hvalid : Validated manifest) {plan : List Stage.Task}
    (h : Planned manifest selection plan) : ExactPlan manifest selection plan where
  stages id := by
    rw [h.mem_iff]
    exact exists_congr fun root => and_congr_right fun _ => needs_iff hvalid.nodup
  once := h.finds.nodup
  fields current hcurrent := h.mem hcurrent
  ordered front current behind hsplit dependency hdependency := by
    subst hsplit
    have hmem : current ∈ manifest.tasks := h.mem (by simp)
    obtain ⟨earlier, hearlier, rfl⟩ := Planned.requires_before hvalid h
      (Relation.TransGen.single ⟨current, hmem, rfl, hdependency⟩)
    exact List.mem_map_of_mem hearlier

/-- INTERNAL: a fault of planning that is one of the search comes from the search. -/
theorem buildPlan_search_error {fault : DepthFirst.Fault GoString Stage.StageFault}
    (h : manifest.buildPlan selection = .error (.search fault)) :
    ∃ skipped selected, Stage.validateSelectionIDs manifest.tasks .skip [] selection.skip =
        .ok skipped ∧ manifest.selected selection skipped = .ok selected ∧
      DepthFirst.visitAll (Stage.planNeeds manifest.tasks skipped) (manifest.tasks.length + 1)
        ((manifest.tasks.map (·.id)).filter (· ∈ selected)) .fresh = .error fault := by
  unfold Manifest.buildPlan at h
  cases hskip : Stage.validateSelectionIDs manifest.tasks .skip [] selection.skip with
  | error other =>
    obtain rfl : other = .search fault := by simpa [hskip, bind, Except.bind] using h
    exact absurd hskip (validateSelectionIDs_ne_search _ _ _ _ _)
  | ok skipped =>
    cases hselected : manifest.selected selection skipped with
    | error other =>
      obtain rfl : other = .search fault := by
        simpa [hskip, hselected, bind, Except.bind] using h
      exact absurd hselected (selected_ne_search _ _ _ _)
    | ok selected =>
      refine ⟨skipped, selected, rfl, hselected, ?_⟩
      cases hsearch : DepthFirst.visitAll (Stage.planNeeds manifest.tasks skipped)
          (manifest.tasks.length + 1) ((manifest.tasks.map (·.id)).filter (· ∈ selected))
          .fresh with
      | error other =>
        simpa [hskip, hselected, hsearch, bind, Except.bind, Except.mapError] using h
      | ok search =>
        simp only [hskip, hselected, hsearch, bind, Except.bind, Except.mapError] at h
        split_ifs at h
        all_goals cases h

/-- **`BuildPlan` is exact**: for a manifest that was validated, there is a plan exactly if the
selection is in order; a plan is that of the stages which the selection needs; the search fails at
skipped stages only; and the order of Go's maps does not matter.
SRC: plan.go:8-166, task/manifest.go:144-227 -/
theorem buildPlan_exact {files : FileSystem} {root : GoString} {manifest : Manifest}
    (h : manifest.validate files root = .ok ()) (selection : Selection) :
    ((∃ plan, manifest.buildPlan selection = .ok plan) ↔ Selectable manifest selection) ∧
    (∀ plan, manifest.buildPlan selection = .ok plan → ExactPlan manifest selection plan) ∧
    (∀ fault, manifest.buildPlan selection = .error (.search fault) →
      ∃ stack id, fault = .refused stack (.requiredButSkipped id)) ∧
    ∀ orders, manifest.buildPlanInOrder selection orders = manifest.buildPlan selection := by
  have hvalid := validated_of_ok h
  obtain ⟨hchecked, hacyclic⟩ := acyclic_of_ok h
  refine ⟨⟨?_, plan_of_selectable hvalid hchecked hacyclic⟩,
    fun plan hplan => (buildPlan_planned hvalid hplan).exact hvalid, fun fault hfault => ?_,
    fun orders => buildPlanInOrder_eq manifest selection orders⟩
  · rintro ⟨plan, hplan⟩
    exact selectable_of_plan hvalid hplan
  · obtain ⟨skipped, selected, -, -, hsearch⟩ := buildPlan_search_error hfault
    obtain ⟨stack, id, rfl, -⟩ := planSearch_fault hchecked hacyclic
      (fun root hroot => (List.mem_filter.mp hroot).1) hsearch
    exact ⟨stack, id, rfl⟩

/-- The plans of the manifest's first three stages. -/
theorem buildPlan_exact_sanitizers :
    ExactPlan sampleManifest { only := [.ascii "sanitizers"] } sampleManifest.tasks :=
  (buildPlan_exact (show sampleManifest.validate sampleFiles (.ascii "/r") = .ok () from rfl)
    { only := [.ascii "sanitizers"] }).2.1 sampleManifest.tasks rfl

end Tickline.Analysis
