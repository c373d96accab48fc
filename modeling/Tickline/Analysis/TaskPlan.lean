import Tickline.Library.Checks
import Tickline.Model.Task

/-!
# Plans of a manifest

What validation establishes of a manifest (`Validated`), and what a plan that was built is: the
stages that a depth-first search finds from the selected stages, in the manifest's order
(`Planned`).  Neither search runs out of fuel (`validate_not_exhausted`,
`buildPlan_not_exhausted`).
-/

set_option autoImplicit false

namespace Tickline.Analysis

open Tickline.Library Tickline.Library.Checks Tickline.Model
open Tickline.Model.Stage (Manifest Selection tasksByID isIdentifier)

/-! ## Stages of a manifest -/

/-- INTERNAL: a lookup finds a stage of the manifest with the identifier. -/
theorem tasksByID_some {tasks : List Stage.Task} {id : GoString} {current : Stage.Task}
    (h : tasksByID tasks id = some current) : current ∈ tasks ∧ current.id = id := by
  unfold tasksByID at h
  exact ⟨List.mem_reverse.mp (List.mem_of_find?_eq_some h), by simpa using List.find?_some h⟩

/-- INTERNAL: a lookup finds something where there is a stage. -/
theorem tasksByID_isSome {tasks : List Stage.Task} {id : GoString} :
    (tasksByID tasks id).isSome ↔ ∃ current ∈ tasks, current.id = id := by
  unfold tasksByID
  rw [List.find?_isSome]
  simp

/-- INTERNAL: a lookup finds something exactly for the identifiers of the stages. -/
theorem isSome_tasksByID {tasks : List Stage.Task} {id : GoString} :
    (tasksByID tasks id).isSome ↔ id ∈ tasks.map (·.id) := by
  rw [tasksByID_isSome, List.mem_map]

/-- Where no two stages have one identifier, a lookup finds the stage. -/
theorem tasksByID_eq {tasks : List Stage.Task} (hnodup : (tasks.map (·.id)).Nodup)
    {current : Stage.Task} (h : current ∈ tasks) : tasksByID tasks current.id = some current := by
  obtain ⟨found, hfound⟩ := Option.isSome_iff_exists.mp (tasksByID_isSome.mpr ⟨current, h, rfl⟩)
  obtain ⟨hmem, hid⟩ := tasksByID_some hfound
  rw [hfound, List.inj_on_of_nodup_map hnodup hmem h hid]

/-- What validation establishes. -/
structure Validated (manifest : Manifest) : Prop where
  identifiers : ∀ current ∈ manifest.tasks, isIdentifier current.id = true
  nodup : (manifest.tasks.map (·.id)).Nodup
  known : ∀ current ∈ manifest.tasks, ∀ dependency ∈ current.dependencies,
    (tasksByID manifest.tasks dependency).isSome

/-- INTERNAL: the first loop. -/
theorem validateTasks_ok {files : FileSystem} {root : GoString} {seen : List GoString}
    {tasks : List Stage.Task} (h : Stage.validateTasks files root seen tasks = .ok ()) :
    (∀ current ∈ tasks, isIdentifier current.id = true ∧ current.id ∉ seen) ∧
      (tasks.map (·.id)).Nodup := by
  induction tasks generalizing seen with
  | nil => simp
  | cons current rest ih =>
    simp only [Stage.validateTasks, throw_bind, ite_error_eq_ok, bind_ok_iff, mapError_eq_ok] at h
    obtain ⟨hpattern, -, hseen, -, -, hrest⟩ := h
    obtain ⟨hall, hnodup⟩ := ih hrest
    refine ⟨List.forall_mem_cons.mpr ⟨⟨by simpa using hpattern, hseen⟩, fun other hother => ?_⟩,
      List.nodup_cons.mpr ⟨?_, hnodup⟩⟩
    · obtain ⟨hid, hnot⟩ := hall other hother
      exact ⟨hid, fun hmem => hnot (List.mem_append_left _ hmem)⟩
    · intro hmem
      obtain ⟨other, hother, hid⟩ := List.mem_map.mp hmem
      exact (hall other hother).2 (by simp [hid])

/-- INTERNAL: the second loop. -/
theorem validateDependencies_ok {tasks : List Stage.Task} {current : Stage.Task}
    {seen dependencies : List GoString}
    (h : Stage.validateDependencies tasks current seen dependencies = .ok ()) :
    ∀ dependency ∈ dependencies, (tasksByID tasks dependency).isSome := by
  induction dependencies generalizing seen with
  | nil => simp
  | cons dependency rest ih =>
    simp only [Stage.validateDependencies, throw_bind, ite_error_eq_ok] at h
    obtain ⟨-, hknown, -, hrest⟩ := h
    exact List.forall_mem_cons.mpr ⟨by simpa [Option.isSome_iff_ne_none] using hknown, ih hrest⟩

theorem validated_of_ok {files : FileSystem} {root : GoString} {manifest : Manifest}
    (h : manifest.validate files root = .ok ()) : Validated manifest := by
  unfold Manifest.validate at h
  simp only [throw_bind, ite_error_eq_ok, bind_ok_iff, mapError_eq_ok] at h
  obtain ⟨-, _, -, _, htasks, _, hdependencies, -⟩ := h
  obtain ⟨hall, hnodup⟩ := validateTasks_ok htasks
  exact ⟨fun current hcurrent => (hall current hcurrent).1, hnodup, fun current hcurrent =>
    validateDependencies_ok (forIn_eq_ok.mp hdependencies current hcurrent)⟩

/-! ## Identifiers are their own trimmed text -/

/-- INTERNAL: a byte of an identifier, or the comma between identifiers. -/
def inStageList (b : UInt8) : Bool :=
  Stage.isIdentifierByte b || b == GoString.byte '-' || b == GoString.byte ','

/-- INTERNAL: what is joined comes from the parts or from the separator. -/
theorem mem_intercalate {α : Type} {separator : List α} {parts : List (List α)} {a : α}
    (h : a ∈ separator.intercalate parts) : a ∈ separator ∨ ∃ part ∈ parts, a ∈ part := by
  induction parts with
  | nil => simp at h
  | cons part parts ih =>
    cases parts with
    | nil =>
      rw [List.intercalate_singleton] at h
      exact .inr ⟨part, List.mem_cons_self, h⟩
    | cons next parts =>
      rw [List.intercalate_cons_cons, List.mem_append, List.mem_append] at h
      rcases h with (h | h) | h
      · exact .inr ⟨part, List.mem_cons_self, h⟩
      · exact .inl h
      · rcases ih h with h | ⟨part, hpart, h⟩
        · exact .inl h
        · exact .inr ⟨part, List.mem_cons_of_mem _ hpart, h⟩

/-- INTERNAL: the pattern has letters, digits and hyphens. -/
theorem isIdentifierByte_or {id : GoString} (h : isIdentifier id = true) {b : UInt8}
    (hb : b ∈ id) : Stage.isIdentifierByte b = true ∨ b = GoString.byte '-' := by
  have hjoin : [GoString.byte '-'].intercalate (id.splitOn (GoString.byte '-')) = id :=
    List.intercalate_splitOn _
  rw [← hjoin] at hb
  rcases mem_intercalate hb with hb | ⟨part, hpart, hb⟩
  · exact .inr (List.mem_singleton.mp hb)
  · have hall := List.all_eq_true.mp h part hpart
    rw [Bool.and_eq_true, List.all_eq_true] at hall
    exact .inl (hall.2 b hb)

theorem inStageList_of_isIdentifier {id : GoString} (h : isIdentifier id = true) :
    ∀ b ∈ id, inStageList b = true := by
  intro b hb
  unfold inStageList
  rcases isIdentifierByte_or h hb with hb | rfl
  · rw [hb, Bool.true_or, Bool.true_or]
  · simp

theorem ne_nil_of_isIdentifier {id : GoString} (h : isIdentifier id = true) : id ≠ [] := by
  rintro rfl
  exact absurd h (by decide)

/-- INTERNAL: nothing is dropped where no spelling starts. -/
theorem dropSpellings_eq {spellings : List GoString} {text : GoString}
    (h : ∀ spelling ∈ spellings, spelling.isPrefixOf text = false) (fuel : ℕ) :
    GoString.dropSpellings spellings fuel text = text := by
  cases fuel with
  | zero => rfl
  | succ fuel =>
    have hnone : spellings.find? (·.isPrefixOf text) = none := by
      rw [List.find?_eq_none]
      intro spelling hspelling
      simp [h spelling hspelling]
    rw [GoString.dropSpellings, hnone]

/-- INTERNAL: a spelling that cannot start an identifier. -/
def startsOutside : GoString → Bool
  | [] => false
  | b :: _ => !inStageList b

theorem isPrefixOf_eq_false {spelling text : GoString} (hspelling : startsOutside spelling = true)
    (htext : ∀ b ∈ text, inStageList b = true) : spelling.isPrefixOf text = false := by
  cases spelling with
  | nil => cases hspelling
  | cons b spelling =>
    cases text with
    | nil => rfl
    | cons c text =>
      have hne : b ≠ c := by
        rintro rfl
        simp [startsOutside, htext b List.mem_cons_self] at hspelling
      simp [List.isPrefixOf, hne]

/-- **No space starts or ends a text of such bytes.** -/
theorem trimSpace_eq {text : GoString} (h : ∀ b ∈ text, inStageList b = true) :
    text.trimSpace = text := by
  have hspaces : ∀ spelling ∈ GoString.spaces, startsOutside spelling = true :=
    List.all_eq_true.mp (by decide)
  have hreversed : ∀ spelling ∈ GoString.spaces.map List.reverse, startsOutside spelling = true :=
    List.all_eq_true.mp (by decide)
  unfold GoString.trimSpace
  simp only
  rw [dropSpellings_eq fun spelling hspelling => isPrefixOf_eq_false (hspaces spelling hspelling) h,
    dropSpellings_eq fun spelling hspelling => isPrefixOf_eq_false (hreversed spelling hspelling)
      fun b hb => h b (List.mem_reverse.mp hb), List.reverse_reverse]

/-! ## Selections -/

/-- The trimmed identifiers of a selection are in order. -/
structure SelectionOk (tasks : List Stage.Task) (values : List GoString) : Prop where
  nonempty : ∀ id ∈ values.map GoString.trimSpace, id ≠ []
  known : ∀ id ∈ values.map GoString.trimSpace, id ∈ tasks.map (·.id)
  once : (values.map GoString.trimSpace).Nodup

/-- INTERNAL: the loop over a selection, behind some identifiers. -/
theorem validateSelectionIDs_iff {tasks : List Stage.Task} {kind : Stage.SelectionKind}
    {result values ids : List GoString}
    (hresult : result.Nodup) :
    Stage.validateSelectionIDs tasks kind result values = .ok ids ↔
      ids = result ++ values.map GoString.trimSpace ∧
        (∀ id ∈ values.map GoString.trimSpace, id ≠ [] ∧ id ∈ tasks.map (·.id)) ∧
        (result ++ values.map GoString.trimSpace).Nodup := by
  induction values generalizing result with
  | nil =>
    simp only [Stage.validateSelectionIDs, pure_eq_ok, List.map_nil, List.append_nil, hresult,
      List.not_mem_nil, false_implies, implies_true, and_true]
    exact eq_comm
  | cons raw values ih =>
    have hknown : (tasksByID tasks raw.trimSpace).isNone = true ↔
        raw.trimSpace ∉ tasks.map (·.id) := by
      rw [← isSome_tasksByID, Option.isSome_iff_ne_none, not_not, Option.isNone_iff_eq_none]
    simp only [Stage.validateSelectionIDs, throw_bind, ite_error_eq_ok, hknown, not_not,
      List.map_cons, List.forall_mem_cons]
    rw [List.append_cons result raw.trimSpace (values.map GoString.trimSpace)]
    constructor
    · rintro ⟨hne, hmem, hfresh, hrest⟩
      have hmore : (result ++ [raw.trimSpace]).Nodup :=
        List.nodup_append.mpr ⟨hresult, List.nodup_singleton _, by
          intro a ha b hb heq
          obtain rfl := List.mem_singleton.mp hb
          exact hfresh (heq ▸ ha)⟩
      obtain ⟨hids, hall, hnodup⟩ := (ih hmore).mp hrest
      exact ⟨hids, ⟨⟨hne, hmem⟩, hall⟩, hnodup⟩
    · rintro ⟨hids, ⟨⟨hne, hmem⟩, hall⟩, hnodup⟩
      have hmore : (result ++ [raw.trimSpace]).Nodup := (List.nodup_append.mp hnodup).1
      have hfresh : raw.trimSpace ∉ result := fun h =>
        (List.nodup_append.mp hmore).2.2 _ h _ (List.mem_singleton.mpr rfl) rfl
      exact ⟨hne, hmem, hfresh, (ih hmore).mpr ⟨hids, hall, hnodup⟩⟩

/-- **A selection is accepted** exactly if its identifiers are in order, and then as they are. -/
theorem validateSelectionIDs_ok_iff {tasks : List Stage.Task} {kind : Stage.SelectionKind}
    {values ids : List GoString} :
    Stage.validateSelectionIDs tasks kind [] values = .ok ids ↔
      ids = values.map GoString.trimSpace ∧ SelectionOk tasks values := by
  rw [validateSelectionIDs_iff List.nodup_nil, List.nil_append]
  constructor
  · rintro ⟨hids, hall, hnodup⟩
    exact ⟨hids, fun id hid => (hall id hid).1, fun id hid => (hall id hid).2, hnodup⟩
  · rintro ⟨hids, hok⟩
    exact ⟨hids, fun id hid => ⟨hok.nonempty id hid, hok.known id hid⟩, hok.once⟩

/-- INTERNAL: known identifiers, none of them twice, are accepted as they are. -/
theorem validateSelectionIDs_eq {tasks : List Stage.Task} {kind : Stage.SelectionKind}
    {values : List GoString} (hknown : ∀ id ∈ values, isIdentifier id = true ∧
      (tasksByID tasks id).isSome) (hnodup : values.Nodup) :
    Stage.validateSelectionIDs tasks kind [] values = .ok values := by
  have htrimmed : values.map GoString.trimSpace = values := by
    refine (List.map_congr_left fun id hid => ?_).trans (List.map_id values)
    exact trimSpace_eq (inStageList_of_isIdentifier (hknown id hid).1)
  refine validateSelectionIDs_ok_iff.mpr ⟨htrimmed.symm, ?_, ?_, ?_⟩
  · rw [htrimmed]
    exact fun id hid => ne_nil_of_isIdentifier (hknown id hid).1
  · rw [htrimmed]
    exact fun id hid => isSome_tasksByID.mp (hknown id hid).2
  · rwa [htrimmed]

/-- A stage that a selection names, or that is enabled where it names none. -/
def selects (selection : Selection) (current : Stage.Task) : Bool :=
  if selection.only = [] then
    current.enabledByDefault && current.id ∉ selection.skip.map GoString.trimSpace
  else current.id ∈ selection.only.map GoString.trimSpace

/-- The selected stages, in the manifest's order. -/
def selectedStages (manifest : Manifest) (selection : Selection) : List GoString :=
  (manifest.tasks.filter (selects selection)).map (·.id)

/-- The declared dependencies of a stage. -/
def dependenciesOf (manifest : Manifest) (id : GoString) : List GoString :=
  ((tasksByID manifest.tasks id).map (·.dependencies)).getD []

/-! ## Plans -/

/-- **What a plan is**: the stages that a depth-first search finds from the selected ones, each
as the manifest has it. -/
structure Planned (manifest : Manifest) (selection : Selection) (plan : List Stage.Task) :
    Prop where
  finds : DepthFirst.Finds (dependenciesOf manifest) [] [] (selectedStages manifest selection)
    (plan.map (·.id))
  tasks : ∀ current ∈ plan, tasksByID manifest.tasks current.id = some current
  nonempty : plan ≠ []

/-- INTERNAL: the roots of the search are the selected stages. -/
theorem filter_selected {manifest : Manifest} (hvalid : Validated manifest) {selection : Selection}
    {skipped selected : List GoString}
    (hskip : Stage.validateSelectionIDs manifest.tasks .skip [] selection.skip = .ok skipped)
    (hselected : manifest.selected selection skipped = .ok selected) :
    (manifest.tasks.map (·.id)).filter (· ∈ selected) = selectedStages manifest selection := by
  obtain ⟨rfl, -⟩ := validateSelectionIDs_ok_iff.mp hskip
  unfold selectedStages
  rw [List.filter_map]
  congr 1
  apply List.filter_congr
  intro current hcurrent
  unfold Manifest.selected at hselected
  unfold selects
  by_cases honly : selection.only = []
  · simp only [honly, if_true, pure_bind, ne_eq, not_true, false_and, if_false] at hselected
    obtain rfl := pure_eq_ok.mp hselected
    have hmem : current.id ∈ (manifest.tasks.filter (·.enabledByDefault)).map (·.id) ↔
        current.enabledByDefault = true := by
      constructor
      · intro h
        obtain ⟨other, hother, hid⟩ := List.mem_map.mp h
        obtain ⟨hmem, henabled⟩ := List.mem_filter.mp hother
        rwa [← List.inj_on_of_nodup_map hvalid.nodup hmem hcurrent hid]
      · intro h
        exact List.mem_map.mpr ⟨current, List.mem_filter.mpr ⟨hcurrent, h⟩, rfl⟩
    simp [honly, hmem]
  · simp only [honly, if_false, ne_eq, not_false_eq_true, true_and, throw_bind, bind_ok_iff,
      ite_error_eq_ok] at hselected
    obtain ⟨chosen, hchosen, hboth, hselected⟩ := hselected
    obtain ⟨rfl, -⟩ := validateSelectionIDs_ok_iff.mp hchosen
    obtain rfl := pure_eq_ok.mp hselected
    have happart : ∀ id ∈ selection.only.map GoString.trimSpace,
        id ∉ selection.skip.map GoString.trimSpace := by
      intro id hid hskipped
      exact hboth (List.any_eq_true.mpr ⟨id, hskipped, decide_eq_true hid⟩)
    simp only [honly, if_false, Function.comp_apply, List.mem_filter, decide_eq_true_eq]
    exact decide_eq_decide.mpr ⟨And.left, fun h => ⟨h, happart _ h⟩⟩

/-- INTERNAL: a stage that is accepted needs its dependencies. -/
theorem planNeeds_ok {manifest : Manifest} {skipped : List GoString} {id : GoString}
    {ids : List GoString} (h : Stage.planNeeds manifest.tasks skipped id = .ok ids) :
    ids = dependenciesOf manifest id ∧ (tasksByID manifest.tasks id).isSome := by
  unfold Stage.planNeeds at h
  unfold dependenciesOf
  cases hid : tasksByID manifest.tasks id with
  | none =>
    simp only [hid, ite_error_eq_ok] at h
    cases h.2
  | some current =>
    simp only [hid, ite_error_eq_ok, Except.ok.injEq] at h
    exact ⟨h.2.symm, rfl⟩

/-- INTERNAL: the stages behind identifiers that are known. -/
theorem map_filterMap_tasksByID {tasks : List Stage.Task} {order : List GoString}
    (h : ∀ id ∈ order, (tasksByID tasks id).isSome) :
    (order.filterMap (tasksByID tasks)).map (·.id) = order := by
  induction order with
  | nil => rfl
  | cons id order ih =>
    obtain ⟨hid, hrest⟩ := List.forall_mem_cons.mp h
    obtain ⟨current, hcurrent⟩ := Option.isSome_iff_exists.mp hid
    rw [List.filterMap_cons_some hcurrent, List.map_cons, ih hrest, (tasksByID_some hcurrent).2]

/-- **A plan that was built** lists what the search finds. -/
theorem buildPlan_planned {manifest : Manifest} (hvalid : Validated manifest) {selection : Selection}
    {plan : List Stage.Task} (h : manifest.buildPlan selection = .ok plan) :
    Planned manifest selection plan := by
  unfold Manifest.buildPlan at h
  simp only [bind_ok_iff, mapError_eq_ok, throw_bind, ite_error_eq_ok] at h
  obtain ⟨skipped, hskip, selected, hselected, search, hsearch, hnonempty, hplan⟩ := h
  obtain rfl := pure_eq_ok.mp hplan
  obtain ⟨hfinds, haccepted⟩ := DepthFirst.search_finds hsearch
  rw [filter_selected hvalid hskip hselected] at hfinds
  have hids : (search.order.filterMap (tasksByID manifest.tasks)).map (·.id) = search.order := by
    apply map_filterMap_tasksByID
    intro id hid
    obtain ⟨ids, hids⟩ := haccepted id hid
    exact (planNeeds_ok hids).2
  refine ⟨?_, fun current hcurrent => ?_, hnonempty⟩
  · rw [hids]
    apply hfinds.congr
    intro id hid
    obtain ⟨ids, hneeds⟩ := haccepted id hid
    rw [← (planNeeds_ok hneeds).1, DepthFirst.neededBy, hneeds]
  · obtain ⟨id, -, hid⟩ := List.mem_filterMap.mp hcurrent
    rw [(tasksByID_some hid).2, hid]

/-! ## The fuel suffices -/

/-- INTERNAL: only stages of the manifest need others. -/
theorem buildPlan_search_not_exhausted (tasks : List Stage.Task) (skipped roots : List GoString) :
    DepthFirst.visitAll (Stage.planNeeds tasks skipped) (tasks.length + 1) roots .fresh ≠
      .error .exhausted := by
  rw [← List.length_map (·.id)]
  apply DepthFirst.search_not_exhausted
  intro id ids hneeds _
  unfold Stage.planNeeds at hneeds
  cases hid : tasksByID tasks id with
  | none =>
    simp only [hid, ite_error_eq_ok] at hneeds
    cases hneeds.2
  | some current =>
    obtain ⟨hmem, rfl⟩ := tasksByID_some hid
    exact List.mem_map_of_mem hmem

/-- INTERNAL: a selection does not search. -/
theorem validateSelectionIDs_ne_search (tasks : List Stage.Task) (kind : Stage.SelectionKind)
    (result values : List GoString) (fault : DepthFirst.Fault GoString Stage.StageFault) :
    Stage.validateSelectionIDs tasks kind result values ≠ .error (.search fault) := by
  induction values generalizing result with
  | nil => exact fun h => by cases h
  | cons raw values ih =>
    simp only [Stage.validateSelectionIDs, throw_bind]
    exact ite_error_ne_error (by simp) (ite_error_ne_error (by simp)
      (ite_error_ne_error (by simp) (ih _)))

theorem selected_ne_search (manifest : Manifest) (selection : Selection)
    (skipped : List GoString) (fault : DepthFirst.Fault GoString Stage.StageFault) :
    manifest.selected selection skipped ≠ .error (.search fault) := by
  unfold Manifest.selected
  simp only [throw_bind]
  split
  · exact bind_ne_error (fun h => by cases h) fun _ =>
      ite_error_ne_error (by simp) fun h => by cases h
  · exact bind_ne_error (validateSelectionIDs_ne_search _ _ _ _ _) fun _ =>
      ite_error_ne_error (by simp) fun h => by cases h

/-- **Planning does not run out of fuel.** -/
theorem buildPlan_not_exhausted (manifest : Manifest) (selection : Selection) :
    manifest.buildPlan selection ≠ .error (.search .exhausted) := by
  unfold Manifest.buildPlan
  refine bind_ne_error (validateSelectionIDs_ne_search _ _ _ _ _) fun skipped =>
    bind_ne_error (selected_ne_search _ _ _ _) fun selected => bind_ne_error ?_ fun search => ?_
  · apply mapError_ne_error
    rintro fault hfault hexhausted
    obtain rfl := Stage.PlanFault.search.inj hexhausted
    exact buildPlan_search_not_exhausted _ _ _ hfault
  · simp only [throw_bind]
    exact ite_error_ne_error (by simp) fun h => by cases h

/-- INTERNAL: only stages of the manifest need others. -/
theorem acyclicSearch_not_exhausted (tasks : List Stage.Task) :
    DepthFirst.visitAll (Stage.acyclicNeeds tasks) (tasks.length + 1) (tasks.map (·.id)) .fresh ≠
      .error .exhausted := by
  rw [← List.length_map (·.id)]
  apply DepthFirst.search_not_exhausted
  intro id ids hneeds hne
  unfold Stage.acyclicNeeds at hneeds
  cases hid : tasksByID tasks id with
  | none =>
    rw [hid] at hneeds
    exact absurd (Except.ok.inj hneeds).symm hne
  | some current =>
    obtain ⟨hmem, rfl⟩ := tasksByID_some hid
    exact List.mem_map_of_mem hmem

theorem validateAcyclic_not_exhausted (tasks : List Stage.Task) :
    Stage.validateAcyclic tasks ≠ .error .exhausted := by
  unfold Stage.validateAcyclic
  split
  · simp
  · simp
  · rename_i cause _
    exact cause.elim
  · rename_i hrun
    exact absurd hrun (acyclicSearch_not_exhausted tasks)

/-- INTERNAL: the loops over the stages do not search. -/
theorem validateTasks_ne_exhausted (files : FileSystem) (root : GoString) (seen : List GoString)
    (tasks : List Stage.Task) : Stage.validateTasks files root seen tasks ≠ .error .exhausted := by
  induction tasks generalizing seen with
  | nil => exact fun h => by cases h
  | cons current rest ih =>
    simp only [Stage.validateTasks, throw_bind]
    exact ite_error_ne_error (by simp) (ite_error_ne_error (by simp) (ite_error_ne_error (by simp)
      (bind_ne_error (mapError_ne_error (by simp)) fun _ => ih _)))

theorem validateDependencies_ne_exhausted (tasks : List Stage.Task) (current : Stage.Task)
    (seen dependencies : List GoString) :
    Stage.validateDependencies tasks current seen dependencies ≠ .error .exhausted := by
  induction dependencies generalizing seen with
  | nil => exact fun h => by cases h
  | cons dependency rest ih =>
    simp only [Stage.validateDependencies, throw_bind]
    exact ite_error_ne_error (by simp) (ite_error_ne_error (by simp)
      (ite_error_ne_error (by simp) (ih _)))

/-- **Validation does not run out of fuel.** -/
theorem validate_not_exhausted (files : FileSystem) (root : GoString) (manifest : Manifest) :
    manifest.validate files root ≠ .error .exhausted := by
  unfold Manifest.validate
  simp only [throw_bind]
  refine ite_error_ne_error (by simp) (bind_ne_error ?_ fun absoluteRoot => bind_ne_error ?_
    fun _ => bind_ne_error ?_ fun _ => validateAcyclic_not_exhausted _)
  · exact mapError_ne_error (by simp)
  · exact validateTasks_ne_exhausted _ _ _ _
  · exact forIn_ne_error fun current _ => validateDependencies_ne_exhausted _ _ _ _

end Tickline.Analysis
