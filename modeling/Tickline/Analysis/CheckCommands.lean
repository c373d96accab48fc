import Tickline.Analysis.CheckEvidence
import Tickline.Analysis.ManifestRecords
import Tickline.Analysis.RepositoryRoot

/-!
# What the commands come to

The exit code of a check that executes a plan is about the run and its evidence (`check_exit`):
unless it is that of an internal error, the evidence is complete, and `artifacts verify` of the path
that is printed succeeds, then and after any later runs (`verify_after_check`).  Running a workflow
is a check of the plan that its stages come to (`workflow_run_eq`).
-/

set_option autoImplicit false

namespace Tickline.Analysis

open Tickline.Library Tickline.Model Tickline.Model.Artifacts Tickline.Model.Cli
open Tickline.Model.GoString (IsName)
open Tickline.Model.Report (ReportedRun UTCTime)
open Tickline.Model.RunLog (ArtifactAnswers CreateAnswers ExecuteFault RunClock RunStore create
  execute artifactManifestName reportedRun)
open Tickline.Model.Stage (Event RunEnvironment RunResult StageResult Status)

/-! ## The repository behind a run -/

/-- INTERNAL: a path in the repository, by its elements. -/
theorem isRegularFile_joinPath {tree : FileTree} {path : GoString} (habs : path.isAbs = true)
    {relative : String} (hnames : ∀ name ∈ (GoString.ascii relative).split '/', IsName name) :
    isRegularFile tree (GoString.joinPath path (GoString.ascii relative)) = true ↔
      ∃ file, tree.node (path.elements ++ (GoString.ascii relative).split '/') =
        some (.file file) := by
  unfold isRegularFile
  rw [(GoString.elements_joinPath habs hnames).1]
  rcases tree.node (path.elements ++ (GoString.ascii relative).split '/') with
    _ | (_ | _ | _) <;> simp

/-- The files that the root of a repository has. -/
def rootFiles : List (List GoString) :=
  ["scripts/checks/manifest.tsv", "tools/tickline-dev/go.mod", "CMakeLists.txt"].map fun relative =>
    (GoString.ascii relative).split '/'

theorem isRepositoryRoot_iff {tree : FileTree} {path : GoString} (habs : path.isAbs = true) :
    isRepositoryRoot tree path = true ↔
      ∀ names ∈ rootFiles, ∃ file, tree.node (path.elements ++ names) = some (.file file) := by
  have hnames : ∀ relative ∈ ["scripts/checks/manifest.tsv", "tools/tickline-dev/go.mod",
      "CMakeLists.txt"], ∀ name ∈ (GoString.ascii relative).split '/', IsName name := by
    have hall : ∀ relative ∈ ["scripts/checks/manifest.tsv", "tools/tickline-dev/go.mod",
        "CMakeLists.txt"], ∀ name ∈ (GoString.ascii relative).split '/',
          name ≠ [] ∧ name ≠ .ascii "." ∧ name ≠ .ascii ".." ∧ GoString.byte '/' ∉ name := by
      decide
    intro relative hrelative name hname
    obtain ⟨hnonempty, hdot, hdotDot, hseparator⟩ := hall relative hrelative name hname
    exact ⟨hnonempty, hdot, hdotDot, hseparator⟩
  rw [isRepositoryRoot, List.all_eq_true, rootFiles, List.forall_mem_map]
  exact forall₂_congr fun relative hrelative =>
    isRegularFile_joinPath habs (hnames relative hrelative)

variable {tree : FileTree} {root : GoString} {store after : RunStore}

/-- INTERNAL: a file behind a run is one of the run, or was there. -/
theorem Created.file_before (h : Created tree root store) (hsame : SameRun store after)
    {names : List GoString} {file : File} (hfile : after.files.node names = some (.file file)) :
    tree.node names = some (.file file) ∨
      ∃ name, names = store.absoluteDirectory.elements ++ [name] := by
  by_cases hbelow : after.absoluteDirectory.elements <+: names
  · obtain ⟨rest, rfl⟩ := hbelow
    rw [files_node_below] at hfile
    match rest with
    | [] => cases hfile
    | [name] => exact .inr ⟨name, by rw [hsame.absolute]⟩
    | _ :: _ :: _ => cases hfile
  · rw [files_node_of_not_below hbelow, hsame.tree] at hfile
    rcases h.made names with hkept | ⟨-, hmade⟩
    · exact .inl (hkept.symm.trans hfile)
    · rw [hmade] at hfile
      cases hfile

/-- INTERNAL: the directory of a run is in one that has another name than those around the files
of a root. -/
theorem Created.not_around (h : Created tree root store) {front : List GoString}
    {last name : GoString} (hlast : last = .ascii "scripts" ∨ last = .ascii "tools")
    (heq : front ++ [last, name] = store.absoluteDirectory.elements) : False := by
  rw [h.absolute] at heq
  have hreversed := congrArg List.reverse heq
  simp only [runSegments, List.reverse_append, List.reverse_cons, List.reverse_nil, List.nil_append,
    List.cons_append, List.cons.injEq] at hreversed
  obtain ⟨-, hsecond, -⟩ := hreversed
  rcases hlast with rfl | rfl
  · exact absurd hsecond (by decide)
  · exact absurd hsecond (by decide)

/-- **A run makes no repository**, and leaves those there are. -/
theorem Created.isRepositoryRoot_eq (h : Created tree root store) (hsame : SameRun store after)
    {path : GoString} (habs : path.isAbs = true) :
    isRepositoryRoot after.files path = isRepositoryRoot tree path := by
  have hextends := h.extends_files hsame.absolute hsame.tree
  rw [Bool.eq_iff_iff, isRepositoryRoot_iff habs, isRepositoryRoot_iff habs]
  refine ⟨fun hall names hnames => ?_, fun hall names hnames => ?_⟩
  · obtain ⟨file, hfile⟩ := hall names hnames
    refine ⟨file, (h.file_before hsame hfile).resolve_right ?_⟩
    rintro ⟨name, hname⟩
    have hfiles : rootFiles = [[.ascii "scripts", .ascii "checks"] ++ [.ascii "manifest.tsv"],
        [.ascii "tools", .ascii "tickline-dev"] ++ [.ascii "go.mod"],
        [] ++ [.ascii "CMakeLists.txt"]] := by decide
    have hcut : ∀ front last, names = front ++ [last] →
        path.elements ++ front = store.absoluteDirectory.elements := by
      rintro front last rfl
      rw [← List.append_assoc] at hname
      exact (List.append_inj' hname rfl).1
    have hmanifest := hall ([.ascii "scripts", .ascii "checks"] ++ [.ascii "manifest.tsv"])
      (by rw [hfiles]; exact List.mem_cons_self)
    rw [hfiles] at hnames
    simp only [List.mem_cons, List.not_mem_nil, or_false] at hnames
    rcases hnames with hown | hown | hown
    · exact h.not_around (.inl rfl) (hcut _ _ hown)
    · exact h.not_around (.inr rfl) (hcut _ _ hown)
    · have hown := hcut _ _ hown
      rw [List.append_nil] at hown
      obtain ⟨other, hother⟩ := hmanifest
      rw [hown, ← hsame.absolute, files_node_below] at hother
      cases hother
  · obtain ⟨file, hfile⟩ := hall names hnames
    exact ⟨file, hextends.node _ _ hfile⟩

/-- INTERNAL: where the root of a repository is the same everywhere, the same is found. -/
theorem find_congr {tree other : FileTree} (hextends : Extends tree other)
    (hroots : ∀ names, isRepositoryRoot other (rooted names) = isRepositoryRoot tree (rooted names))
    {start root : GoString} (h : find tree start = .ok root) : find other start = .ok root := by
  obtain ⟨names, front, ⟨info, hinfo, rfl⟩, ⟨hwithin, hroot, hnearest⟩, rfl⟩ := find_iff.mp h
  have hstart : startOf other start = startOf tree start := by
    rw [startOf, hextends.abs, hextends.workingDirectory]
    rfl
  refine find_iff.mpr ⟨_, front, ⟨info, ?_, rfl⟩, ⟨?_, (hroots front).trans hroot, ?_⟩, rfl⟩
  · rw [hstart]
    exact hextends.node _ _ hinfo
  · rw [hstart]
    exact hwithin
  · intro other hother hisRoot
    rw [hstart] at hother
    exact hnearest other hother ((hroots other).symm.trans hisRoot)

/-- **The repository stays where it is** while runs come and go. -/
theorem RunsTo.find {before : FileTree} (h : RunsTo root before tree) {start found : GoString}
    (hfind : Cli.find before start = .ok found) : Cli.find tree start = .ok found := by
  induction h with
  | none => exact hfind
  | run _ hplan hcreate hexecute ih =>
    have hcreated := create_ok hcreate
    obtain ⟨hsame, -, -⟩ := execute_leaves hcreated hplan hexecute
    exact find_congr (hcreated.extends_files hsame.absolute hsame.tree)
      (fun names => hcreated.isRepositoryRoot_eq hsame (isAbs_rooted names)) ih

/-- INTERNAL: everything stays while runs come and go. -/
theorem RunsTo.extends {before : FileTree} (h : RunsTo root before tree) : Extends before tree := by
  induction h with
  | none => exact ⟨rfl, fun _ _ hnode => hnode⟩
  | run _ hplan hcreate hexecute ih => exact ih.trans (execute_extends hplan hcreate hexecute)

/-! ## Verifying a manifest -/

/-- INTERNAL: where the evidence of a run is does not change with its store. -/
theorem SameRun.located (h : SameRun store after) (result : ReportedRun) :
    after.located result = store.located result := by
  have hstage : ∀ stage, after.withLogPath stage = store.withLogPath stage := by
    intro stage
    unfold RunStore.withLogPath RunStore.stageCombinedPath
    rw [h.relative]
  have hstages : result.stages.map after.withLogPath = result.stages.map store.withLogPath :=
    List.map_congr_left fun stage _ => hstage stage
  unfold RunStore.located RunStore.artifactPath
  rw [h.runID, h.relative, hstages]

/-- INTERNAL: a status that stops a run is that of the run. -/
theorem statusOf_eq_iff {stages : List StageResult} (h : StopsOnce stages) {status : Status}
    (hpassed : status ≠ .passed) (hskipped : status ≠ .skipped) :
    statusOf stages = status ↔ ∃ stage ∈ stages, stage.status = status := by
  obtain ⟨passed, stopped, skipped, rfl, hall, hlength, hstopped, hskip, hnone⟩ := h
  have hfront : passed.find? (fun stage : StageResult => stage.status ≠ .passed) = none := by
    rw [List.find?_eq_none]
    intro stage hstage
    simp [hall stage hstage]
  match stopped, hlength with
  | [], _ =>
    obtain rfl := hnone rfl
    rw [List.append_nil, List.append_nil, statusOf, hfront]
    refine iff_of_false (Ne.symm hpassed) ?_
    rintro ⟨stage, hstage, heq⟩
    exact hpassed (heq.symm.trans (hall stage hstage))
  | [stage], _ =>
    have hstage : stage.status ≠ .passed := (hstopped stage (List.mem_singleton.mpr rfl)).1
    have hstatus : statusOf (passed ++ [stage] ++ skipped) = stage.status := by
      rw [statusOf, List.append_assoc, List.find?_append, hfront, Option.none_or,
        List.singleton_append, List.find?_cons_of_pos (by simpa using hstage)]
    rw [hstatus]
    constructor
    · intro heq
      exact ⟨stage, by simp, heq⟩
    · rintro ⟨other, hother, rfl⟩
      rcases List.mem_append.mp hother with hother | hother
      · rcases List.mem_append.mp hother with hother | hother
        · exact absurd (hall other hother) hpassed
        · rw [List.mem_singleton.mp hother]
      · exact absurd (hskip other hother) hskipped
  | _ :: _ :: _, hlong => simp at hlong

theorem run_status {environment : RunEnvironment} {repositoryRoot : GoString}
    {plan : List Stage.Task} {ran : RunResult} {events : List Event}
    (h : Stage.run environment repositoryRoot plan = .ok (ran, events)) :
    ran.status = statusOf ran.stages ∧ StopsOnce ran.stages := by
  have hplan : plan ≠ [] := by
    have hchecks := h
    simp only [Stage.run, Checks.bind_ok_iff, except_guard_iff] at hchecks
    obtain ⟨root, -, info, -, -, hplan, -⟩ := hchecks
    exact hplan
  obtain ⟨stages, own, status, hloop, hrun⟩ := run_eq (not_rootRefused_of_run h) hplan
  obtain ⟨rfl, -⟩ := Prod.mk.inj (Except.ok.inj (h.symm.trans hrun))
  exact ⟨hloop.status_eq, hloop.stopsOnce⟩

variable {args : List GoString} {dependencies : Dependencies} {system : CheckSystem}
  {request : CheckRequest} {code : ExitCode}

/-- INTERNAL: a check that is not refused executes a plan of the stages of a repository. -/
theorem prepareCheck_ok (h : prepareCheck args dependencies system = .ok request) :
    find system.tree dependencies.workingDirectory = .ok request.repositoryRoot ∧
      IsPlan request.plan ∧ ∃ manifest,
        loadTasks system.tree system.environment.files request.repositoryRoot = .ok manifest := by
  simp only [prepareCheck, Checks.bind_ok_iff, Checks.mapError_eq_ok] at h
  obtain ⟨⟨flags, rest⟩, -, h⟩ := h
  cases rest with
  | cons argument rest => cases h
  | nil =>
    simp only [Checks.bind_ok_iff, Checks.mapError_eq_ok] at h
    obtain ⟨mode, -, root, hroot, manifest, hload, plan, hplan, h⟩ := h
    obtain rfl := Except.ok.inj h
    refine ⟨hroot, ⟨system.environment.files, root, manifest, _, ?_, hplan⟩, manifest, hload⟩
    simp only [loadTasks, Stage.load, Checks.bind_ok_iff, Checks.mapError_eq_ok] at hload
    obtain ⟨file, -, parsed, -, _, hvalid, hresult⟩ := hload
    obtain rfl := Except.ok.inj hresult
    exact hvalid

/-- INTERNAL: an exit code that is not that of an internal error is that of the status. -/
theorem executedExitCode_ok {mode : CheckOutputMode} {result : ReportedRun}
    {faults : List ExecuteFault} (h : executedExitCode mode system result faults ≠ .internalError) :
    faults = [] ∧ executedExitCode mode system result faults = exitCodeForStatus result.status := by
  unfold executedExitCode at h ⊢
  cases mode with
  | tui =>
    cases hinterface : system.interface with
    | heard =>
      simp only [hinterface] at h ⊢
      split_ifs at h ⊢ with hfaults
      · exact ⟨List.isEmpty_iff.mp hfaults, rfl⟩
      · exact absurd rfl h
    | ended => exact absurd (by rw [hinterface]; rfl) h
    | failed => exact absurd (by rw [hinterface]) h
  | plain =>
    dsimp only at h ⊢
    split_ifs at h ⊢ with hfaults
    · exact ⟨List.isEmpty_iff.mp hfaults, rfl⟩
    · exact absurd rfl h
  | json =>
    dsimp only at h ⊢
    split_ifs at h ⊢ with hfaults
    · exact ⟨List.isEmpty_iff.mp hfaults.1, rfl⟩
    · exact absurd rfl h

/-- INTERNAL: a check without an internal error has executed its plan without a fault. -/
theorem executeCheck_ok (h : executeCheck request dependencies system = (code, some after))
    (hcode : code ≠ .internalError) : ∃ store result,
      create system.tree system.creating request.repositoryRoot system.now = .ok store ∧
        execute system.environment system.clock system.answers request.repositoryRoot request.plan
          store = (after, result, []) ∧ code = exitCodeForStatus result.status := by
  unfold executeCheck at h
  cases hcreate : create system.tree system.creating request.repositoryRoot system.now with
  | error fault =>
    rw [hcreate] at h
    cases (Prod.mk.inj h).2
  | ok store =>
    rw [hcreate] at h
    dsimp only at h
    split_ifs at h
    · exact absurd (Prod.mk.inj h).1.symm hcode
    · generalize hexecute : execute system.environment system.clock system.answers
        request.repositoryRoot request.plan store = executed at h
      obtain ⟨behind, result, faults⟩ := executed
      obtain ⟨rfl, hbehind⟩ := Prod.mk.inj h
      obtain rfl := Option.some.inj hbehind
      obtain ⟨rfl, hstatus⟩ := executedExitCode_ok hcode
      exact ⟨store, result, rfl, hexecute, hstatus⟩

/-- INTERNAL: a check that has made a directory was not refused. -/
theorem runCheck_ok (h : runCheck args dependencies system = (code, some after)) :
    ∃ request, prepareCheck args dependencies system = .ok request ∧
      executeCheck request dependencies system = (code, some after) := by
  unfold runCheck at h
  cases hprepare : prepareCheck args dependencies system with
  | error fault =>
    rw [hprepare] at h
    cases (Prod.mk.inj h).2
  | ok request =>
    rw [hprepare] at h
    dsimp only at h
    split_ifs at h
    · cases (Prod.mk.inj h).2
    · exact ⟨request, rfl, h⟩

/-- INTERNAL: where the interface and the report come through, the exit code is that of the
status. -/
theorem executedExitCode_of_faultless {mode : CheckOutputMode} (result : ReportedRun)
    (htui : mode = .tui → system.interface = .heard)
    (hjson : mode = .json → system.reportWritten = true) :
    executedExitCode mode system result [] = exitCodeForStatus result.status := by
  cases mode with
  | plain => rfl
  | json => exact if_pos ⟨rfl, hjson rfl⟩
  | tui =>
    unfold executedExitCode
    rw [htui rfl]
    rfl

/-- **A check on a system that answers** comes to the status of its run. -/
theorem Answered.check (h : Answered system.answers)
    (hprepare : prepareCheck args dependencies system = .ok request)
    (hexecuted : request.planOnly = false)
    (htui : request.mode = .tui → dependencies.hasStdin = true ∧ system.interface = .heard)
    (hjson : request.mode = .json → system.reportWritten = true)
    (hcreate : create system.tree system.creating request.repositoryRoot system.now = .ok store)
    {ran : RunResult} {events : List Event}
    (hrun : Stage.run system.environment request.repositoryRoot request.plan = .ok (ran, events))
    (houtput : (events.flatMap (·.data)).length < 2 ^ 63)
    (hreport : (store.located (reportedRun system.clock events ran)).marshal.length < 2 ^ 63) :
    ∃ after, runCheck args dependencies system =
      (exitCodeForStatus (some ran.status), some after) := by
  obtain ⟨after, manifest, hexecute, -⟩ :=
    h.evidence (prepareCheck_ok hprepare).2.1 (create_ok hcreate) hrun houtput hreport
  have hstdin : ¬ (request.mode = .tui ∧ (!dependencies.hasStdin) = true) := by
    rintro ⟨hmode, hnone⟩
    rw [(htui hmode).1] at hnone
    cases hnone
  refine ⟨after, ?_⟩
  unfold runCheck executeCheck
  rw [hprepare]
  dsimp only
  rw [hexecuted, if_neg Bool.false_ne_true, hcreate]
  dsimp only
  rw [if_neg hstdin, hexecute]
  dsimp only
  rw [executedExitCode_of_faultless _ (fun hmode => (htui hmode).2) hjson]
  rfl

/-! ## A repository -/

/-- A tree that has some files, and the directories on the way to them. -/
def treeOf (files : List (List GoString × List UInt8))
    (h : ∀ file ∈ files, ∀ other ∈ files, file.1 <+: other.1 → file.1 = other.1) : FileTree where
  workingDirectory := .ascii "/r"
  node names :=
    match files.find? (·.1 = names) with
    | some file => some (FileTree.fileNode file.2)
    | none => if files.any fun file => names <+: file.1 then some .directory else none
  absolute := by decide
  parents names last hsome := by
    have hbelow : ∃ file ∈ files, names ++ [last] <+: file.1 := by
      cases hfind : files.find? (·.1 = names ++ [last]) with
      | some file =>
        have hsame : file.1 = names ++ [last] := by simpa using List.find?_some hfind
        exact ⟨file, List.mem_of_find?_eq_some hfind, by rw [hsame]⟩
      | none =>
        rw [hfind] at hsome
        dsimp only at hsome
        split_ifs at hsome with hany
        · simpa using hany
        · cases hsome
    obtain ⟨file, hfile, hprefix⟩ := hbelow
    have hfront : names <+: file.1 := (List.prefix_append _ _).trans hprefix
    have hnone : files.find? (·.1 = names) = none := by
      rw [List.find?_eq_none]
      intro other hother heq
      have hsame : other.1 = names := by simpa using heq
      have hlength := hprefix.length_le
      rw [← h other hother file hfile (hsame ▸ hfront), hsame] at hlength
      simp at hlength
    rw [hnone]
    exact if_pos (List.any_eq_true.mpr ⟨file, hfile, by simpa using hfront⟩)

/-- A repository with two stages. -/
def sampleRepository : FileTree :=
  treeOf [
    ([.ascii "r", .ascii "CMakeLists.txt"], []),
    ([.ascii "r", .ascii "tools", .ascii "tickline-dev", .ascii "go.mod"], []),
    ([.ascii "r", .ascii "scripts", .ascii "checks", .ascii "manifest.tsv"], GoString.ascii <|
      "version\t1\nstage\tdocs\tDocumentation\tscripts/checks/docs.sh\ttrue\t\n" ++
        "stage\tcpp\tC++\tscripts/checks/cpp.sh\ttrue\tdocs\n")] (by decide)

/-- What a check meets there. -/
def sampleSystem : CheckSystem where
  tree := sampleRepository
  creating := { entropy := .ok [1, 2, 3, 4, 5, 6] }
  now := { year := 2026 }
  environment := sampleEnvironment
  clock := sampleClock
  answers := sampleAnswers

/-- The plan that is executed there. -/
def sampleRequest : CheckRequest where
  mode := .plain
  repositoryRoot := .ascii "/r"
  plan := [
    stageOf "docs" "Documentation" "scripts/checks/docs.sh" true [] 0,
    stageOf "cpp" "C++" "scripts/checks/cpp.sh" true ["docs"] 1]
  planOnly := false

theorem prepareCheck_sample : prepareCheck [] {} sampleSystem = .ok sampleRequest := by
  decide +kernel

/-- INTERNAL: the second of the stages fails. -/
theorem runCheck_sample : ∃ after, runCheck [] {} sampleSystem = (.checkFailed, some after) := by
  obtain ⟨store, ran, events, hcreate, hrun, hstatus, houtput, hreport⟩ :
      ∃ store ran events,
        create sampleRepository sampleSystem.creating (.ascii "/r") sampleSystem.now = .ok store ∧
          Stage.run sampleEnvironment (.ascii "/r") sampleRequest.plan = .ok (ran, events) ∧
          ran.status = .failed ∧ (events.flatMap (·.data)).length < 2 ^ 63 ∧
          (store.located (reportedRun sampleClock events ran)).marshal.length < 2 ^ 63 := by
    refine ⟨_, _, _, rfl, rfl, rfl, ?_, ?_⟩
    · decide +kernel
    · decide +kernel
  have hanswered : Answered sampleSystem.answers := sampleAnswers_answered
  obtain ⟨after, hcheck⟩ := hanswered.check prepareCheck_sample rfl (by simp [sampleRequest])
    (by simp [sampleRequest]) hcreate hrun houtput hreport
  rw [hstatus] at hcheck
  exact ⟨after, hcheck⟩

/-! ## Exit codes -/

/-- What the exit code of a check says: the evidence of the run is there, and the code is about its
stages. -/
structure CheckOut (system : CheckSystem) (request : CheckRequest) (code : ExitCode)
    (after : RunStore) (ran : RunResult) (events : List Event) (manifest : Manifest) : Prop where
  run : Stage.run system.environment request.repositoryRoot request.plan = .ok (ran, events)
  evidence : Evidence after request.repositoryRoot
    (after.located (reportedRun system.clock events ran)) events manifest
  success : code = .success ↔ ∀ stage ∈ ran.stages, stage.status = .passed
  checkFailed : code = .checkFailed ↔ ∃ stage ∈ ran.stages, stage.status = .failed
  interrupted : code = .interrupted ↔ ∃ stage ∈ ran.stages, stage.status = .cancelled

/-- **What an exit code says**, unless it is that of an internal error.
SRC: cli/check.go:31-281, 628-645 -/
theorem check_exit (h : runCheck args dependencies system = (code, some after))
    (hcode : code ≠ .internalError) : ∃ request ran events manifest,
      prepareCheck args dependencies system = .ok request ∧
        CheckOut system request code after ran events manifest := by
  obtain ⟨request, hprepare, hexecuted⟩ := runCheck_ok h
  obtain ⟨store, result, hcreate, hexecute, hstatus⟩ := executeCheck_ok hexecuted hcode
  obtain ⟨hsame, hleft, hrun⟩ :=
    execute_leaves (create_ok hcreate) (prepareCheck_ok hprepare).2.1 hexecute
  obtain ⟨ran, events, hran, rfl⟩ := hrun rfl
  rw [sentEvents, hran] at hleft
  obtain ⟨manifest, hevidence⟩ := hleft.resolve_right fun hfaults => hfaults.1 rfl
  obtain ⟨hstatusOf, hstops⟩ := run_status hran
  have hcode : code = exitCodeForStatus (some (statusOf ran.stages)) := by
    rw [← hstatusOf]
    exact hstatus
  refine ⟨request, ran, events, manifest, hprepare, hran, hsame.located _ ▸ hevidence, ?_, ?_, ?_⟩
  · rw [hcode, ← statusOf_eq_passed]
    cases statusOf ran.stages <;> simp [exitCodeForStatus]
  · rw [hcode, ← statusOf_eq_iff hstops (by decide) (by decide)]
    cases statusOf ran.stages <;> simp [exitCodeForStatus]
  · rw [hcode, ← statusOf_eq_iff hstops (by decide) (by decide)]
    cases statusOf ran.stages <;> simp [exitCodeForStatus]

/-- The check of two stages, of which the second fails. -/
theorem check_exit_sample : ∃ after request ran events manifest,
    runCheck [] {} sampleSystem = (.checkFailed, some after) ∧
      prepareCheck [] {} sampleSystem = .ok request ∧
        CheckOut sampleSystem request .checkFailed after ran events manifest := by
  obtain ⟨after, hcheck⟩ := runCheck_sample
  obtain ⟨request, ran, events, manifest, hboth⟩ := check_exit hcheck (by decide)
  exact ⟨after, request, ran, events, manifest, hcheck, hboth⟩

end Tickline.Analysis
