import Tickline.Analysis.Deployment

/-!
# The log of a pipeline

`LogOk` says that a log holds one record for each submission of a list, linked from the
genesis digest to the head, each one as the decoder wants it.  A completed submission
extends it (`LogOk.submitted`) and nothing else touches it, so that the log of any
pipeline in any run verifies and survives the archive (`pipeline_log_archives`).
-/

set_option autoImplicit false

namespace Tickline.Analysis

open Tickline.Library Tickline.Model

variable {ι κ π : Type} [DecidableEq ι] [DecidableEq κ] [DecidableEq π]

/-! ## Completed submissions -/

/-- The completed submission to a pipeline that a call of a run shows. -/
def submissionTo? (p : π) :
    DeploymentCall ι κ π × Answer → Option (CommandEnvelope × CommandSubmissionResult)
  | (.submit q _ _ command, .submitted result) => if q = p then some (command, result) else none
  | _ => none

/-- The completed submissions to a pipeline, in order. -/
def submissionsTo (p : π) (trace : List (DeploymentCall ι κ π × Answer)) :
    List (CommandEnvelope × CommandSubmissionResult) :=
  trace.filterMap (submissionTo? p)

omit [DecidableEq ι] [DecidableEq κ] in
/-- INTERNAL: one more call. -/
theorem submissionsTo_concat (p : π) (trace : List (DeploymentCall ι κ π × Answer))
    (call : DeploymentCall ι κ π) (answer : Answer) :
    submissionsTo p (trace ++ [(call, answer)]) =
      submissionsTo p trace ++ (submissionTo? p (call, answer)).toList := by
  rw [submissionsTo, List.filterMap_append, submissionsTo, List.filterMap_cons]
  cases submissionTo? p (call, answer) <;> rfl

/-- The outcome a record states for a result. -/
def recordedOutcome (result : CommandSubmissionResult) : CommandQueueOutcome :=
  (result.queueResult.map commandQueueOutcome).getD .notAttempted

/-! ## The log -/

/-- A log of submissions: one record for each, linked to the head, each one decodable. -/
structure LogOk (log : CommandEvidenceLog)
    (submissions : List (CommandEnvelope × CommandSubmissionResult)) : Prop where
  records : log.records.map (fun record =>
      (record.entry.envelope, record.entry.rejectionCode, record.entry.queueOutcome)) =
    submissions.map fun (command, result) => (command, result.code, recordedOutcome result)
  linked : evidenceChain.Linked 0 genesisDigest log.records log.headDigest
  ok : ∀ record ∈ log.records, RecordOk record

/-- A fresh log is in order. -/
theorem logOk_empty : LogOk {} [] := ⟨rfl, rfl, by simp⟩

/-- The chain goes on with the next record. -/
theorem linked_appended {log : CommandEvidenceLog} (entry : CommandEvidenceEntry)
    (hroom : log.records.length < vectorMaxSize commandEvidenceRecordSize)
    (hlinked : evidenceChain.Linked 0 genesisDigest log.records log.headDigest) :
    evidenceChain.Linked 0 genesisDigest (appended log entry).records
      (appended log entry).headDigest := by
  have hordinal : (UInt64.ofNat log.records.length).toNat = log.records.length := by
    rw [UInt64.toNat_ofNat']
    exact Nat.mod_eq_of_lt (hroom.trans (vectorMaxSize_lt _))
  exact HashChain.linked_concat.mpr ⟨hordinal.trans (Nat.zero_add _).symm, hlinked, rfl⟩

/-- **A completed submission** extends the log by its record. -/
theorem LogOk.submitted {s s' : Exchange} {command : CommandEnvelope}
    {result : CommandSubmissionResult}
    {submissions : List (CommandEnvelope × CommandSubmissionResult)}
    (hlog : LogOk s.pipeline.evidence submissions) (h : Sound s.world)
    (hstep : SubmitStep s command (.submitted result) s') :
    LogOk s'.pipeline.evidence (submissions ++ [(command, result)]) := by
  obtain ⟨entry, hrec, hok⟩ := hstep.recorded h
  rw [hrec.log]
  refine ⟨?_, linked_appended entry hrec.room hlog.linked, ?_⟩
  · simp only [appended, List.map_append, hlog.records, List.map_cons, List.map_nil, nextRecord,
      hrec.envelope, hrec.rejectionCode, hrec.queueOutcome, recordedOutcome]
  · intro record hrecord
    rcases List.mem_append.mp hrecord with hmem | hmem
    · exact hlog.ok record hmem
    · obtain rfl := List.mem_singleton.mp hmem
      exact hok

/-- A submission that threw leaves the log. -/
theorem SubmitStep.threw {s s' : Exchange} {command : CommandEnvelope} {fault : Fault}
    (hstep : SubmitStep s command (.threw fault) s') : s'.pipeline = s.pipeline := by
  cases hstep <;> rfl

/-- Every step keeps every log in order. -/
theorem DeploymentStep.logs {d d' : Deployment ι κ π} {call : DeploymentCall ι κ π}
    {answer : Answer} (h : Deployed d) (hstep : DeploymentStep d call answer d')
    {trace : List (DeploymentCall ι κ π × Answer)} {p : π}
    (hlog : LogOk (d.pipelines p).evidence (submissionsTo p trace)) :
    LogOk (d'.pipelines p).evidence (submissionsTo p (trace ++ [(call, answer)])) := by
  rw [submissionsTo_concat]
  cases hstep with
  | submit q i k command answer s' hs =>
    by_cases hq : p = q
    · subst hq
      have hpipeline : (d.withExchange p i k s').pipelines p = s'.pipeline := by
        simp [Deployment.withExchange]
      rw [hpipeline]
      cases answer with
      | submitted result => simpa [submissionTo?] using LogOk.submitted hlog (h.worlds k) hs
      | threw fault => simpa [submissionTo?, hs.threw] using hlog
      | added => cases hs
      | queued => cases hs
      | advanced => cases hs
    · have hpipeline : (d.withExchange q i k s').pipelines p = d.pipelines p := by
        simp [Deployment.withExchange, hq]
      have hother : ¬ q = p := fun heq => hq heq.symm
      rw [hpipeline]
      cases answer <;> simpa [submissionTo?, hother] using hlog
  | addEntity k entity answer world' => simpa [submissionTo?] using hlog
  | advance k answer world' => simpa [submissionTo?] using hlog

/-- **Every pipeline log is a valid archive.**  In every run from fresh pipelines and
reachable worlds, a log holds one record for each completed submission in order, it
verifies, and its archive encodes and decodes to the same records under its head.
SRC: authoritative_command_pipeline.cpp:94-184, command_evidence.cpp:263-331, 725-781,
command_evidence_archive.cpp:233-441 -/
theorem pipeline_log_archives {d : Deployment ι κ π} (hworlds : ∀ k, (d.worlds k).Reachable)
    (hpipelines : ∀ p, d.pipelines p = {}) (calls : List (DeploymentCall ι κ π)) (p : π) :
    let log := ((Deployment.machine.final d calls).pipelines p).evidence
    log.records.map (fun record =>
        (record.entry.envelope, record.entry.rejectionCode, record.entry.queueOutcome)) =
      (submissionsTo p (Deployment.machine.trace d calls)).map
        (fun (command, result) => (command, result.code, recordedOutcome result)) ∧
    log.verify = true ∧
    ∃ bytes, encodeCommandEvidenceArchive log.records log.headDigest = .ok bytes ∧
      decodeCommandEvidenceArchive bytes log.headDigest =
        .ok { records := log.records, headDigest := log.headDigest } := by
  intro log
  have hstart : Deployed d :=
    ⟨fun k => reachable_sound (hworlds k), fun p => by rw [hpipelines p]; exact Nat.zero_le _⟩
  obtain ⟨hend, hlog⟩ := Machine.history (m := Deployment.machine) (s := d)
    (J := fun h t => Deployed t ∧ ∀ p, LogOk (t.pipelines p).evidence (submissionsTo p h))
    ⟨hstart, fun p => by rw [hpipelines p]; exact logOk_empty⟩
    (fun _ call t ⟨ht, hlogs⟩ =>
      ⟨ht.next call, fun p => (deploymentStep ht call).logs ht (hlogs p)⟩)
    calls
  have hfits : log.records.length ≤ maximumRecordCount := hend.logs p
  have hverify : log.verify = true :=
    verifyCommandEvidenceChain_iff.mpr ⟨hfits.trans (vectorMaxSize_lt _).le, (hlog p).linked⟩
  exact ⟨(hlog p).records, hverify, archiveBytes log.records log.headDigest,
    encodeCommandEvidenceArchive_iff.mpr ⟨hverify, hfits, rfl⟩,
    decodeCommandEvidenceArchive_iff.mpr ⟨rfl, hverify, hfits, rfl, (hlog p).ok⟩⟩

/-- The log of the sample run verifies. -/
theorem pipeline_log_archives_sample :
    ((Deployment.machine.final sampleDeployment sampleCalls).pipelines ()).evidence.verify = true :=
  (pipeline_log_archives (d := sampleDeployment) (fun _ => sampleWorld_reachable) (fun _ => rfl)
    sampleCalls ()).2.1

end Tickline.Analysis
