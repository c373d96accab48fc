import Tickline.Analysis.ExportFidelity
import Tickline.Analysis.NativeExports
import Tickline.Analysis.PipelineLog

/-!
# What exported session fields mean

The exporter writes for each identity the target ticks of its first and its last record and the
sequence that the last record states.  That sequence is the counter of the session that the command
was sent to, which need not be the session with the identity that the command claims (`Counted`).
`session_fields_mean_iff`: the fields mean what they are named exactly if every identity names its
least target tick first and its greatest last, and that session had accepted up to the greatest
sequence accepted under the identity (`Meant`).
-/

set_option autoImplicit false

namespace Tickline.Analysis

open Tickline.Library Tickline.Library.Json Tickline.Model Tickline.Model.Storage
open Tickline.Model.Storage.InvestigationStore hiding Answer

variable {ι κ π : Type} [DecidableEq ι] [DecidableEq κ] [DecidableEq π]

/-! ## What a pipeline has heard -/

/-- The identity that a command claims. -/
def claimedKey (command : CommandEnvelope) : SessionKey where
  clientId := command.clientId.value
  sessionId := command.sessionId.value

/-- The commands of the completed submissions to a pipeline, in order. -/
def commandsTo (p : π) (trace : List (DeploymentCall ι κ π × Answer)) : List CommandEnvelope :=
  (submissionsTo p trace).map Prod.fst

/-- Those under an identity. -/
def commandsUnder (p : π) (key : SessionKey) (trace : List (DeploymentCall ι κ π × Answer)) :
    List CommandEnvelope :=
  (commandsTo p trace).filter (claimedKey · = key)

/-- The greatest sequence that was accepted under an identity. -/
def acceptedUnder (p : π) (key : SessionKey) (trace : List (DeploymentCall ι κ π × Answer)) : ℕ :=
  (((submissionsTo p trace).filter fun (command, result) =>
    claimedKey command = key ∧ result.accepted).map fun (command, _) =>
      command.sequence.toNat).max?.getD 0

/-- Whether a call is a completed submission to a pipeline under an identity. -/
def hears (p : π) (key : SessionKey) (entry : DeploymentCall ι κ π × Answer) : Bool :=
  (submissionTo? p entry).any fun (command, _) => claimedKey command = key

/-- A run through the last such submission. -/
def throughLast (p : π) (key : SessionKey) (trace : List (DeploymentCall ι κ π × Answer)) :
    List (DeploymentCall ι κ π × Answer) :=
  trace.rdropWhile fun entry => !hears p key entry

/-- Up to which sequence a session has accepted, through whatever pipeline. -/
def acceptedUpTo (d : Deployment ι κ π) (i : ι)
    (trace : List (DeploymentCall ι κ π × Answer)) : ℕ :=
  (((acceptances trace).filter (·.session = i)).map (·.command.sequence.toNat)).foldl max
    (d.sessions i).highestAcceptedSequence.toNat

/-- The same of the session that the last submission of a run was sent to. -/
def lastCounter (d : Deployment ι κ π) (trace : List (DeploymentCall ι κ π × Answer)) : ℕ :=
  match trace.getLast? with
  | some (.submit _ i _ _, _) => acceptedUpTo d i trace
  | _ => 0

/-- What makes the exported session fields mean what they are named, of a run and what its pipeline
has heard: each identity names its least target tick first and its greatest last, and the session
that its last command was sent to had accepted up to the greatest sequence accepted under it. -/
structure Meant (d : Deployment ι κ π) (p : π) (trace : List (DeploymentCall ι κ π × Answer)) :
    Prop where
  firstTarget : ∀ command ∈ commandsTo p trace,
    ∀ first ∈ (commandsUnder p (claimedKey command) trace).head?,
      first.targetTick ≤ command.targetTick
  lastTarget : ∀ command ∈ commandsTo p trace,
    ∀ last ∈ (commandsUnder p (claimedKey command) trace).getLast?,
      command.targetTick ≤ last.targetTick
  counter : ∀ command ∈ commandsTo p trace,
    lastCounter d (throughLast p (claimedKey command) trace) =
      acceptedUnder p (claimedKey command) trace

/-! ## One more call -/

section

variable {d : Deployment ι κ π} {p : π} {key : SessionKey}
  {trace : List (DeploymentCall ι κ π × Answer)} {entry : DeploymentCall ι κ π × Answer}

omit [DecidableEq ι] [DecidableEq κ] in
/-- INTERNAL: a submission that is heard is the last one. -/
theorem throughLast_concat (h : hears p key entry = true) :
    throughLast p key (trace ++ [entry]) = trace ++ [entry] :=
  List.rdropWhile_concat_neg _ _ _ (by simp [h])

omit [DecidableEq ι] [DecidableEq κ] in
/-- INTERNAL: any other call is not. -/
theorem throughLast_concat_of_not (h : hears p key entry = false) :
    throughLast p key (trace ++ [entry]) = throughLast p key trace :=
  List.rdropWhile_concat_pos _ _ _ (by simp [h])

omit [DecidableEq κ] [DecidableEq π] in
/-- INTERNAL: an acceptance counts for its session. -/
theorem acceptedUpTo_concat (i : ι) : acceptedUpTo d i (trace ++ [entry]) =
    ((acceptance? entry).toList.filter (·.session = i)).foldl
      (fun highest accepted => max highest accepted.command.sequence.toNat)
        (acceptedUpTo d i trace) := by
  have hconcat : acceptances (trace ++ [entry]) =
      acceptances trace ++ (acceptance? entry).toList := by
    rw [acceptances, List.filterMap_append, acceptances, List.filterMap_cons]
    cases acceptance? entry <;> rfl
  rw [acceptedUpTo, hconcat, List.filter_append, List.map_append, List.foldl_append, List.foldl_map,
    acceptedUpTo]

end

/-- INTERNAL: a submission that is not accepted leaves the session. -/
theorem SubmitStep.session_eq {s s' : Exchange} {command : CommandEnvelope} {answer : Answer}
    (hstep : SubmitStep s command answer s')
    (h : ∀ result, answer = .submitted result → result.accepted ≠ true) :
    s'.session = s.session := by
  cases hstep with
  | accepted => exact absurd rfl (h _ rfl)
  | _ => rfl

/-- **A call keeps the count of every session.** -/
theorem DeploymentStep.counters {d t t' : Deployment ι κ π} {call : DeploymentCall ι κ π}
    {answer : Answer} (hstep : DeploymentStep t call answer t')
    {trace : List (DeploymentCall ι κ π × Answer)}
    (h : ∀ i, (t.sessions i).highestAcceptedSequence.toNat = acceptedUpTo d i trace) (i : ι) :
    (t'.sessions i).highestAcceptedSequence.toNat =
      acceptedUpTo d i (trace ++ [(call, answer)]) := by
  rw [acceptedUpTo_concat, ← h i]
  cases hstep with
  | addEntity => rfl
  | advance => rfl
  | submit q j k command answer s' hs =>
    have hsession : (t.withExchange q j k s').sessions i =
        if i = j then s'.session else t.sessions i := Function.update_apply ..
    rw [hsession]
    by_cases haccepted : ∃ result, answer = .submitted result ∧ result.accepted = true
    · obtain ⟨result, rfl, haccepted⟩ := haccepted
      obtain ⟨hadmissible, hsequence, -⟩ := hs.accepts haccepted
      have hshown : acceptance? (.submit q j k command, .submitted result) =
          some ({ session := j, world := k, command } : Acceptance ι κ) := if_pos haccepted
      rw [hshown]
      by_cases hij : i = j
      · subst hij
        have hlt := UInt64.lt_iff_toNat_lt.mp hadmissible.sequence.2
        simp only [if_true, Option.toList_some, List.filter_cons, decide_true, List.filter_nil,
          List.foldl_cons, List.foldl_nil, hsequence]
        exact (max_eq_right hlt.le).symm
      · simp [hij, Ne.symm hij]
    · push Not at haccepted
      have hnone : acceptance? ((.submit q j k command : DeploymentCall ι κ π), answer) = none := by
        cases answer with
        | submitted result => exact if_neg (haccepted result rfl)
        | _ => rfl
      rw [hnone, hs.session_eq haccepted]
      split_ifs with hij
      · rw [hij]
        rfl
      · rfl

/-! ## Runs -/

/-- What holds throughout a run: every log is in order, every session has its count, and the last
record of an identity states the count of the session that its command was sent to. -/
structure Counted (d : Deployment ι κ π) (trace : List (DeploymentCall ι κ π × Answer))
    (t : Deployment ι κ π) : Prop where
  deployed : Deployed t
  logs : ∀ p, LogOk (t.pipelines p).evidence (submissionsTo p trace)
  counters : ∀ i, (t.sessions i).highestAcceptedSequence.toNat = acceptedUpTo d i trace
  stated : ∀ p key,
    ∀ last ∈ ((t.pipelines p).evidence.records.filter (sessionKey · = key)).getLast?,
      last.entry.sessionSequenceAfter.toNat = lastCounter d (throughLast p key trace)

/-- INTERNAL: the record of a completed submission states the count of its session. -/
theorem SubmitStep.stated {s s' : Exchange} {command : CommandEnvelope}
    {result : CommandSubmissionResult} (hsound : Sound s.world)
    (hstep : SubmitStep s command (.submitted result) s') :
    ∃ record, s'.pipeline.evidence.records = s.pipeline.evidence.records ++ [record] ∧
      sessionKey record = claimedKey command ∧
      record.entry.sessionSequenceAfter = s'.session.highestAcceptedSequence := by
  obtain ⟨entry, hrec, -⟩ := hstep.recorded hsound
  exact ⟨nextRecord s.pipeline.evidence entry, congrArg (·.records) hrec.log,
    congrArg claimedKey hrec.envelope, hrec.sessionAfter⟩

/-- INTERNAL: a call that is no completed submission to a pipeline leaves its log. -/
theorem DeploymentStep.records_eq {t t' : Deployment ι κ π} {call : DeploymentCall ι κ π}
    {answer : Answer} (hstep : DeploymentStep t call answer t') {p : π}
    (h : submissionTo? p (call, answer) = none) : t'.pipelines p = t.pipelines p := by
  cases hstep with
  | addEntity => rfl
  | advance => rfl
  | submit q j k command answer s' hs =>
    have hpipeline : (t.withExchange q j k s').pipelines p =
        if p = q then s'.pipeline else t.pipelines p := Function.update_apply ..
    rw [hpipeline]
    split_ifs with hq
    · subst hq
      rcases hs.answer_cases with ⟨result, rfl⟩ | ⟨what, rfl⟩
      · simp [submissionTo?] at h
      · rw [hs.threw]
        rfl
    · rfl

/-- **Every call keeps it.** -/
theorem Counted.next {d t : Deployment ι κ π} {trace : List (DeploymentCall ι κ π × Answer)}
    (h : Counted d trace t) (call : DeploymentCall ι κ π) :
    Counted d (trace ++ [(call, Deployment.machine.answer call t)])
      (Deployment.machine.next call t) := by
  have hstep := deploymentStep h.deployed call
  have hcounters := hstep.counters h.counters
  refine ⟨h.deployed.next call, fun p => hstep.logs h.deployed (h.logs p), hcounters, ?_⟩
  intro p key last hlast
  generalize hanswer : Deployment.machine.answer call t = answer at hstep hcounters ⊢
  generalize Deployment.machine.next call t = t' at hstep hcounters hlast
  cases hheard : submissionTo? p (call, answer) with
  | none =>
    rw [hstep.records_eq hheard] at hlast
    rw [throughLast_concat_of_not (by rw [hears, hheard]; rfl)]
    exact h.stated p key last hlast
  | some heard =>
    cases hstep with
    | addEntity => cases hheard
    | advance => cases hheard
    | submit q j k command answer s' hs =>
      cases answer with
      | submitted result =>
        simp only [submissionTo?, Option.ite_none_right_eq_some] at hheard
        obtain ⟨rfl, hheard⟩ := hheard
        obtain ⟨record, hrecords, hkey, hafter⟩ := hs.stated (h.deployed.worlds k)
        have hpipeline : (t.withExchange q j k s').pipelines q = s'.pipeline :=
          Function.update_self ..
        have hsession : (t.withExchange q j k s').sessions j = s'.session :=
          Function.update_self ..
        have hhears : hears q key (.submit q j k command, .submitted result) =
            decide (claimedKey command = key) := by
          simp [hears, submissionTo?]
        rw [hpipeline, hrecords, List.filter_append, List.filter_cons, List.filter_nil,
          hkey] at hlast
        by_cases hclaimed : claimedKey command = key
        · -- the record of this command is the last one
          rw [throughLast_concat (hhears.trans (decide_eq_true hclaimed)), lastCounter,
            List.getLast?_concat]
          dsimp only
          rw [decide_eq_true hclaimed, if_pos rfl, List.getLast?_concat] at hlast
          obtain rfl := Option.some.inj hlast
          rw [hafter, ← hcounters j, hsession]
        · rw [throughLast_concat_of_not (hhears.trans (decide_eq_false hclaimed))]
          rw [decide_eq_false hclaimed, if_neg Bool.false_ne_true, List.append_nil] at hlast
          exact h.stated q key last hlast
      | _ => cases hheard

/-- **Every run** from fresh pipelines and reachable worlds. -/
theorem counted_run {d : Deployment ι κ π} (hworlds : ∀ k, (d.worlds k).Reachable)
    (hpipelines : ∀ p, d.pipelines p = {}) (calls : List (DeploymentCall ι κ π)) :
    Counted d (Deployment.machine.trace d calls) (Deployment.machine.final d calls) := by
  have hstart : Counted d [] d := by
    refine ⟨⟨fun k => reachable_sound (hworlds k), fun p => ?_⟩, fun p => ?_, fun i => rfl, ?_⟩
    · rw [hpipelines p]
      exact Nat.zero_le _
    · rw [hpipelines p]
      exact logOk_empty
    · intro p key last hlast
      rw [hpipelines p] at hlast
      cases hlast
  exact Machine.history (J := Counted d) hstart (fun _ call _ h => h.next call) calls

/-! ## The exported fields -/

/-- The target ticks of an identity's records. -/
def targetTicks (records : List CommandEvidenceRecord) (key : SessionKey) : Set ℕ :=
  {tick | ∃ record ∈ records, sessionKey record = key ∧
    record.entry.envelope.targetTick.toNat = tick}

/-- The fields of an exported session mean what they are named, of the records of its identity. -/
structure SessionMeans (records : List CommandEvidenceRecord) (key : SessionKey) (element : Json) :
    Prop where
  clientId : HasString element "clientId" (decimal key.clientId.toNat)
  sessionId : HasString element "sessionId" (decimal key.sessionId.toNat)
  lastCommittedSequence : HasString element "lastCommittedSequence"
    (decimal (acceptedSequence (records.filter (sessionKey · = key))))
  firstTargetTick : ∃ tick, IsLeast (targetTicks records key) tick ∧
    HasString element "firstTargetTick" (decimal tick)
  lastTargetTick : ∃ tick, IsGreatest (targetTicks records key) tick ∧
    HasString element "lastTargetTick" (decimal tick)

/-- Those of every session of an export do, which shows the records. -/
def FieldsMean (records : List CommandEvidenceRecord) (text : List Char) : Prop :=
  ∃ bundle elements, decode (fun _ => true) text = some bundle ∧ ShowsArchive records bundle ∧
    bundle.member? "sessions" = some (.array elements) ∧
      ∀ element ∈ elements, ∃ key, SessionMeans records key element

/-- INTERNAL: a member holds one number. -/
theorem HasString.number_eq {object : Json} {name : String} {m n : ℕ}
    (h : HasString object name (decimal m)) (h' : HasString object name (decimal n)) : m = n := by
  have hunits := Json.string.inj (Option.some.inj (h.symm.trans h'))
  rw [← foldl_units_toDigits m, ← foldl_units_toDigits n]
  exact congrArg _ hunits

/-- INTERNAL: when the fields of a session mean what they are named. -/
theorem sessionMeans_iff {records : List CommandEvidenceRecord} {key : SessionKey}
    (hrecords : ∃ record ∈ records, sessionKey record = key) (aggregate : SessionAggregate) :
    (∃ other, SessionMeans records other
        (objectOf (sessionFields (summaryOf key aggregate) (projectionOf key records)))) ↔
      Projected records key := by
  have hshown : ∀ {name : String} {text : List Char},
      Field.string name text ∈ sessionFields (summaryOf key aggregate) (projectionOf key records) →
        HasString (objectOf (sessionFields (summaryOf key aggregate) (projectionOf key records)))
          name text := fun h => hasString_objectOf (sessionFields_names _ _) h
  generalize objectOf (sessionFields (summaryOf key aggregate) (projectionOf key records)) =
    element at hshown ⊢
  have hclient : HasString element "clientId" (decimal key.clientId.toNat) :=
    hshown (by simp [sessionFields, summaryOf])
  have hsession : HasString element "sessionId" (decimal key.sessionId.toNat) :=
    hshown (by simp [sessionFields, summaryOf])
  have hcommitted : HasString element "lastCommittedSequence"
      (decimal (projectionOf key records).lastCommittedSequence.toNat) :=
    hshown (by simp [sessionFields])
  have hfirst : HasString element "firstTargetTick"
      (decimal (projectionOf key records).firstTargetTick.toNat) :=
    hshown (by simp [sessionFields])
  have hlast : HasString element "lastTargetTick"
      (decimal (projectionOf key records).lastTargetTick.toNat) :=
    hshown (by simp [sessionFields])
  constructor
  · rintro ⟨other, hmeans⟩
    obtain rfl : other = key := congrArg₂ SessionKey.mk
      (UInt64.toNat_inj.mp (hmeans.clientId.number_eq hclient))
      (UInt64.toNat_inj.mp (hmeans.sessionId.number_eq hsession))
    obtain ⟨least, hleast, hshown⟩ := hmeans.firstTargetTick
    obtain rfl := hshown.number_eq hfirst
    obtain ⟨greatest, hgreatest, hshown⟩ := hmeans.lastTargetTick
    obtain rfl := hshown.number_eq hlast
    refine ⟨hcommitted.number_eq hmeans.lastCommittedSequence, ?_, ?_⟩
    · intro record hrecord hkey
      exact UInt64.le_iff_toNat_le.mpr (hleast.2 ⟨record, hrecord, hkey, rfl⟩)
    · intro record hrecord hkey
      exact UInt64.le_iff_toNat_le.mpr (hgreatest.2 ⟨record, hrecord, hkey, rfl⟩)
  · intro hprojected
    obtain ⟨first, last, hhead, htail, hprojection⟩ := projectionOf_eq hrecords
    obtain ⟨hfirstMem, hfirstKey⟩ := List.mem_filter.mp (List.mem_of_head? hhead)
    obtain ⟨hlastMem, hlastKey⟩ := List.mem_filter.mp (List.mem_of_getLast? htail)
    refine ⟨key, hclient, hsession, ?_, ⟨_, ⟨?_, ?_⟩, hfirst⟩, ⟨_, ⟨?_, ?_⟩, hlast⟩⟩
    · have hsequence := hprojected.committed
      rw [hsequence] at hcommitted
      exact hcommitted
    · exact ⟨first, hfirstMem, of_decide_eq_true hfirstKey, by rw [hprojection]⟩
    · rintro tick ⟨record, hrecord, hkey, rfl⟩
      exact UInt64.le_iff_toNat_le.mp (hprojected.first record hrecord hkey)
    · exact ⟨last, hlastMem, of_decide_eq_true hlastKey, by rw [hprojection]⟩
    · rintro tick ⟨record, hrecord, hkey, rfl⟩
      exact UInt64.le_iff_toNat_le.mp (hprojected.last record hrecord hkey)

/-- **When the fields of an export mean what they are named.** -/
theorem fieldsMean_iff (kept : KeptArchive) (result : CommandEvidenceReplayResult) :
    FieldsMean kept.records (kept.exportText result) ↔
      ∀ record ∈ kept.records, Projected kept.records (sessionKey record) := by
  have hdecode : decode (fun _ => true) (kept.exportText result) = some (bundleJson kept.summary
      genesisDigest kept.shownSessions (kept.records.map (storedAs kept.archiveId)) result
      kept.acceptedCount kept.rejectedCount) :=
    decode_bundleText (fun _ _ => rfl) _ _ _ _ _ _ _
  have helements : (∀ element ∈ kept.shownSessions.map fun shown =>
      objectOf (sessionFields shown.1 shown.2), ∃ key, SessionMeans kept.records key element) ↔
      ∀ record ∈ kept.records, Projected kept.records (sessionKey record) := by
    rw [KeptArchive.shownSessions, List.forall_mem_map, List.forall_mem_map]
    constructor
    · intro h record hrecord
      obtain ⟨entry, hentry, hkey⟩ :=
        List.mem_map.mp (mem_session_keys.mpr ⟨record, hrecord, rfl⟩)
      have hmeans := (sessionMeans_iff (mem_session_keys.mp (List.mem_map_of_mem hentry))
        entry.2).mp (h entry hentry)
      rwa [hkey] at hmeans
    · intro h entry hentry
      obtain ⟨record, hrecord, hkey⟩ := mem_session_keys.mp (List.mem_map_of_mem hentry)
      exact (sessionMeans_iff ⟨record, hrecord, hkey⟩ entry.2).mpr (hkey ▸ h record hrecord)
  rw [← helements]
  constructor
  · rintro ⟨bundle, elements, hbundle, -, hsessions, hmeans⟩
    obtain rfl := Option.some.inj (hdecode.symm.trans hbundle)
    have hsame : kept.shownSessions.map (fun shown =>
        objectOf (sessionFields shown.1 shown.2)) = elements :=
      Json.array.inj (Option.some.inj ((bundleJson_sessions ..).symm.trans hsessions))
    exact hsame ▸ hmeans
  · intro hmeans
    exact ⟨_, _, hdecode, showsArchive_bundle kept result, bundleJson_sessions .., hmeans⟩

/-! ## The log of a pipeline -/

section

variable {log : CommandEvidenceLog} {p : π} {trace : List (DeploymentCall ι κ π × Answer)}

omit [DecidableEq ι] [DecidableEq κ] in
/-- INTERNAL: the log holds the commands. -/
theorem LogOk.commands (h : LogOk log (submissionsTo p trace)) :
    log.records.map (·.entry.envelope) = commandsTo p trace := by
  have hrecords := congrArg (List.map Prod.fst) h.records
  rwa [List.map_map, List.map_map] at hrecords

omit [DecidableEq ι] [DecidableEq κ] in
/-- INTERNAL: under each identity. -/
theorem LogOk.commandsUnder (h : LogOk log (submissionsTo p trace)) (key : SessionKey) :
    (log.records.filter (sessionKey · = key)).map (·.entry.envelope) =
      commandsUnder p key trace := by
  rw [Analysis.commandsUnder, ← h.commands, List.filter_map]
  rfl

omit [DecidableEq ι] [DecidableEq κ] in
/-- INTERNAL: and what was accepted under it. -/
theorem LogOk.acceptedUnder (h : LogOk log (submissionsTo p trace)) (key : SessionKey) :
    acceptedSequence (log.records.filter (sessionKey · = key)) = acceptedUnder p key trace := by
  have hrecords := congrArg (fun triples => (triples.filter
    fun triple => decide (claimedKey triple.1 = key ∧ triple.2.1 = .none)).map
      fun triple => triple.1.sequence.toNat) h.records
  simp only [List.filter_map, List.map_map] at hrecords
  have hfilter : log.records.filter (fun record =>
        isAccepted record && decide (sessionKey record = key)) =
      log.records.filter fun record => decide
        (claimedKey record.entry.envelope = key ∧ record.entry.rejectionCode = .none) := by
    refine List.filter_congr fun record _ => ?_
    rw [isAccepted, Bool.and_comm, Bool.decide_and]
    rfl
  rw [acceptedSequence, List.filter_filter, hfilter]
  refine (congrArg (fun sequences => sequences.max?.getD 0) hrecords).trans ?_
  simp only [Analysis.acceptedUnder, CommandSubmissionResult.accepted, decide_eq_true_eq]
  rfl

end

omit [DecidableEq κ] in
/-- **What the projections of a log are**, of the run that wrote it. -/
theorem Counted.projected_iff {d t : Deployment ι κ π}
    {trace : List (DeploymentCall ι κ π × Answer)} (h : Counted d trace t) (p : π) :
    (∀ record ∈ (t.pipelines p).evidence.records,
        Projected (t.pipelines p).evidence.records (sessionKey record)) ↔ Meant d p trace := by
  have hlog := h.logs p
  have hstated := h.stated p
  generalize (t.pipelines p).evidence = log at hlog hstated ⊢
  have hcommands : ∀ {P : CommandEnvelope → Prop}, (∀ command ∈ commandsTo p trace, P command) ↔
      ∀ record ∈ log.records, P record.entry.envelope := by
    intro P
    rw [← hlog.commands, List.forall_mem_map]
  -- the projection of a record's identity, in terms of the run
  have hprojection : ∀ record ∈ log.records, ∃ first last,
      (commandsUnder p (sessionKey record) trace).head? = some first ∧
      (commandsUnder p (sessionKey record) trace).getLast? = some last ∧
      (projectionOf (sessionKey record) log.records).firstTargetTick = first.targetTick ∧
      (projectionOf (sessionKey record) log.records).lastTargetTick = last.targetTick ∧
      (projectionOf (sessionKey record) log.records).lastCommittedSequence.toNat =
        lastCounter d (throughLast p (sessionKey record) trace) := by
    intro record hrecord
    obtain ⟨first, last, hfirst, hlast, hprojection⟩ := projectionOf_eq ⟨record, hrecord, rfl⟩
    refine ⟨first.entry.envelope, last.entry.envelope, ?_, ?_, by rw [hprojection],
      by rw [hprojection], ?_⟩
    · rw [← hlog.commandsUnder, List.head?_map, hfirst]
      rfl
    · rw [← hlog.commandsUnder, List.getLast?_map, hlast]
      rfl
    · rw [hprojection]
      exact hstated (sessionKey record) last hlast
  constructor
  · intro hprojected
    refine ⟨hcommands.mpr fun record hrecord => ?_, hcommands.mpr fun record hrecord => ?_,
      hcommands.mpr fun record hrecord => ?_⟩
    · intro first hfirst
      obtain ⟨head, -, hhead, -, htick, -⟩ := hprojection record hrecord
      obtain rfl := Option.some.inj (hhead.symm.trans hfirst)
      exact htick ▸ (hprojected record hrecord).first record hrecord rfl
    · intro last hlast
      obtain ⟨-, tail, -, htail, -, htick, -⟩ := hprojection record hrecord
      obtain rfl := Option.some.inj (htail.symm.trans hlast)
      exact htick ▸ (hprojected record hrecord).last record hrecord rfl
    · obtain ⟨-, -, -, -, -, -, hcounter⟩ := hprojection record hrecord
      exact hcounter.symm.trans ((hprojected record hrecord).committed.trans
        (hlog.acceptedUnder (sessionKey record)))
  · rintro ⟨hfirst, hlast, hcounter⟩ record hrecord
    obtain ⟨first, last, hhead, htail, hfirstTick, hlastTick, hcommitted⟩ :=
      hprojection record hrecord
    refine ⟨?_, ?_, ?_⟩
    · exact hcommitted.trans ((hcommands.mp hcounter record hrecord).trans
        (hlog.acceptedUnder (sessionKey record)).symm)
    · intro other hother hkey
      rw [← hkey] at hhead
      exact hfirstTick ▸ hcommands.mp hfirst other hother first hhead
    · intro other hother hkey
      rw [← hkey] at htail
      exact hlastTick ▸ hcommands.mp hlast other hother last htail

/-! ## Exports of a pipeline's log -/

/-- A run of any number of sessions, worlds and pipelines from fresh pipelines and reachable worlds,
the log of one of its pipelines, which a store keeps as an archive, and the text of its export. -/
structure ExportedLog (d : Deployment ι κ π) (calls : List (DeploymentCall ι κ π)) (p : π)
    (storeCalls : List Call) (text : List Char) : Prop where
  reachable : ∀ k, (d.worlds k).Reachable
  fresh : ∀ q, d.pipelines q = {}
  exported :
    let log := ((Deployment.machine.final d calls).pipelines p).evidence
    ∃ kept ∈ archivesOf Statement.boundText (machine.trace opened storeCalls),
      encodeCommandEvidenceArchive log.records log.headDigest = .ok kept.encoded ∧
      exportInvestigationBundleJson (machine.final opened storeCalls).committed kept.archiveId =
        .ok text

/-- INTERNAL: when the session fields of an exported log mean what they are named. -/
theorem ExportedLog.fieldsMean_iff {d : Deployment ι κ π} {calls : List (DeploymentCall ι κ π)}
    {p : π} {storeCalls : List Call} {text : List Char}
    (h : ExportedLog d calls p storeCalls text) :
    FieldsMean ((Deployment.machine.final d calls).pipelines p).evidence.records text ↔
      Meant d p (Deployment.machine.trace d calls) := by
  obtain ⟨kept, hkept, hencoded, hexport⟩ := h.exported
  have hcounted := counted_run h.reachable h.fresh calls
  have hrecords := KeptArchive.records_eq (hcounted.logs p).ok hencoded
  obtain ⟨-, hrepresents⟩ := represents_run storeCalls
  obtain ⟨other, hother, hid, result, -, -, -, -, rfl⟩ := of_export_ok hrepresents hexport
  obtain rfl : other = kept := hrepresents.eq_of_archiveId hother hkept hid
  rw [← hcounted.projected_iff p, ← hrecords]
  exact Analysis.fieldsMean_iff other result

/-- **Every log has an export** of fewer than 2^31 records, if their digests are different. -/
theorem exists_exportedLog {d : Deployment ι κ π} (hworlds : ∀ k, (d.worlds k).Reachable)
    (hpipelines : ∀ q, d.pipelines q = {}) (calls : List (DeploymentCall ι κ π)) (p : π)
    (hshort : ((Deployment.machine.final d calls).pipelines p).evidence.records.length < 2 ^ 31)
    (hdistinct : ((Deployment.machine.final d calls).pipelines p).evidence.records.Pairwise
      fun a b => digestCommandEvidence a ≠ digestCommandEvidence b) :
    ∃ storeCalls text, ExportedLog d calls p storeCalls text := by
  have hcounted := counted_run hworlds hpipelines calls
  have hlog := hcounted.logs p
  have hfits : LogFits ((Deployment.machine.final d calls).pipelines p).evidence :=
    hcounted.deployed.logs p
  generalize hend : ((Deployment.machine.final d calls).pipelines p).evidence = log at *
  have hverify : log.verify = true :=
    verifyCommandEvidenceChain_iff.mpr ⟨hfits.trans (vectorMaxSize_lt _).le, hlog.linked⟩
  obtain ⟨storeCalls, text, kept, hkept, hencode, -, hexport⟩ := exists_export hverify hfits hlog.ok
    hshort hdistinct (show sampleResult.processedRecords < 2 ^ 63 by decide) (by decide)
  refine ⟨storeCalls, text, hworlds, hpipelines, ?_⟩
  rw [hend]
  exact ⟨kept, hkept, hencode, hexport⟩

/-- **What exported session fields mean.**  Of every run, the fields of every session in the export
of a pipeline's log are the greatest accepted sequence and the least and the greatest target tick of
its records exactly if each identity named its least target tick first and its greatest last, and
the session that its last command was sent to had accepted up to just the greatest sequence that
the pipeline accepted under the identity.
SRC: investigation_bundle_exporter.cpp:317-359, 466-532,
authoritative_command_pipeline.cpp:94-184, investigation_bundle.py:528-586 -/
theorem session_fields_mean_iff {d : Deployment ι κ π} {calls : List (DeploymentCall ι κ π)}
    {p : π} {storeCalls : List Call} {text : List Char}
    (h : ExportedLog d calls p storeCalls text) :
    FieldsMean ((Deployment.machine.final d calls).pipelines p).evidence.records text ↔
      Meant d p (Deployment.machine.trace d calls) :=
  h.fieldsMean_iff

/-- The fields of the export of one accepted command mean what they are named. -/
theorem session_fields_mean_iff_sample :
    ∃ storeCalls text,
      ExportedLog sampleDeployment [.submit () () () sampleEnvelope] () storeCalls text ∧
      FieldsMean ((Deployment.machine.final sampleDeployment
        [.submit () () () sampleEnvelope]).pipelines ()).evidence.records text := by
  obtain ⟨storeCalls, text, h⟩ := exists_exportedLog (d := sampleDeployment)
    (fun _ => sampleWorld_reachable) (fun _ => rfl) [.submit () () () sampleEnvelope] ()
    (by decide +kernel) (by decide +kernel)
  have hmeant : Meant sampleDeployment () (Deployment.machine.trace sampleDeployment
      [.submit () () () sampleEnvelope]) :=
    ⟨by decide +kernel, by decide +kernel, by decide +kernel⟩
  exact ⟨storeCalls, text, h, (session_fields_mean_iff h).mpr hmeant⟩

/-- The sample command for the second tick, and again for the first. -/
def resentCalls : List (DeploymentCall Unit Unit Unit) :=
  [.submit () () () { sampleEnvelope with targetTick := 2 }, .submit () () () sampleEnvelope]

/-- The second command is refused, and yet its target tick is the one that is exported as the
session's last. -/
theorem session_fields_fail :
    ∃ storeCalls text, ExportedLog sampleDeployment resentCalls () storeCalls text ∧
      ¬ FieldsMean ((Deployment.machine.final sampleDeployment
        resentCalls).pipelines ()).evidence.records text := by
  obtain ⟨storeCalls, text, h⟩ := exists_exportedLog (d := sampleDeployment)
    (fun _ => sampleWorld_reachable) (fun _ => rfl) resentCalls () (by decide +kernel)
    (by decide +kernel)
  refine ⟨storeCalls, text, h, fun hmean => ?_⟩
  have hcommands : commandsTo () (Deployment.machine.trace sampleDeployment resentCalls) =
      [{ sampleEnvelope with targetTick := 2 }, sampleEnvelope] := by decide +kernel
  have hless := (h.fieldsMean_iff.mp hmean).firstTarget sampleEnvelope
    (by rw [hcommands]; simp) { sampleEnvelope with targetTick := 2 }
    (by rw [commandsUnder, hcommands]; rfl)
  exact absurd hless (by decide)

end Tickline.Analysis
