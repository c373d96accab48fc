import Tickline.Analysis.StoreReads

/-!
# Every run of the store keeps a set of archives

A call either throws and leaves the store as it was, or imports an archive, or finds it there, or
records a replay result (`StoreStep`).  So after every run, whichever statements fail, the tables
show the set of archives that the calls and answers describe (`represents_run`).

The set has the sources as binding leaves them, which is as they were given when they are shorter
than 2^31 bytes: `store_is_archive_set` is the whole promise for such runs, and
`store_loses_source` a run with a longer source, of which the store keeps one byte.
-/

set_option autoImplicit false

namespace Tickline.Analysis

open Tickline.Library Tickline.Library.Connection Tickline.Model Tickline.Model.Storage
open Tickline.Model.Storage.InvestigationStore

/-! ## One call -/

/-- What one call does to a store that shows a set. -/
inductive StoreStep (set : List KeptArchive) (store : Connection Tables) :
    Call → Answer → Connection Tables → Prop
  | threw {call : Call} {fault : StoreFault} : StoreStep set store call (.threw fault) store
  | importedNew {failures : List (Option Failure)} {now : UtcTime} {encoded source : List UInt8}
      {head : Sha256Digest} {result : EvidenceArchiveImportResult} {tables : Tables}
      (archive : CommandEvidenceArchive)
      (hdecode : decodeCommandEvidenceArchive encoded head = .ok archive)
      (himport : ImportedNew now archive (sha256 encoded) head (Statement.boundText source)
        store.committed result tables) :
      StoreStep set store (.importArchive failures now encoded head source) (.imported result)
        { committed := tables }
  | importedAgain {failures : List (Option Failure)} {now : UtcTime} {encoded source : List UInt8}
      {head : Sha256Digest} {result : EvidenceArchiveImportResult} (kept : KeptArchive)
      (hkept : kept ∈ set) (hdigest : kept.digest = sha256 encoded)
      (hid : result.archiveId = kept.archiveId) (hinserted : result.inserted = false) :
      StoreStep set store (.importArchive failures now encoded head source) (.imported result)
        store
  | recorded {failures : List (Option Failure)} {archiveId : Int64}
      {result : CommandEvidenceReplayResult} {tables : Tables}
      (hfound : store.committed.hasArchive archiveId = true)
      (hprocessed : result.processedRecords < 2 ^ 63)
      (hpending : result.finalPendingCommandCount < 2 ^ 64)
      (hupsert : store.committed.upsertReplay
        (replayRow archiveId (Int64.ofNat result.processedRecords) result) = .ok ((), tables)) :
      StoreStep set store (.recordReplayResult failures archiveId result) .recorded
        { committed := tables }

/-- Nothing is going on at the connection. -/
structure Idle (store : Connection Tables) : Prop where
  working : store.working = none
  failures : store.failures = []

/-- INTERNAL: an idle connection is its committed contents. -/
theorem Idle.eq {store : Connection Tables} (h : Idle store) :
    store = { committed := store.committed } := by
  obtain ⟨committed, working, failures⟩ := store
  obtain ⟨rfl, rfl⟩ := h
  rfl

/-- INTERNAL: a call of a member that returned. -/
theorem storeCall_ok {α : Type} {action : StoreMember α} (answer : α → Answer) {a : α}
    {s s' : Tables} (h : action { committed := s } = .ok a { committed := s' }) :
    call answer [] action { committed := s } = (answer a, { committed := s' }) := by
  unfold call
  simp only [h]

/-- INTERNAL: a call of an atomic member. -/
theorem storeCall_cases {α : Type} {action : StoreMember α} {R : Tables → α → Tables → Prop}
    (h : Atomic action R) (answer : α → Answer) (failures : List (Option Failure))
    {store : Connection Tables} (hidle : Idle store) :
    (∃ fault, call answer failures action store = (.threw fault, store)) ∨
      ∃ a tables, R store.committed a tables ∧
        call answer failures action store = (answer a, { committed := tables }) := by
  have hrun := h { store with failures } hidle.working
  unfold call
  cases haction : action { store with failures } with
  | error fault next =>
    simp only [haction] at hrun ⊢
    refine Or.inl ⟨fault, ?_⟩
    obtain ⟨committed, working, failures'⟩ := next
    obtain ⟨rfl, rfl⟩ := hrun
    rw [hidle.eq]
  | ok a next =>
    simp only [haction] at hrun ⊢
    refine Or.inr ⟨a, next.committed, hrun.2, ?_⟩
    obtain ⟨committed, working, failures'⟩ := next
    obtain ⟨rfl, -⟩ := hrun
    rfl

/-- **What one call does**, whichever of its statements fail. -/
theorem machine_step {set : List KeptArchive} {store : Connection Tables} (hidle : Idle store)
    (h : Represents set store.committed) (call : Call) :
    StoreStep set store call (machine.answer call store) (machine.next call store) := by
  cases call with
  | importArchive failures now encoded head source =>
    have hcases := storeCall_cases (import_atomic now encoded head source) Answer.imported failures hidle
    unfold Machine.answer Machine.next
    show StoreStep set store _ (InvestigationStore.call _ _ _ _).1
      (InvestigationStore.call _ _ _ _).2
    rcases hcases with ⟨fault, hcall⟩ | ⟨result, tables, ⟨archive, hdecode, himport⟩, hcall⟩
    · rw [hcall]
      exact .threw
    · rw [hcall]
      rcases himport with hnew | ⟨⟨row, hrow, hresult⟩, hsame⟩
      · exact .importedNew archive hdecode hnew
      · obtain ⟨kept, hkept, hdigest, rfl⟩ := find_row_iff h hrow
        rw [hsame, ← hidle.eq]
        exact .importedAgain kept hkept hdigest (by rw [hresult]; rfl) (by rw [hresult])
  | recordReplayResult failures archiveId result =>
    have hcases := storeCall_cases (record_atomic archiveId result) (fun _ => Answer.recorded) failures
      hidle
    unfold Machine.answer Machine.next
    show StoreStep set store _ (InvestigationStore.call _ _ _ _).1
      (InvestigationStore.call _ _ _ _).2
    rcases hcases with ⟨fault, hcall⟩ | ⟨_, tables, ⟨-, hfound, hprocessed, hpending, hupsert⟩, hcall⟩
    · rw [hcall]
      exact .threw
    · rw [hcall]
      exact .recorded hfound hprocessed hpending hupsert

/-- INTERNAL: a call leaves the connection idle. -/
theorem StoreStep.idle {set : List KeptArchive} {store next : Connection Tables} {call : Call}
    {answer : Answer} (h : StoreStep set store call answer next) (hidle : Idle store) :
    Idle next := by
  cases h with
  | threw => exact hidle
  | importedNew => exact ⟨rfl, rfl⟩
  | importedAgain => exact hidle
  | recorded => exact ⟨rfl, rfl⟩

/-- **A call keeps the tables in step with the set.** -/
theorem StoreStep.represents {set : List KeptArchive} {store next : Connection Tables}
    {call : Call} {answer : Answer} (hstep : StoreStep set store call answer next)
    (h : Represents set store.committed) :
    Represents (archivesAfter Statement.boundText set (call, answer)) next.committed := by
  cases hstep with
  | threw =>
    cases call <;> exact h
  | @importedNew failures now encoded source head result tables archive hdecode himport =>
    have hnew : set.any (·.digest = sha256 encoded) = false := by
      rw [List.any_eq_false]
      intro kept hkept heq
      rw [decide_eq_true_eq] at heq
      refine himport.new kept.row (h.archives ▸ List.mem_map.mpr ⟨kept, hkept, rfl⟩) ?_
      rw [KeptArchive.row_archiveDigest, heq]
    rw [archivesAfter, hnew, if_neg (by simp)]
    split
    · rename_i decoded hdecoded
      obtain rfl : decoded = archive := Except.ok.inj (hdecoded.symm.trans hdecode)
      exact h.imported {
        archiveId := result.archiveId
        encoded, head
        source := Statement.boundText source
        importedAt := now
        archive := decoded
        genuine := hdecoded } rfl rfl himport
    · rename_i fault hfault
      rw [hdecode] at hfault
      cases hfault
  | @importedAgain failures now encoded source head result kept hkept hdigest =>
    rw [archivesAfter, if_pos]
    · exact h
    · exact List.any_eq_true.mpr ⟨kept, hkept, decide_eq_true hdigest⟩
  | recorded hfound hprocessed hpending hupsert =>
    exact h.recordedResult hfound hprocessed hpending hupsert

/-! ## Runs -/

/-- **After every run the tables show the set of archives.** -/
theorem represents_run (calls : List Call) :
    Idle (machine.final opened calls) ∧
      Represents (archivesOf Statement.boundText (machine.trace opened calls))
        (machine.final opened calls).committed := by
  refine Machine.history (m := machine) (J := fun trace store => Idle store ∧
    Represents (archivesOf Statement.boundText trace) store.committed)
    ⟨⟨rfl, rfl⟩, represents_opened⟩ ?_ calls
  rintro trace call store ⟨hidle, h⟩
  have hstep := machine_step hidle h call
  rw [archivesOf_concat]
  exact ⟨hstep.idle hidle, hstep.represents h⟩

/-! ## Sources -/

/-- The source of an import is shorter than 2^31 bytes. -/
def HasShortSource : Call → Prop
  | .importArchive _ _ _ _ source => source.length < 2 ^ 31
  | .recordReplayResult _ _ _ => True

/-- INTERNAL: a source shorter than 2^31 bytes is bound as it is. -/
theorem boundText_of_short {source : List UInt8} (h : source.length < 2 ^ 31) :
    Statement.boundText source = source := by
  have hvalue : (Int32.ofNat source.length).toInt = source.length := by
    rw [← Int32.ofInt_eq_ofNat]
    exact Int32.toInt_ofInt_of_le (by omega) (by omega)
  unfold Statement.boundText
  rw [if_neg, hvalue, Int.toNat_natCast, List.take_length]
  rw [Int32.lt_iff_toInt_lt, hvalue]
  simp

/-- INTERNAL: the events of a trace are of the calls of the run. -/
theorem mem_calls_of_mem_trace {calls : List Call} {store : Connection Tables}
    {event : Call × Answer} (h : event ∈ machine.trace store calls) : event.1 ∈ calls := by
  induction calls generalizing store with
  | nil => cases h
  | cons call calls ih =>
    rcases List.mem_cons.mp h with rfl | h
    · exact List.mem_cons_self ..
    · exact List.mem_cons_of_mem _ (ih h)

/-- INTERNAL: with short sources, the set has the sources as they were given. -/
theorem archivesOf_short {trace : List (Call × Answer)}
    (h : ∀ event ∈ trace, HasShortSource event.1) :
    archivesOf Statement.boundText trace = archivesOf id trace := by
  induction trace using List.reverseRecOn with
  | nil => rfl
  | append_singleton trace event ih =>
    have hrest := ih fun other hother => h other (List.mem_append_left _ hother)
    have hevent := h event (by simp)
    rw [archivesOf_concat, archivesOf_concat, hrest]
    obtain ⟨call, answer⟩ := event
    cases call with
    | recordReplayResult => cases answer <;> rfl
    | importArchive failures now encoded head source =>
      cases answer with
      | imported result =>
        simp only [archivesAfter, boundText_of_short hevent]
        rfl
      | recorded => rfl
      | threw => rfl

/-- The tables hold exactly the archives of the set: their rows, their records, their sessions
and their replay results. -/
structure HoldsArchives (set : List KeptArchive) (tables : Tables) : Prop where
  archives : tables.evidenceArchives = set.map (·.row)
  ids : (set.map (·.archiveId)).Nodup
  digests : (set.map (·.digest)).Nodup
  archiveCount : archiveCount tables = set.length
  recordCount : evidenceRecordCount tables = (set.map (·.records.length)).sum
  records : ∀ kept ∈ set, tables.commandEvidence.filter (·.archiveId = kept.archiveId) =
    kept.records.map (evidenceRow kept.archiveId)
  sessions : ∀ kept ∈ set, ∃ summaries : SessionAggregates,
    (∀ key, summaries.find? key = sessionSummary? key kept.records) ∧
      tables.archiveSessions.filter (·.archiveId = kept.archiveId) =
        sessionRows kept.archiveId summaries.entries
  replays : ∀ kept ∈ set, replayResult kept.archiveId tables = .ok kept.replay

/-- A call that throws changes nothing, and an import of an archive of the set returns its
identifier and changes nothing. -/
structure KeepsArchives (set : List KeptArchive) (store : Connection Tables) (call : Call)
    (answer : Answer) (next : Connection Tables) : Prop where
  failing : ∀ fault, answer = .threw fault → next = store
  repeated : ∀ failures now encoded head source result, ∀ kept ∈ set,
    call = .importArchive failures now encoded head source → answer = .imported result →
    kept.digest = sha256 encoded →
    result.archiveId = kept.archiveId ∧ result.inserted = false ∧ next = store

/-- INTERNAL: tables that show a set hold its archives. -/
theorem Represents.holds {set : List KeptArchive} {tables : Tables} (h : Represents set tables) :
    HoldsArchives set tables where
  archives := h.archives
  ids := h.ids_nodup
  digests := by
    rw [List.nodup_iff_pairwise_ne, List.pairwise_map]
    exact h.distinct
  archiveCount := by
    rw [archiveCount, h.archives, List.length_map]
  recordCount := by
    rw [evidenceRecordCount, h.evidence, List.length_flatMap]
    simp [KeptArchive.evidenceRows]
  records _ hkept := h.evidence_of hkept
  sessions kept hkept :=
    ⟨aggregatesOf kept.records, fun key => find?_aggregatesOf key _, h.sessions_of hkept⟩
  replays _ hkept := h.replayResult_eq hkept

/-- INTERNAL: what a step says about one call. -/
theorem StoreStep.keeps {set : List KeptArchive} {store next : Connection Tables} {call : Call}
    {answer : Answer} (hstep : StoreStep set store call answer next)
    (h : Represents set store.committed) : KeepsArchives set store call answer next := by
  have hsame : ∀ a ∈ set, ∀ b ∈ set, a.digest = b.digest → a = b := by
    intro a ha b hb hdigest
    exact List.inj_on_of_nodup_map h.holds.digests ha hb hdigest
  cases hstep with
  | threw =>
    refine ⟨fun _ _ => rfl, ?_⟩
    rintro _ _ _ _ _ _ _ _ _ ⟨⟩
  | importedNew archive hdecode himport =>
    refine ⟨by rintro _ ⟨⟩, ?_⟩
    intro _ _ _ _ _ _ kept hkept hcall _ hdigest
    cases hcall
    refine absurd ?_
      (himport.new kept.row (h.archives ▸ List.mem_map.mpr ⟨kept, hkept, rfl⟩))
    rw [KeptArchive.row_archiveDigest, hdigest]
  | importedAgain found hfound hfoundDigest hid hinserted =>
    refine ⟨by rintro _ ⟨⟩, ?_⟩
    intro _ _ _ _ _ _ kept hkept hcall hanswer hdigest
    cases hcall
    cases hanswer
    rw [hsame kept hkept found hfound (hdigest.trans hfoundDigest.symm)]
    exact ⟨hid, hinserted, rfl⟩
  | recorded =>
    refine ⟨by rintro _ ⟨⟩, ?_⟩
    rintro _ _ _ _ _ _ _ _ ⟨⟩

/-- **The store is a set of archives.**  After every run whose imports have sources shorter than
2^31 bytes, whichever statements failed, the store holds exactly the archives whose import
succeeded; and a further call that throws, or that imports one of them again, changes nothing.
SRC: investigation_store.cpp:368-410, 625-923, 1133-1184 -/
theorem store_is_archive_set (calls : List Call) (hshort : ∀ call ∈ calls, HasShortSource call) :
    HoldsArchives (archivesOf id (machine.trace opened calls))
        (machine.final opened calls).committed ∧
      ∀ call, KeepsArchives (archivesOf id (machine.trace opened calls))
        (machine.final opened calls) call (machine.answer call (machine.final opened calls))
        (machine.next call (machine.final opened calls)) := by
  obtain ⟨hidle, h⟩ := represents_run calls
  have hset : archivesOf Statement.boundText (machine.trace opened calls) =
      archivesOf id (machine.trace opened calls) :=
    archivesOf_short fun event hevent => hshort _ (mem_calls_of_mem_trace hevent)
  rw [hset] at h
  exact ⟨h.holds, fun call => (machine_step hidle h call).keeps h⟩

/-- A time to import at. -/
def sampleTime : UtcTime where
  year := 2026
  month := 7
  day := 20
  hour := 0
  minute := 0
  second := 0
  validYear := by decide
  validMonth := by decide
  validDay := by decide
  validTime := by decide

/-- An import of the archive without records. -/
def importOfEmpty (source : List UInt8) : Call :=
  .importArchive [] sampleTime (archiveBytes [] genesisDigest) genesisDigest source

/-- INTERNAL: what such an import runs. -/
theorem perform_importOfEmpty (source : List UInt8) (store : Connection Tables) :
    machine.perform (importOfEmpty source) store = call .imported []
      (importArchive sampleTime (archiveBytes [] genesisDigest) genesisDigest source) store := rfl

theorem store_is_archive_set_one :
    HoldsArchives (archivesOf id (machine.trace opened [importOfEmpty [97]]))
        (machine.final opened [importOfEmpty [97]]).committed ∧
      ∀ call, KeepsArchives (archivesOf id (machine.trace opened [importOfEmpty [97]]))
        (machine.final opened [importOfEmpty [97]]) call
        (machine.answer call (machine.final opened [importOfEmpty [97]]))
        (machine.next call (machine.final opened [importOfEmpty [97]])) :=
  store_is_archive_set [importOfEmpty [97]] (by simp [importOfEmpty, HasShortSource])

/-! ## A source that is too long -/

/-- INTERNAL: the archive without records decodes. -/
theorem empty_decodes : decodeCommandEvidenceArchive (archiveBytes [] genesisDigest)
    genesisDigest = .ok { records := [], headDigest := genesisDigest } :=
  decodeCommandEvidenceArchive_iff.mpr ⟨rfl, by decide, by decide, rfl, by simp⟩

/-- A source of 2^32 + 1 letters. -/
def longSource : List UInt8 := List.replicate (2 ^ 32 + 1) 97

/-- INTERNAL: one letter of it is bound. -/
theorem boundText_longSource : Statement.boundText longSource = [97] := by
  have hlength : Int32.ofNat longSource.length = 1 := by
    rw [longSource, List.length_replicate]
    decide
  unfold Statement.boundText
  rw [hlength]
  show longSource.take 1 = [97]
  rw [longSource, List.take_replicate]
  rfl

/-- INTERNAL: what importing it does to a new store. -/
theorem import_longSource : machine.perform (importOfEmpty longSource) opened =
    (.imported {
      archiveId := 1
      inserted := true
      recordCount := 0
      archiveDigest := sha256 (archiveBytes [] genesisDigest)
      chainHead := genesisDigest },
    { committed := { evidenceArchives := [archiveRow 1 sampleTime ⟨[], genesisDigest⟩
      (sha256 (archiveBytes [] genesisDigest)) genesisDigest [97]] } }) := by
  have hinsert : ∀ digest, Tables.insertArchive sampleTime
      { archiveRow 0 sampleTime ⟨[], genesisDigest⟩ digest genesisDigest [97] with
        importedAtUtc := [] } {} = .ok (some 1, { evidenceArchives :=
        [archiveRow 1 sampleTime ⟨[], genesisDigest⟩ digest genesisDigest [97]] }) := by
    intro digest
    simp [Tables.insertArchive, Tables.largestArchiveId, ArchiveRow.passesChecks,
      textIsNonempty, archiveRow]
  have hcontents : ∀ digest s, Settles (importContents 1 ⟨[], genesisDigest⟩ digest) s
      ⟨1, true, 0, digest, genesisDigest⟩ s := fun digest s =>
    (Settles.attempt _ s).bind ((Settles.pure _ s).bind ((Settles.attempt _ s).bind
      ((Settles.pure _ s).bind (Settles.pure _ s))))
  have hbody : ∀ digest, Settles (importBody sampleTime ⟨[], genesisDigest⟩ digest genesisDigest
      longSource) {} ⟨1, true, 0, digest, genesisDigest⟩ { evidenceArchives :=
        [archiveRow 1 sampleTime ⟨[], genesisDigest⟩ digest genesisDigest [97]] } := by
    intro digest
    have htext : Settles (Statement.bindText "insert evidence archive" longSource) {} [97] {} := by
      refine Settles.execute _ ?_
      rw [boundText_longSource, if_neg (by decide)]
    exact (Settles.attempt _ _).bind ((Settles.attempt _ _).bind
      ((Settles.ofExcept (checkedInt64_iff.mpr ⟨by decide, rfl⟩) _).bind (htext.bind
      ((stepDone_settles _ (hinsert digest)).bind (hcontents digest _)))))
  have hencoded : (archiveBytes [] genesisDigest).isEmpty = false := by
    rw [List.isEmpty_eq_false_iff, ← List.length_pos_iff, length_archiveBytes]
    decide
  have hsource : longSource.isEmpty = false := by
    rw [List.isEmpty_eq_false_iff, ← List.length_pos_iff, longSource, List.length_replicate]
    omega
  have hrun := importArchive_ok hencoded hsource empty_decodes
    (hbody (sha256 (archiveBytes [] genesisDigest)))
  have hcall := (perform_importOfEmpty longSource { committed := {} }).trans
    (storeCall_ok Answer.imported hrun)
  have hopened : opened = { committed := {} } := rfl
  rw [hopened]
  exact hcall

/-- **A source of 2^32 + 1 bytes is stored as its first byte.** -/
theorem store_loses_source :
    (machine.final opened [importOfEmpty longSource]).committed.evidenceArchives.map (·.source) =
        [[97]] ∧
      ¬ HoldsArchives (archivesOf id (machine.trace opened [importOfEmpty longSource]))
        (machine.final opened [importOfEmpty longSource]).committed := by
  have hfinal : machine.final opened [importOfEmpty longSource] = { committed := {
      evidenceArchives := [archiveRow 1 sampleTime ⟨[], genesisDigest⟩
        (sha256 (archiveBytes [] genesisDigest)) genesisDigest [97]] } } := by
    rw [Machine.final_cons, Machine.final_nil, Machine.next]
    exact congrArg Prod.snd import_longSource
  have htrace : machine.trace opened [importOfEmpty longSource] =
      [(importOfEmpty longSource, .imported ⟨1, true, 0, sha256 (archiveBytes [] genesisDigest),
        genesisDigest⟩)] := by
    rw [Machine.trace_cons, Machine.trace_nil, Machine.answer]
    exact congrArg (fun answer => [(importOfEmpty longSource, answer)])
      (congrArg Prod.fst import_longSource)
  have hset : (archivesOf id (machine.trace opened [importOfEmpty longSource])).map (·.source) =
      [longSource] := by
    rw [htrace, archivesOf, List.foldl_cons, List.foldl_nil, importOfEmpty, archivesAfter,
      if_neg (by simp)]
    split
    · rfl
    · rename_i fault hfault
      rw [empty_decodes] at hfault
      cases hfault
  rw [hfinal]
  refine ⟨rfl, ?_⟩
  intro hholds
  have hsources := congrArg (List.map (·.source)) hholds.archives
  rw [List.map_map] at hsources
  have hlong : [[97]] = [longSource] := hsources.trans hset
  have hlength := congrArg List.length (List.cons.inj hlong).1
  rw [longSource, List.length_replicate, List.length_singleton] at hlength
  omega

end Tickline.Analysis
