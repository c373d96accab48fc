import Tickline.Model.InvestigationStore

/-!
# What the members of the store do

For each mutating member, the change it makes to the tables when it returns; when it throws, it
makes none.  `import_atomic` and `record_atomic` hold whichever statements fail.
-/

set_option autoImplicit false

namespace Tickline.Analysis

open Tickline.Library Tickline.Library.Connection Tickline.Model Tickline.Model.Storage
open Tickline.Model.Storage.InvestigationStore

/-! ## Statements -/

/-- INTERNAL: a number in a column's range is bound as it is. -/
theorem checkedInt64_iff {value : ℕ} {name : String} {bound : Int64} :
    checkedInt64 value name = .ok bound ↔ value < 2 ^ 63 ∧ bound = Int64.ofNat value := by
  unfold checkedInt64
  split_ifs with h
  · exact iff_of_false (by simp) (by omega)
  · rw [Except.ok.injEq, eq_comm]
    exact ⟨fun heq => ⟨by omega, heq⟩, And.right⟩

/-- INTERNAL: preparing and binding change nothing. -/
theorem prepare_works (operation : String) :
    Works (Statement.prepare operation) fun s _ s' => s' = s := Works.attempt _

/-- INTERNAL: preparing and binding change nothing. -/
theorem bind_works (operation : String) :
    Works (Statement.bind operation) fun s _ s' => s' = s := Works.attempt _

/-- INTERNAL: a statement that returned did what the engine does with it. -/
theorem stepDone_works {α : Type} (operation : String)
    (statement : Tables → Except String (α × Tables)) :
    Works (Statement.stepDone operation statement)
      fun s a s' => statement s = .ok (a, s') := by
  refine ((Works.execute _ statement).bind fun a =>
    (Works.attempt _).bind fun _ => Works.pure a).mono ?_
  rintro s a s' ⟨b, t, hstatement, -, t', rfl, rfl, rfl⟩
  exact hstatement

/-- INTERNAL: a statement that the engine carries out returns what it gives. -/
theorem stepDone_settles {α : Type} (operation : String)
    {statement : Tables → Except String (α × Tables)} {s s' : Tables} {a : α}
    (h : statement s = .ok (a, s')) : Settles (Statement.stepDone operation statement) s a s' :=
  (Settles.execute _ h).bind ((Settles.attempt _ s').bind (Settles.pure a s'))

/-- INTERNAL: a statement that reads changes nothing. -/
theorem stepRow_works {α : Type} (operation : String) (query : Tables → α) :
    Works (Statement.stepRow operation query) fun s a s' => a = query s ∧ s' = s := by
  refine (Works.execute _ _).mono ?_
  rintro s a s' h
  cases h
  exact ⟨rfl, rfl⟩

/-- INTERNAL: a text that was bound is what binding it gives. -/
theorem bindText_works (operation : String) (value : List UInt8) :
    Works (Statement.bindText operation value)
      fun s a s' => a = Statement.boundText value ∧ s' = s := by
  refine (Works.execute _ _).mono ?_
  intro s a s' h
  split_ifs at h with hlong
  cases h
  exact ⟨rfl, rfl⟩

@[simp] theorem evidenceRow_archiveId (archiveId : Int64) (record : CommandEvidenceRecord) :
    (evidenceRow archiveId record).archiveId = archiveId := by simp only [evidenceRow]

@[simp] theorem evidenceRow_ordinal (archiveId : Int64) (record : CommandEvidenceRecord) :
    (evidenceRow archiveId record).ordinal = encodeU64 record.ordinal := by simp only [evidenceRow]

@[simp] theorem evidenceRow_recordDigest (archiveId : Int64) (record : CommandEvidenceRecord) :
    (evidenceRow archiveId record).recordDigest = appendDigest (digestCommandEvidence record) := by
  simp only [evidenceRow]

/-- INTERNAL: what an insertion of a record needs and does. -/
theorem insertEvidence_ok {row : EvidenceRow} {tables tables' : Tables} {u : Unit}
    (h : tables.insertEvidence row = .ok (u, tables')) :
    tables' = { tables with commandEvidence := tables.commandEvidence ++ [row] } ∧
      ∀ other ∈ tables.commandEvidence, other.archiveId = row.archiveId →
        other.recordDigest ≠ row.recordDigest := by
  unfold Tables.insertEvidence at h
  split_ifs at h with hchecks hordinal hdigest hforeign
  cases h
  refine ⟨rfl, ?_⟩
  intro other hother hid heq
  apply hdigest
  exact List.any_eq_true.mpr ⟨other, hother, by
    rw [Bool.and_eq_true, decide_eq_true_eq, decide_eq_true_eq]
    exact ⟨hid, heq⟩⟩

/-- INTERNAL: what an insertion of a session does. -/
theorem insertSession_ok {row : SessionRow} {tables tables' : Tables} {u : Unit}
    (h : tables.insertSession row = .ok (u, tables')) :
    tables' = { tables with archiveSessions := tables.archiveSessions ++ [row] } := by
  unfold Tables.insertSession at h
  split_ifs at h
  cases h
  rfl

/-! ## Loops -/

/-- The aggregates of some records. -/
def aggregatesOf (records : List CommandEvidenceRecord) : SessionAggregates :=
  records.foldl addToAggregates OrderedMap.empty

/-- The rows of the aggregates. -/
def sessionRows (archiveId : Int64) (aggregates : List (SessionKey × SessionAggregate)) :
    List SessionRow :=
  aggregates.map fun (key, aggregate) => sessionRow archiveId key aggregate
    (Int64.ofNat aggregate.acceptedCount) (Int64.ofNat aggregate.rejectedCount)

/-- **The record loop** adds a row for each record; no two records of an archive may have one
digest.
SRC: investigation_store.cpp:744-812 -/
theorem insertRecords_works (archiveId : Int64) (records : List CommandEvidenceRecord)
    (aggregates : SessionAggregates) :
    Works (insertRecords archiveId records aggregates) fun s a s' =>
      a = records.foldl addToAggregates aggregates ∧
        s' = { s with
          commandEvidence := s.commandEvidence ++ records.map (evidenceRow archiveId) } ∧
        (records.Pairwise fun a b => digestCommandEvidence a ≠ digestCommandEvidence b) ∧
        ∀ row ∈ s.commandEvidence, row.archiveId = archiveId → ∀ record ∈ records,
          row.recordDigest ≠ appendDigest (digestCommandEvidence record) := by
  induction records generalizing aggregates with
  | nil =>
    refine (Works.pure aggregates).mono ?_
    rintro s a s' ⟨rfl, rfl⟩
    simp
  | cons record records ih =>
    refine ((bind_works _).bind fun _ => (stepDone_works _ _).bind fun _ => ih _).mono ?_
    rintro s a s' ⟨_, t, rfl, _, t', hinsert, ha, hs, hpairwise, hfresh⟩
    obtain ⟨rfl, hnew⟩ := insertEvidence_ok hinsert
    refine ⟨ha, by simpa using hs, List.pairwise_cons.mpr ⟨?_, hpairwise⟩, ?_⟩
    · intro other hother heq
      refine hfresh (evidenceRow archiveId record) (List.mem_append_right _
        (List.mem_singleton.mpr rfl)) (evidenceRow_archiveId ..) other hother ?_
      rw [evidenceRow_recordDigest, heq]
    · intro row hrow hid other hother
      rcases List.mem_cons.mp hother with rfl | hother
      · rw [← evidenceRow_recordDigest archiveId]
        exact hnew row hrow (hid.trans (evidenceRow_archiveId ..).symm)
      · exact hfresh row (List.mem_append_left _ hrow) hid other hother

/-- **The session loop** adds a row for each aggregate.
SRC: investigation_store.cpp:822-837 -/
theorem insertSessions_works (archiveId : Int64)
    (aggregates : List (SessionKey × SessionAggregate)) :
    Works (insertSessions archiveId aggregates) fun s _ s' =>
      s' = { s with
        archiveSessions := s.archiveSessions ++ sessionRows archiveId aggregates } := by
  induction aggregates with
  | nil =>
    refine (Works.pure ()).mono ?_
    rintro s a s' ⟨-, rfl⟩
    simp [sessionRows]
  | cons entry aggregates ih =>
    obtain ⟨key, aggregate⟩ := entry
    refine ((bind_works _).bind fun _ => (Works.ofExcept _).bind fun accepted =>
      (Works.ofExcept _).bind fun rejected => (stepDone_works _ _).bind fun _ => ih).mono ?_
    rintro s a s' ⟨_, t, rfl, accepted, t', ⟨haccepted, rfl⟩, rejected, t'', ⟨hrejected, rfl⟩, _,
      t''', hinsert, hs⟩
    rw [insertSession_ok hinsert] at hs
    obtain ⟨-, rfl⟩ := checkedInt64_iff.mp haccepted
    obtain ⟨-, rfl⟩ := checkedInt64_iff.mp hrejected
    simpa [sessionRows] using hs

/-! ## Importing -/

/-- The row that an import gives the database; its identifier and time are assigned. -/
def archiveRow (archiveId : Int64) (importedAt : UtcTime) (archive : CommandEvidenceArchive)
    (archiveDigest trustedHead : Sha256Digest) (source : SqlText) : ArchiveRow where
  archiveId := archiveId
  archiveDigest := appendDigest archiveDigest
  trustedHead := appendDigest trustedHead
  declaredHead := appendDigest archive.headDigest
  archiveSchema := Int64.ofNat commandEvidenceArchiveSchemaVersion.toNat
  recordSchema := Int64.ofNat commandEvidenceSchemaVersion.toNat
  recordCount := Int64.ofNat archive.records.length
  source := source
  importedAtUtc := importedAt.currentTimestamp

/-- What an import of an archive does that the tables have no row of. -/
structure ImportedNew (now : UtcTime) (archive : CommandEvidenceArchive)
    (archiveDigest trustedHead : Sha256Digest) (source : SqlText) (s : Tables)
    (result : EvidenceArchiveImportResult) (s' : Tables) : Prop where
  room : s.largestArchiveId + 1 < 2 ^ 63
  new : ∀ row ∈ s.evidenceArchives, row.archiveDigest ≠ appendDigest archiveDigest
  distinct : archive.records.Pairwise fun a b => digestCommandEvidence a ≠ digestCommandEvidence b
  answer : result = {
    archiveId := Int64.ofInt (s.largestArchiveId + 1)
    inserted := true
    recordCount := archive.records.length
    archiveDigest
    chainHead := archive.headDigest }
  tables : s' = {
    evidenceArchives := s.evidenceArchives ++
      [archiveRow result.archiveId now archive archiveDigest trustedHead source]
    commandEvidence := s.commandEvidence ++ archive.records.map (evidenceRow result.archiveId)
    archiveSessions := s.archiveSessions ++
      sessionRows result.archiveId (aggregatesOf archive.records).entries
    replayResults := s.replayResults }

/-- What an import of an archive does that the tables have a row of. -/
structure ImportedAgain (archive : CommandEvidenceArchive) (archiveDigest : Sha256Digest)
    (s : Tables) (result : EvidenceArchiveImportResult) (s' : Tables) : Prop where
  found : ∃ row, s.evidenceArchives.find? (·.archiveDigest = appendDigest archiveDigest) =
    some row ∧ result = {
      archiveId := row.archiveId
      inserted := false
      recordCount := archive.records.length
      archiveDigest
      chainHead := archive.headDigest }
  tables : s' = s

/-- INTERNAL: what the insertion of an archive's row does. -/
theorem insertArchive_ok {now : UtcTime} {row : ArchiveRow} {s s' : Tables}
    {inserted : Option Int64} (h : s.insertArchive now row = .ok (inserted, s')) :
    (inserted = none ∧ s' = s) ∨
      (s.largestArchiveId + 1 < 2 ^ 63 ∧
        (∀ other ∈ s.evidenceArchives, other.archiveDigest ≠ row.archiveDigest) ∧
        inserted = some (Int64.ofInt (s.largestArchiveId + 1)) ∧
        s' = { s with evidenceArchives := s.evidenceArchives ++ [{ row with
          archiveId := Int64.ofInt (s.largestArchiveId + 1)
          importedAtUtc := now.currentTimestamp }] }) := by
  unfold Tables.insertArchive at h
  simp only at h
  split_ifs at h with hskipped hfull
  · cases h
    exact Or.inl ⟨rfl, rfl⟩
  · cases h
    refine Or.inr ⟨by omega, ?_, rfl, rfl⟩
    intro other hother heq
    apply hskipped
    rw [Bool.or_eq_true]
    exact Or.inr (List.any_eq_true.mpr ⟨other, hother, by simpa using heq⟩)

/-- INTERNAL: what is read back of an archive that is there already.
SRC: investigation_store.cpp:700-732 -/
theorem importFound_works (archive : CommandEvidenceArchive) (archiveDigest : Sha256Digest)
    (existing : Option ArchiveRow) : Works (match existing with
      | none => throw (.store .sqliteFailure "duplicate archive digest was not readable")
      | some existing => do
        let existingCount ← checkedSize existing.recordCount "stored archive record count"
        let existingHead ← decodeDigest existing.declaredHead "stored archive head"
        if existingCount ≠ archive.records.length ∨ existingHead ≠ archive.headDigest then
          throw (.store .sqliteFailure "archive digest conflicts with stored archive metadata")
        return {
          archiveId := existing.archiveId
          inserted := false
          recordCount := archive.records.length
          archiveDigest
          chainHead := archive.headDigest } : StoreMember EvidenceArchiveImportResult)
      fun s result s' => s' = s ∧ ∃ row, existing = some row ∧ result = {
          archiveId := row.archiveId
          inserted := false
          recordCount := archive.records.length
          archiveDigest
          chainHead := archive.headDigest } := by
  cases existing with
  | none => exact Works.throw _ _
  | some row =>
    refine ((Works.ofExcept _).bind fun _ => (Works.ofExcept _).bind fun _ =>
      Works.guard fun _ => Works.pure _).mono ?_
    rintro s result s' ⟨_, t, ⟨-, rfl⟩, _, t', ⟨-, rfl⟩, rfl, rfl⟩
    exact ⟨rfl, row, rfl, rfl⟩

/-- INTERNAL: the branch of an import whose row was skipped. -/
theorem importExisting_works (archive : CommandEvidenceArchive) (archiveDigest : Sha256Digest) :
    Works (importExisting archive archiveDigest) (ImportedAgain archive archiveDigest) := by
  refine ((prepare_works _).bind fun _ => (bind_works _).bind fun _ =>
    (stepRow_works _ _).bind fun existing => importFound_works archive archiveDigest existing).mono ?_
  rintro s result s' ⟨_, t, rfl, _, t', rfl, existing, t'', ⟨rfl, rfl⟩, rfl, row, hrow, hresult⟩
  exact ⟨⟨row, hrow, hresult⟩, rfl⟩

/-- INTERNAL: the branch of an import whose row went in. -/
theorem importContents_works (archiveId : Int64) (archive : CommandEvidenceArchive)
    (archiveDigest : Sha256Digest) :
    Works (importContents archiveId archive archiveDigest) fun s result s' =>
      result = {
        archiveId
        inserted := true
        recordCount := archive.records.length
        archiveDigest
        chainHead := archive.headDigest } ∧
      (archive.records.Pairwise fun a b => digestCommandEvidence a ≠ digestCommandEvidence b) ∧
      s' = { s with
        commandEvidence := s.commandEvidence ++ archive.records.map (evidenceRow archiveId)
        archiveSessions := s.archiveSessions ++
          sessionRows archiveId (aggregatesOf archive.records).entries } := by
  refine ((prepare_works _).bind fun _ => (insertRecords_works _ _ _).bind fun _ =>
    (prepare_works _).bind fun _ => (insertSessions_works _ _).bind fun _ => Works.pure _).mono ?_
  rintro s result s' ⟨_, t, rfl, aggregates, t', ⟨rfl, rfl, hdistinct, -⟩, _, t'', rfl, _, t''',
    rfl, rfl, rfl⟩
  exact ⟨rfl, hdistinct, rfl⟩

/-- INTERNAL: both continuations of an import.
SRC: investigation_store.cpp:693-848 -/
theorem importInserted_works (archive : CommandEvidenceArchive) (archiveDigest : Sha256Digest)
    (inserted : Option Int64) : Works (match inserted with
      | none => importExisting archive archiveDigest
      | some archiveId => importContents archiveId archive archiveDigest)
      fun s result s' => (inserted = none ∧ ImportedAgain archive archiveDigest s result s') ∨
        ∃ archiveId, inserted = some archiveId ∧ result = {
          archiveId
          inserted := true
          recordCount := archive.records.length
          archiveDigest
          chainHead := archive.headDigest } ∧
        (archive.records.Pairwise fun a b => digestCommandEvidence a ≠ digestCommandEvidence b) ∧
        s' = { s with
          commandEvidence := s.commandEvidence ++ archive.records.map (evidenceRow archiveId)
          archiveSessions := s.archiveSessions ++
            sessionRows archiveId (aggregatesOf archive.records).entries } := by
  cases inserted with
  | none => exact (importExisting_works archive archiveDigest).mono fun _ _ _ h => Or.inl ⟨rfl, h⟩
  | some archiveId =>
    exact (importContents_works archiveId archive archiveDigest).mono
      fun _ _ _ h => Or.inr ⟨archiveId, rfl, h⟩

/-- **What an import does inside its transaction.**
SRC: investigation_store.cpp:658-848 -/
theorem importBody_works (now : UtcTime) (archive : CommandEvidenceArchive)
    (archiveDigest trustedHead : Sha256Digest) (source : List UInt8) :
    Works (importBody now archive archiveDigest trustedHead source) fun s result s' =>
      ImportedNew now archive archiveDigest trustedHead (Statement.boundText source) s result s' ∨
        ImportedAgain archive archiveDigest s result s' := by
  refine ((prepare_works _).bind fun _ => (bind_works _).bind fun _ =>
    (Works.ofExcept _).bind fun recordCount => (bindText_works _ _).bind fun text =>
    (stepDone_works _ _).bind fun inserted =>
      importInserted_works archive archiveDigest inserted).mono ?_
  rintro s result s' ⟨_, t, rfl, _, t', rfl, recordCount, t'', ⟨hcount, rfl⟩, text, t''',
    ⟨rfl, rfl⟩, inserted, u, hinsert, hrest⟩
  obtain ⟨-, rfl⟩ := checkedInt64_iff.mp hcount
  rcases insertArchive_ok hinsert with ⟨rfl, rfl⟩ | ⟨hroom, hnew, rfl, rfl⟩
  · rcases hrest with ⟨-, hagain⟩ | ⟨archiveId, hsome, -⟩
    · exact Or.inr hagain
    · cases hsome
  · rcases hrest with ⟨hnone, -⟩ | ⟨archiveId, hsome, rfl, hdistinct, rfl⟩
    · cases hnone
    · cases hsome
      exact Or.inl ⟨hroom, hnew, hdistinct, rfl, rfl⟩

/-- **Importing is atomic**: it imports an archive that the bytes decode to, or finds it there, or
throws and changes nothing.
SRC: investigation_store.cpp:625-848 -/
theorem import_atomic (now : UtcTime) (encodedArchive : List UInt8) (trustedHead : Sha256Digest)
    (source : List UInt8) :
    Atomic (importArchive now encodedArchive trustedHead source) fun s result s' =>
      ∃ archive, decodeCommandEvidenceArchive encodedArchive trustedHead = .ok archive ∧
        (ImportedNew now archive (sha256 encodedArchive) trustedHead
            (Statement.boundText source) s result s' ∨
          ImportedAgain archive (sha256 encodedArchive) s result s') := by
  refine Atomic.guard fun _ => Atomic.guard fun _ =>
    ((Atomic.ofExcept _).bind fun archive =>
      atomic_transaction (importBody_works now archive _ trustedHead source) _ _).mono ?_
  rintro s result s' ⟨archive, hdecode, hbody⟩
  refine ⟨archive, ?_, hbody⟩
  cases hrun : decodeCommandEvidenceArchive encodedArchive trustedHead with
  | error fault =>
    rw [hrun] at hdecode
    cases hdecode
  | ok decoded =>
    rw [hrun] at hdecode
    cases hdecode
    rfl

/-- INTERNAL: an import whose parts all return returns. -/
theorem importArchive_ok {now : UtcTime} {encodedArchive source : List UInt8}
    {trustedHead : Sha256Digest} {archive : CommandEvidenceArchive} {s s' : Tables}
    {result : EvidenceArchiveImportResult} (hencoded : encodedArchive.isEmpty = false)
    (hsource : source.isEmpty = false)
    (hdecode : decodeCommandEvidenceArchive encodedArchive trustedHead = .ok archive)
    (hbody : Settles (importBody now archive (sha256 encodedArchive) trustedHead source) s result
      s') :
    importArchive now encodedArchive trustedHead source { committed := s } =
      .ok result { committed := s' } := by
  unfold importArchive
  simp only [hencoded, hsource, Bool.false_eq_true, if_false]
  rw [bind_apply, hdecode]
  exact transaction_settles hbody _ _

/-! ## Replay results -/

/-- **Recording is atomic**: it sets the row of an archive that is there, or throws and changes
nothing.
SRC: investigation_store.cpp:850-923 -/
theorem record_atomic (archiveId : Int64) (result : CommandEvidenceReplayResult) :
    Atomic (recordReplayResult archiveId result) fun s _ s' =>
      0 < archiveId ∧ s.hasArchive archiveId = true ∧ result.processedRecords < 2 ^ 63 ∧
        result.finalPendingCommandCount < 2 ^ 64 ∧
        s.upsertReplay (replayRow archiveId (Int64.ofNat result.processedRecords) result) =
          .ok ((), s') := by
  have hbody : Works (recordBody archiveId result) fun s _ s' =>
      result.processedRecords < 2 ^ 63 ∧
        s.upsertReplay (replayRow archiveId (Int64.ofNat result.processedRecords) result) =
          .ok ((), s') := by
    refine ((prepare_works _).bind fun _ => (bind_works _).bind fun _ =>
      (Works.ofExcept _).bind fun processed => stepDone_works _ _).mono ?_
    rintro s u s' ⟨_, t, rfl, _, t', rfl, processed, t'', ⟨hprocessed, rfl⟩, hupsert⟩
    obtain ⟨hlt, rfl⟩ := checkedInt64_iff.mp hprocessed
    exact ⟨hlt, hupsert⟩
  refine Atomic.guard fun hpositive => ((Atomic.attempt _).bind fun _ =>
    (Atomic.attempt _).bind fun _ => (Atomic.select _ _).bind fun found =>
    Atomic.guard fun hfound => Atomic.guard fun hpending =>
    (atomic_transaction hbody _ _).mono
      (Q := fun s _ s' => found = true ∧ result.finalPendingCommandCount < 2 ^ 64 ∧
        result.processedRecords < 2 ^ 63 ∧
        s.upsertReplay (replayRow archiveId (Int64.ofNat result.processedRecords) result) =
          .ok ((), s')) ?_).mono ?_
  · rintro s u s' ⟨hprocessed, hupsert⟩
    exact ⟨by simpa using hfound, by omega, hprocessed, hupsert⟩
  · rintro s u s' ⟨_, -, _, -, found, rfl, hfound, hpending, hprocessed, hupsert⟩
    exact ⟨Int64.not_le.mp hpositive, hfound, hprocessed, hpending, hupsert⟩

end Tickline.Analysis
