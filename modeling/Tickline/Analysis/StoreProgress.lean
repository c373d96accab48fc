import Tickline.Analysis.StoreRuns

/-!
# Imports that succeed

Without failing statements, an archive that decodes, whose digest is not in the store and whose
records have different digests is imported, as long as there is an identifier left and its source
can be bound (`import_succeeds`); and a replay result is recorded for any archive of the store
(`record_succeeds`).
-/

set_option autoImplicit false

namespace Tickline.Analysis

open Tickline.Library Tickline.Library.Connection Tickline.Model Tickline.Model.Storage
open Tickline.Model.Storage.InvestigationStore

/-! ## Insertions -/

/-- INTERNAL: the row of a record passes the checks of its table. -/
theorem evidenceRow_passesChecks (archiveId : Int64) (record : CommandEvidenceRecord) :
    (evidenceRow archiveId record).passesChecks = true := by
  have hencoded : (encodeCommandEvidence record).length = 160 := length_encodeCommandEvidence record
  simp [EvidenceRow.passesChecks, evidenceRow, hencoded]

/-- INTERNAL: the row of a session passes the checks of its table. -/
theorem sessionRow_passesChecks (archiveId : Int64) (key : SessionKey)
    (aggregate : SessionAggregate) {accepted rejected : ℕ} (haccepted : accepted < 2 ^ 63)
    (hrejected : rejected < 2 ^ 63) :
    (sessionRow archiveId key aggregate (Int64.ofNat accepted)
      (Int64.ofNat rejected)).passesChecks = true := by
  have hvalue : ∀ n : ℕ, n < 2 ^ 63 → (0 : Int64) ≤ Int64.ofNat n := by
    intro n hn
    rw [Int64.le_iff_toInt_le, toInt_ofNat hn]
    simp
  simp [SessionRow.passesChecks, sessionRow, hvalue _ haccepted, hvalue _ hrejected]

/-- INTERNAL: the records of a new archive go in one after the other. -/
theorem insertRecords_settles {archiveId : Int64} {records : List CommandEvidenceRecord} :
    ∀ (aggregates : SessionAggregates) {s : Tables}, s.hasArchive archiveId = true →
      (∀ row ∈ s.commandEvidence, row.archiveId = archiveId → ∀ record ∈ records,
        row.ordinal ≠ encodeU64 record.ordinal ∧
          row.recordDigest ≠ appendDigest (digestCommandEvidence record)) →
      (records.Pairwise fun a b => a.ordinal ≠ b.ordinal ∧
        digestCommandEvidence a ≠ digestCommandEvidence b) →
      ∃ s', s'.hasArchive archiveId = true ∧ s'.archiveSessions = s.archiveSessions ∧
        Settles (insertRecords archiveId records aggregates) s
          (records.foldl addToAggregates aggregates) s' := by
  induction records with
  | nil =>
    intro aggregates s harchive _ _
    exact ⟨s, harchive, rfl, Settles.pure _ _⟩
  | cons record records ih =>
    intro aggregates s harchive hfresh hdistinct
    obtain ⟨hhead, hrest⟩ := List.pairwise_cons.mp hdistinct
    have hinsert : s.insertEvidence (evidenceRow archiveId record) =
        .ok ((), { s with commandEvidence := s.commandEvidence ++ [evidenceRow archiveId record] }) := by
      unfold Tables.insertEvidence
      rw [evidenceRow_passesChecks, if_neg (by simp), if_neg, if_neg, if_neg]
      · rw [evidenceRow_archiveId, harchive]
        simp
      · intro hfound
        obtain ⟨row, hrow, heq⟩ := List.any_eq_true.mp hfound
        rw [Bool.and_eq_true, decide_eq_true_eq, decide_eq_true_eq, evidenceRow_archiveId,
          evidenceRow_recordDigest] at heq
        exact (hfresh row hrow heq.1 record (List.mem_cons_self ..)).2 heq.2
      · intro hfound
        obtain ⟨row, hrow, heq⟩ := List.any_eq_true.mp hfound
        rw [Bool.and_eq_true, decide_eq_true_eq, decide_eq_true_eq, evidenceRow_archiveId,
          evidenceRow_ordinal] at heq
        exact (hfresh row hrow heq.1 record (List.mem_cons_self ..)).1 heq.2
    have hnext : ∀ row ∈ s.commandEvidence ++ [evidenceRow archiveId record],
        row.archiveId = archiveId → ∀ other ∈ records, row.ordinal ≠ encodeU64 other.ordinal ∧
          row.recordDigest ≠ appendDigest (digestCommandEvidence other) := by
      intro row hrow hid other hother
      rcases List.mem_append.mp hrow with hrow | hrow
      · exact hfresh row hrow hid other (List.mem_cons_of_mem _ hother)
      · obtain rfl := List.mem_singleton.mp hrow
        obtain ⟨hordinal, hdigest⟩ := hhead other hother
        rw [evidenceRow_ordinal, evidenceRow_recordDigest]
        exact ⟨fun heq => hordinal (encodeU64_inj.mp heq),
          fun heq => hdigest (appendDigest_injective heq)⟩
    obtain ⟨s', harchive', hsessions, hsettles⟩ := ih (addToAggregates aggregates record)
      (s := { s with commandEvidence := s.commandEvidence ++ [evidenceRow archiveId record] })
      harchive hnext hrest
    exact ⟨s', harchive', hsessions, (Settles.attempt _ _).bind
      ((stepDone_settles _ hinsert).bind hsettles)⟩

/-- INTERNAL: the sessions of a new archive go in one after the other. -/
theorem insertSessions_settles {archiveId : Int64}
    {aggregates : List (SessionKey × SessionAggregate)} :
    ∀ {s : Tables}, s.hasArchive archiveId = true →
      (∀ row ∈ s.archiveSessions, row.archiveId = archiveId → ∀ entry ∈ aggregates,
        ¬ (row.clientId = encodeU64 entry.1.clientId ∧
          row.sessionId = encodeU64 entry.1.sessionId)) →
      (aggregates.Pairwise fun a b => a.1 ≠ b.1) →
      (∀ entry ∈ aggregates, entry.2.acceptedCount < 2 ^ 63 ∧ entry.2.rejectedCount < 2 ^ 63) →
      ∃ s', Settles (insertSessions archiveId aggregates) s () s' := by
  induction aggregates with
  | nil =>
    intro s _ _ _ _
    exact ⟨s, Settles.pure _ _⟩
  | cons entry aggregates ih =>
    obtain ⟨key, aggregate⟩ := entry
    intro s harchive hfresh hdistinct hcounts
    obtain ⟨hhead, hrest⟩ := List.pairwise_cons.mp hdistinct
    obtain ⟨haccepted, hrejected⟩ := hcounts _ (List.mem_cons_self ..)
    have hinsert : s.insertSession (sessionRow archiveId key aggregate
        (Int64.ofNat aggregate.acceptedCount) (Int64.ofNat aggregate.rejectedCount)) =
        .ok ((), { s with archiveSessions := s.archiveSessions ++ [sessionRow archiveId key aggregate
          (Int64.ofNat aggregate.acceptedCount) (Int64.ofNat aggregate.rejectedCount)] }) := by
      unfold Tables.insertSession
      rw [sessionRow_passesChecks _ _ _ haccepted hrejected, if_neg (by simp), if_neg, if_neg]
      · simpa [sessionRow] using harchive
      · intro hfound
        obtain ⟨row, hrow, heq⟩ := List.any_eq_true.mp hfound
        simp only [Bool.and_eq_true, decide_eq_true_eq] at heq
        exact hfresh row hrow heq.1.1 _ (List.mem_cons_self ..) ⟨heq.1.2, heq.2⟩
    have hnext : ∀ row ∈ s.archiveSessions ++ [sessionRow archiveId key aggregate
        (Int64.ofNat aggregate.acceptedCount) (Int64.ofNat aggregate.rejectedCount)],
        row.archiveId = archiveId → ∀ other ∈ aggregates,
          ¬ (row.clientId = encodeU64 other.1.clientId ∧
            row.sessionId = encodeU64 other.1.sessionId) := by
      intro row hrow hid other hother heq
      rcases List.mem_append.mp hrow with hrow | hrow
      · exact hfresh row hrow hid other (List.mem_cons_of_mem _ hother) heq
      · obtain rfl := List.mem_singleton.mp hrow
        apply hhead other hother
        rw [SessionKey.mk.injEq]
        exact ⟨encodeU64_inj.mp heq.1, encodeU64_inj.mp heq.2⟩
    obtain ⟨s', hsettles⟩ := ih (s := { s with archiveSessions := s.archiveSessions ++
      [sessionRow archiveId key aggregate (Int64.ofNat aggregate.acceptedCount)
        (Int64.ofNat aggregate.rejectedCount)] }) harchive hnext hrest
      fun other hother => hcounts other (List.mem_cons_of_mem _ hother)
    exact ⟨s', (Settles.attempt _ _).bind
      ((Settles.ofExcept (checkedInt64_iff.mpr ⟨haccepted, rfl⟩) _).bind
        ((Settles.ofExcept (checkedInt64_iff.mpr ⟨hrejected, rfl⟩) _).bind
          ((stepDone_settles _ hinsert).bind hsettles)))⟩

/-! ## Importing -/

/-- INTERNAL: the counts of a session are at most the number of records. -/
theorem aggregate_counts {records : List CommandEvidenceRecord}
    {entry : SessionKey × SessionAggregate} (h : entry ∈ (aggregatesOf records).entries) :
    entry.2.acceptedCount ≤ records.length ∧ entry.2.rejectedCount ≤ records.length := by
  have hfind := OrderedMap.find?_eq_some_iff.mpr h
  rw [find?_aggregatesOf, sessionSummary?] at hfind
  obtain ⟨first, -, hlast⟩ := Option.bind_eq_some_iff.mp hfind
  obtain ⟨last, -, haggregate⟩ := Option.map_eq_some_iff.mp hlast
  rw [← haggregate]
  exact ⟨List.countP_le_length.trans (List.length_filter_le _ _),
    List.countP_le_length.trans (List.length_filter_le _ _)⟩

/-- INTERNAL: an import into tables that have nothing of the archive. -/
theorem importBody_settles (now : UtcTime) {archive : CommandEvidenceArchive}
    (archiveDigest trustedHead : Sha256Digest) {source : List UInt8} {s : Tables}
    (hcount : archive.records.length < 2 ^ 63)
    (hsource : textIsNonempty (Statement.boundText source) = true)
    (hlong : (Statement.boundText source).length ≤ sqliteMaximumLength)
    (hroom : s.largestArchiveId + 1 < 2 ^ 63)
    (hnew : ∀ row ∈ s.evidenceArchives, row.archiveDigest ≠ appendDigest archiveDigest)
    (hevidence : ∀ row ∈ s.commandEvidence,
      row.archiveId ≠ Int64.ofInt (s.largestArchiveId + 1))
    (hsessions : ∀ row ∈ s.archiveSessions,
      row.archiveId ≠ Int64.ofInt (s.largestArchiveId + 1))
    (hdistinct : archive.records.Pairwise fun a b => a.ordinal ≠ b.ordinal ∧
      digestCommandEvidence a ≠ digestCommandEvidence b) :
    ∃ result s', Settles (importBody now archive archiveDigest trustedHead source) s result s' := by
  have htext : Settles (Statement.bindText "insert evidence archive" source) s
      (Statement.boundText source) s := by
    refine Settles.execute _ ?_
    rw [if_neg (by omega)]
  obtain ⟨s₁, hinsert, harchive, hevidence₁, hsessions₁⟩ : ∃ s₁, s.insertArchive now {
      archiveId := 0
      archiveDigest := appendDigest archiveDigest
      trustedHead := appendDigest trustedHead
      declaredHead := appendDigest archive.headDigest
      archiveSchema := Int64.ofNat commandEvidenceArchiveSchemaVersion.toNat
      recordSchema := Int64.ofNat commandEvidenceSchemaVersion.toNat
      recordCount := Int64.ofNat archive.records.length
      source := Statement.boundText source
      importedAtUtc := [] } = .ok (some (Int64.ofInt (s.largestArchiveId + 1)), s₁) ∧
      s₁.hasArchive (Int64.ofInt (s.largestArchiveId + 1)) = true ∧
      s₁.commandEvidence = s.commandEvidence ∧ s₁.archiveSessions = s.archiveSessions := by
    have hpositive : (0 : Int64) ≤ Int64.ofNat archive.records.length := by
      rw [Int64.le_iff_toInt_le, toInt_ofNat hcount]
      simp
    unfold Tables.insertArchive
    simp only
    rw [if_neg, if_neg (by omega)]
    · exact ⟨_, rfl, by simp [Tables.hasArchive], rfl, rfl⟩
    · rw [Bool.or_eq_true, not_or]
      refine ⟨by simp [ArchiveRow.passesChecks, hpositive, hsource], ?_⟩
      intro hfound
      obtain ⟨row, hrow, heq⟩ := List.any_eq_true.mp hfound
      exact hnew row hrow (of_decide_eq_true heq)
  obtain ⟨s₂, harchive₂, hsessions₂, hrecords⟩ := insertRecords_settles
    OrderedMap.empty harchive
    (fun row hrow hid => absurd hid (hevidence row (hevidence₁ ▸ hrow))) hdistinct
  obtain ⟨s₃, hlast⟩ := insertSessions_settles harchive₂
    (fun row hrow hid => absurd hid (hsessions row (by rwa [hsessions₂, hsessions₁] at hrow)))
    ((aggregatesOf archive.records).ascending.imp ne_of_lt)
    (fun entry hentry => by
      have := aggregate_counts hentry
      omega)
  refine ⟨_, s₃, (Settles.attempt _ _).bind ((Settles.attempt _ _).bind
    ((Settles.ofExcept (checkedInt64_iff.mpr ⟨hcount, rfl⟩) _).bind (htext.bind
    ((stepDone_settles _ hinsert).bind ((Settles.attempt _ _).bind (hrecords.bind
    ((Settles.attempt _ _).bind (hlast.bind (Settles.pure _ _)))))))))⟩

/-- INTERNAL: an archive that decodes has bytes. -/
theorem encoded_nonempty {encoded : List UInt8} {head : Sha256Digest}
    {archive : CommandEvidenceArchive} (h : decodeCommandEvidenceArchive encoded head = .ok archive) :
    encoded.isEmpty = false := by
  obtain ⟨-, -, -, rfl, -⟩ := decodeCommandEvidenceArchive_iff.mp h
  rw [List.isEmpty_eq_false_iff, ← List.length_pos_iff, length_archiveBytes]
  exact Nat.add_pos_left (by decide) _

/-- INTERNAL: the records of an archive that decodes. -/
theorem decoded_archive {encoded : List UInt8} {head : Sha256Digest}
    {archive : CommandEvidenceArchive} (h : decodeCommandEvidenceArchive encoded head = .ok archive) :
    archive.records.length < 2 ^ 63 ∧ archive.records.Pairwise fun a b => a.ordinal < b.ordinal := by
  let kept : KeptArchive := {
    archiveId := 0, encoded, head, source := [], importedAt := sampleTime, archive, genuine := h }
  have hcount := kept.decoded.2.2.1
  rw [maximumRecordCount_eq] at hcount
  exact ⟨hcount.trans_lt (by norm_num), kept.ascending⟩

/-- **An import succeeds** if the archive decodes and is not there yet, its records have
different digests, its source can be bound and an identifier is left.
SRC: investigation_store.cpp:625-848 -/
theorem import_succeeds (calls : List Call) (now : UtcTime) {encoded source : List UInt8}
    {head : Sha256Digest} {archive : CommandEvidenceArchive}
    (hdecode : decodeCommandEvidenceArchive encoded head = .ok archive)
    (hdistinct : archive.records.Pairwise fun a b =>
      digestCommandEvidence a ≠ digestCommandEvidence b)
    (hsource : textIsNonempty (Statement.boundText source) = true)
    (hlong : (Statement.boundText source).length ≤ sqliteMaximumLength)
    (hnew : ∀ kept ∈ archivesOf Statement.boundText (machine.trace opened calls),
      kept.digest ≠ sha256 encoded)
    (hroom : (machine.final opened calls).committed.largestArchiveId + 1 < 2 ^ 63) :
    ∃ result, machine.answer (.importArchive [] now encoded head source)
        (machine.final opened calls) = .imported result ∧
      result.archiveId = Int64.ofInt
        ((machine.final opened calls).committed.largestArchiveId + 1) := by
  obtain ⟨hidle, h⟩ := represents_run calls
  generalize machine.final opened calls = store at *
  obtain ⟨hzero, hlargest⟩ := le_largestArchiveId h
  have hfree : ∀ kept ∈ archivesOf Statement.boundText (machine.trace opened calls),
      kept.archiveId ≠ Int64.ofInt (store.committed.largestArchiveId + 1) := by
    intro kept hkept heq
    have hle := hlargest kept hkept
    rw [heq, Int64.toInt_ofInt_of_le (by omega) hroom] at hle
    omega
  obtain ⟨hcount, hascending⟩ := decoded_archive hdecode
  obtain ⟨result, s', hsettles⟩ := importBody_settles now (sha256 encoded) head
    hcount hsource hlong hroom
    (by
      intro row hrow heq
      rw [h.archives] at hrow
      obtain ⟨kept, hkept, rfl⟩ := List.mem_map.mp hrow
      rw [KeptArchive.row_archiveDigest] at heq
      exact hnew kept hkept (appendDigest_injective heq))
    (by
      intro row hrow
      rw [h.evidence] at hrow
      obtain ⟨kept, hkept, hmem⟩ := List.mem_flatMap.mp hrow
      obtain ⟨record, -, rfl⟩ := List.mem_map.mp hmem
      rw [evidenceRow_archiveId]
      exact hfree kept hkept)
    (by
      intro row hrow
      rw [h.sessions] at hrow
      obtain ⟨kept, hkept, hmem⟩ := List.mem_flatMap.mp hrow
      obtain ⟨entry, -, rfl⟩ := List.mem_map.mp hmem
      exact hfree kept hkept)
    ((hascending.and hdistinct).imp fun hab => ⟨UInt64.ne_of_lt hab.1, hab.2⟩)
  have hnonempty : source.isEmpty = false := by
    cases source with
    | nil => cases hsource
    | cons => rfl
  have hrun := importArchive_ok (encoded_nonempty hdecode) hnonempty hdecode hsettles
  have hcall := storeCall_ok Answer.imported hrun
  rw [← hidle.eq] at hcall
  refine ⟨result, congrArg Prod.fst hcall, ?_⟩
  rcases hsettles.works (importBody_works now archive (sha256 encoded) head source) with himport | hagain
  · exact congrArg (·.archiveId) himport.answer
  · obtain ⟨row, hrow, -⟩ := hagain.found
    obtain ⟨kept, hkept, hdigest, -⟩ := find_row_iff h hrow
    exact absurd hdigest (hnew kept hkept)

/-- INTERNAL: the row of a replay result of an archive in the tables goes in. -/
theorem upsertReplay_ok {archiveId : Int64} (result : CommandEvidenceReplayResult) {s : Tables}
    (hfound : s.hasArchive archiveId = true) (hprocessed : result.processedRecords < 2 ^ 63) :
    ∃ s', s.upsertReplay (replayRow archiveId (Int64.ofNat result.processedRecords) result) =
      .ok ((), s') := by
  have hpositive : (0 : Int64) ≤ Int64.ofNat result.processedRecords := by
    rw [Int64.le_iff_toInt_le, toInt_ofNat hprocessed]
    simp
  have hchecks : (replayRow archiveId (Int64.ofNat result.processedRecords) result).passesChecks =
      true := by
    cases hordinal : result.failedOrdinal <;>
      simp [ReplayRow.passesChecks, replayRow, hpositive, hordinal]
  unfold Tables.upsertReplay
  rw [hchecks, if_neg (by simp)]
  split_ifs with hold hforeign
  · exact ⟨_, rfl⟩
  · have hid : (replayRow archiveId (Int64.ofNat result.processedRecords) result).archiveId =
        archiveId := rfl
    rw [hid, hfound] at hforeign
    cases hforeign
  · exact ⟨_, rfl⟩

/-- **A replay result is recorded** for every archive of the store.
SRC: investigation_store.cpp:850-923 -/
theorem record_succeeds (calls : List Call) (kept : KeptArchive)
    (hkept : kept ∈ archivesOf Statement.boundText (machine.trace opened calls))
    {result : CommandEvidenceReplayResult} (hprocessed : result.processedRecords < 2 ^ 63)
    (hpending : result.finalPendingCommandCount < 2 ^ 64) :
    machine.answer (.recordReplayResult [] kept.archiveId result) (machine.final opened calls) =
      .recorded := by
  obtain ⟨hidle, h⟩ := represents_run calls
  have hpositive := h.id_positive hkept
  have hfound : (machine.final opened calls).committed.hasArchive kept.archiveId = true := by
    rw [Tables.hasArchive, h.archives]
    exact List.any_eq_true.mpr ⟨kept.row, List.mem_map.mpr ⟨kept, hkept, rfl⟩, by simp⟩
  obtain ⟨s', hupsert⟩ := upsertReplay_ok result hfound hprocessed
  have hbody : Settles (recordBody kept.archiveId result) (machine.final opened calls).committed ()
      s' :=
    (Settles.attempt _ _).bind ((Settles.attempt _ _).bind
      ((Settles.ofExcept (checkedInt64_iff.mpr ⟨hprocessed, rfl⟩) _).bind
        (stepDone_settles _ hupsert)))
  have hrun : recordReplayResult kept.archiveId result
      { committed := (machine.final opened calls).committed } = .ok () { committed := s' } := by
    unfold recordReplayResult
    rw [if_neg hpositive]
    simp only [Statement.prepare, Statement.bind, Statement.stepRow, bind_apply, attempt, execute,
      view, Option.getD_none, hfound]
    rw [if_neg (by simp), if_neg (by omega)]
    exact transaction_settles hbody _ _
  have hcall := storeCall_ok (fun _ => Answer.recorded) hrun
  rw [← hidle.eq] at hcall
  exact congrArg Prod.fst hcall

/-! ## One archive and its replay result -/

/-- The calls that bring an archive into a new store and record a replay result for it. -/
def keepOne (encoded : List UInt8) (head : Sha256Digest) (source : List UInt8)
    (result : CommandEvidenceReplayResult) : List Call :=
  [.importArchive [] sampleTime encoded head source, .recordReplayResult [] 1 result]

/-- The archive that they keep. -/
def keptOne {encoded : List UInt8} {head : Sha256Digest} {archive : CommandEvidenceArchive}
    (h : decodeCommandEvidenceArchive encoded head = .ok archive) (source : List UInt8)
    (result : CommandEvidenceReplayResult) : KeptArchive where
  archiveId := 1
  encoded := encoded
  head := head
  source := source
  importedAt := sampleTime
  archive := archive
  genuine := h
  replay := some result

/-- **A new store takes an archive and its replay result.** -/
theorem archivesOf_keepOne {encoded source : List UInt8} {head : Sha256Digest}
    {archive : CommandEvidenceArchive} (hdecode : decodeCommandEvidenceArchive encoded head = .ok archive)
    (hdistinct : archive.records.Pairwise fun a b =>
      digestCommandEvidence a ≠ digestCommandEvidence b)
    (hsource : textIsNonempty (Statement.boundText source) = true)
    (hlong : (Statement.boundText source).length ≤ sqliteMaximumLength)
    {result : CommandEvidenceReplayResult} (hprocessed : result.processedRecords < 2 ^ 63)
    (hpending : result.finalPendingCommandCount < 2 ^ 64) :
    archivesOf Statement.boundText (machine.trace opened (keepOne encoded head source result)) =
      [keptOne hdecode (Statement.boundText source) result] := by
  have hroom : (machine.final opened []).committed.largestArchiveId + 1 < 2 ^ 63 := by
    have hzero : (machine.final opened []).committed.largestArchiveId = 0 := rfl
    rw [hzero]
    norm_num
  obtain ⟨imported, hanswer, hid⟩ := import_succeeds [] sampleTime hdecode hdistinct hsource
    hlong (by simp [archivesOf]) hroom
  let first : Call := .importArchive [] sampleTime encoded head source
  have hset : archivesOf Statement.boundText (machine.trace opened [first]) =
      [{ keptOne hdecode (Statement.boundText source) result with replay := none }] := by
    have htrace : machine.trace opened [first] = [] ++ [(first, .imported imported)] :=
      congrArg (fun answer => [(first, answer)]) hanswer
    rw [htrace, archivesOf_concat, archivesOf, List.foldl_nil, archivesAfter,
      if_neg (by simp)]
    split
    · rename_i decoded hdecoded
      obtain rfl : decoded = archive := Except.ok.inj (hdecoded.symm.trans hdecode)
      have hone : imported.archiveId = 1 := hid
      simp only [hone]
      rfl
    · rename_i fault hfault
      rw [hdecode] at hfault
      cases hfault
  have hrecorded := record_succeeds [first] { keptOne hdecode
    (Statement.boundText source) result with replay := none }
    (by rw [hset]; exact List.mem_singleton.mpr rfl) hprocessed hpending
  have htrace : machine.trace opened (keepOne encoded head source result) =
      machine.trace opened [first] ++ [(.recordReplayResult [] 1 result, .recorded)] := by
    have happend := machine.trace_append opened [first] [.recordReplayResult [] 1 result]
    rw [Machine.trace_cons, Machine.trace_nil, List.cons_append] at happend
    refine happend.trans ?_
    exact congrArg (fun answer => machine.trace opened [first] ++
      [(Call.recordReplayResult [] 1 result, answer)]) hrecorded
  rw [htrace, archivesOf_concat, hset, archivesAfter]
  rfl

/-- A replay result of the archive of the sample record. -/
def sampleResult : CommandEvidenceReplayResult where
  code := .verified
  processedRecords := 1
  failedOrdinal := none
  performedTickAdvances := 0
  finalTick := 0
  finalSessionSequence := 0
  finalPendingCommandCount := 0
  finalWorldFingerprint := ⟨0⟩
  replayedHeadDigest := digestCommandEvidence sampleRecord

/-- The calls that keep that archive. -/
def sampleStoreCalls : List Call :=
  keepOne (archiveBytes [sampleRecord] (digestCommandEvidence sampleRecord))
    (digestCommandEvidence sampleRecord) [97] sampleResult

/-- INTERNAL: what they keep. -/
theorem archivesOf_sampleStoreCalls : archivesOf Statement.boundText (machine.trace opened sampleStoreCalls) =
    [keptOne sample_decodes [97] sampleResult] :=
  archivesOf_keepOne sample_decodes (List.pairwise_singleton _ _) (by decide) (by decide)
    (by decide) (by decide)

end Tickline.Analysis
