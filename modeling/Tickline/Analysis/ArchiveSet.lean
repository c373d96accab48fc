import Mathlib.Data.List.Nodup
import Tickline.Analysis.ArchiveCodec
import Tickline.Analysis.StoreEffect

/-!
# The store as a set of archives

What the store is for: a set of archives, each with the source and the identifier of its first
successful import and with the latest replay result recorded for it.  `archivesOf` computes the
set from the calls of a run and their answers alone, and `Represents` says how the tables show
it.  `represents_run`: after every run, whichever statements failed, they do.

A source is in the set as the tables have it, which `stored` tells.
-/

set_option autoImplicit false

namespace Tickline.Analysis

open Tickline.Library Tickline.Library.Connection Tickline.Model Tickline.Model.Storage
open Tickline.Model.Storage.InvestigationStore

/-! ## The set -/

/-- An archive of the set. -/
structure KeptArchive where
  archiveId : Int64
  encoded : List UInt8
  head : Sha256Digest
  source : List UInt8
  importedAt : UtcTime
  archive : CommandEvidenceArchive
  genuine : decodeCommandEvidenceArchive encoded head = .ok archive
  replay : Option CommandEvidenceReplayResult := none

namespace KeptArchive

/-- The complete-archive digest. -/
def digest (kept : KeptArchive) : Sha256Digest := sha256 kept.encoded

/-- The records of the archive. -/
def records (kept : KeptArchive) : List CommandEvidenceRecord := kept.archive.records

/-- Its row. -/
def row (kept : KeptArchive) : ArchiveRow :=
  archiveRow kept.archiveId kept.importedAt kept.archive kept.digest kept.head kept.source

@[simp] theorem row_archiveId (kept : KeptArchive) : kept.row.archiveId = kept.archiveId := rfl

@[simp] theorem row_archiveDigest (kept : KeptArchive) :
    kept.row.archiveDigest = appendDigest kept.digest := by
  simp only [row, archiveRow]

/-- The rows of its records. -/
def evidenceRows (kept : KeptArchive) : List EvidenceRow :=
  kept.records.map (evidenceRow kept.archiveId)

/-- The rows of its sessions. -/
def sessionRows (kept : KeptArchive) : List SessionRow :=
  Analysis.sessionRows kept.archiveId (aggregatesOf kept.records).entries

/-- The row of its replay result. -/
def replayRow? (kept : KeptArchive) : Option ReplayRow :=
  kept.replay.map fun result =>
    replayRow kept.archiveId (Int64.ofNat result.processedRecords) result

/-- Record a replay result, if it is for this archive. -/
def record (archiveId : Int64) (result : CommandEvidenceReplayResult) (kept : KeptArchive) :
    KeptArchive :=
  if kept.archiveId = archiveId then { kept with replay := some result } else kept

@[simp] theorem record_archiveId (archiveId : Int64) (result : CommandEvidenceReplayResult)
    (kept : KeptArchive) : (kept.record archiveId result).archiveId = kept.archiveId := by
  unfold record
  split_ifs <;> rfl

@[simp] theorem record_digest (archiveId : Int64) (result : CommandEvidenceReplayResult)
    (kept : KeptArchive) : (kept.record archiveId result).digest = kept.digest := by
  unfold record
  split_ifs <;> rfl

@[simp] theorem record_records (archiveId : Int64) (result : CommandEvidenceReplayResult)
    (kept : KeptArchive) : (kept.record archiveId result).records = kept.records := by
  unfold record
  split_ifs <;> rfl

@[simp] theorem record_row (archiveId : Int64) (result : CommandEvidenceReplayResult)
    (kept : KeptArchive) : (kept.record archiveId result).row = kept.row := by
  unfold record
  split_ifs <;> rfl

@[simp] theorem record_evidenceRows (archiveId : Int64) (result : CommandEvidenceReplayResult)
    (kept : KeptArchive) : (kept.record archiveId result).evidenceRows = kept.evidenceRows := by
  unfold record
  split_ifs <;> rfl

@[simp] theorem record_sessionRows (archiveId : Int64) (result : CommandEvidenceReplayResult)
    (kept : KeptArchive) : (kept.record archiveId result).sessionRows = kept.sessionRows := by
  unfold record
  split_ifs <;> rfl

end KeptArchive

/-- The set after one more call and its answer.  An import that returned brings in its archive
when no archive with its digest is there; a replay result that was recorded replaces the one
before it. -/
def archivesAfter (stored : List UInt8 → List UInt8) (set : List KeptArchive) :
    Call × Answer → List KeptArchive
  | (.importArchive _ now encoded head source, .imported result) =>
    if set.any (·.digest = sha256 encoded) then set
    else match h : decodeCommandEvidenceArchive encoded head with
      | .ok archive => set ++ [{
          archiveId := result.archiveId
          encoded, head
          source := stored source
          importedAt := now
          archive
          genuine := h }]
      | .error _ => set
  | (.recordReplayResult _ archiveId result, .recorded) => set.map (·.record archiveId result)
  | _ => set

/-- The set after the calls and answers of a run. -/
def archivesOf (stored : List UInt8 → List UInt8) (trace : List (Call × Answer)) :
    List KeptArchive :=
  trace.foldl (archivesAfter stored) []

theorem archivesOf_concat (stored : List UInt8 → List UInt8) (trace : List (Call × Answer))
    (event : Call × Answer) :
    archivesOf stored (trace ++ [event]) = archivesAfter stored (archivesOf stored trace) event := by
  simp [archivesOf]

/-! ## The tables of a set -/

/-- The tables show the set. -/
structure Represents (set : List KeptArchive) (tables : Tables) : Prop where
  archives : tables.evidenceArchives = set.map (·.row)
  evidence : tables.commandEvidence = set.flatMap (·.evidenceRows)
  sessions : tables.archiveSessions = set.flatMap (·.sessionRows)
  replays : ∀ archiveId, tables.replayResults.find? (·.archiveId = archiveId) =
    (set.find? (·.archiveId = archiveId)).bind (·.replayRow?)
  positive : ∀ kept ∈ set, 0 < kept.archiveId.toInt
  ascending : set.Pairwise fun a b => a.archiveId.toInt < b.archiveId.toInt
  distinct : set.Pairwise fun a b => a.digest ≠ b.digest
  records : ∀ kept ∈ set,
    kept.records.Pairwise fun a b => digestCommandEvidence a ≠ digestCommandEvidence b
  recorded : ∀ kept ∈ set, ∀ result, kept.replay = some result →
    result.processedRecords < 2 ^ 63 ∧ result.finalPendingCommandCount < 2 ^ 64

/-- INTERNAL: a new store has no archives. -/
theorem represents_opened : Represents [] opened.committed :=
  ⟨rfl, rfl, rfl, fun _ => rfl, by simp, .nil, .nil, by simp, by simp⟩

/-- INTERNAL: digests have different bytes. -/
theorem appendDigest_injective {a b : Sha256Digest} (h : appendDigest a = appendDigest b) :
    a = b := by
  obtain ⟨a⟩ := a
  obtain ⟨b⟩ := b
  rw [Sha256Digest.mk.injEq]
  exact Vector.toList_inj.mp h

/-- INTERNAL: the identifier in use that is largest. -/
theorem le_largestArchiveId {set : List KeptArchive} {tables : Tables}
    (h : Represents set tables) :
    0 ≤ tables.largestArchiveId ∧
      ∀ kept ∈ set, kept.archiveId.toInt ≤ tables.largestArchiveId := by
  have hfold : ∀ (rows : List ArchiveRow) (start : ℤ),
      start ≤ rows.foldl (fun largest row => max largest row.archiveId.toInt) start ∧
        ∀ row ∈ rows, row.archiveId.toInt ≤
          rows.foldl (fun largest row => max largest row.archiveId.toInt) start := by
    intro rows
    induction rows with
    | nil => simp
    | cons row rows ih =>
      intro start
      obtain ⟨hstart, hrows⟩ := ih (max start row.archiveId.toInt)
      refine ⟨(le_max_left _ _).trans hstart, ?_⟩
      intro other hother
      rcases List.mem_cons.mp hother with rfl | hother
      · exact (le_max_right _ _).trans hstart
      · exact hrows other hother
  obtain ⟨hzero, hrows⟩ := hfold tables.evidenceArchives 0
  refine ⟨hzero, fun kept hkept => ?_⟩
  exact hrows kept.row (h.archives ▸ List.mem_map.mpr ⟨kept, hkept, rfl⟩)

/-- INTERNAL: an archive of the set is found by its digest. -/
theorem find_row_iff {set : List KeptArchive} {tables : Tables} (h : Represents set tables)
    {digest : Sha256Digest} {row : ArchiveRow}
    (hfind : tables.evidenceArchives.find? (·.archiveDigest = appendDigest digest) = some row) :
    ∃ kept ∈ set, kept.digest = digest ∧ row = kept.row := by
  have hmem := List.mem_of_find?_eq_some hfind
  have hdigest := List.find?_some hfind
  rw [h.archives] at hmem
  obtain ⟨kept, hkept, rfl⟩ := List.mem_map.mp hmem
  rw [KeptArchive.row_archiveDigest, decide_eq_true_eq] at hdigest
  exact ⟨kept, hkept, appendDigest_injective hdigest, rfl⟩

/-! ## One call -/

/-- INTERNAL: an archive that the tables have no row of goes in. -/
theorem Represents.imported {set : List KeptArchive} {tables tables' : Tables}
    (h : Represents set tables) (kept : KeptArchive) {result : EvidenceArchiveImportResult}
    (hid : kept.archiveId = result.archiveId) (hreplay : kept.replay = none)
    (himport : ImportedNew kept.importedAt kept.archive kept.digest kept.head kept.source tables
      result tables') : Represents (set ++ [kept]) tables' := by
  obtain ⟨hzero, hlargest⟩ := le_largestArchiveId h
  have hvalue : kept.archiveId.toInt = tables.largestArchiveId + 1 := by
    rw [hid, himport.answer]
    exact Int64.toInt_ofInt_of_le (by omega) himport.room
  have hnew : ∀ other ∈ set, other.archiveId.toInt < kept.archiveId.toInt := by
    intro other hother
    have := hlargest other hother
    omega
  rw [himport.tables, ← hid]
  refine ⟨?_, ?_, ?_, ?_, ?_, ?_, ?_, ?_, ?_⟩
  · simp only [h.archives, List.map_append, List.map_singleton]
    rfl
  · simp only [h.evidence, List.flatMap_append, List.flatMap_singleton]
    rfl
  · simp only [h.sessions, List.flatMap_append, List.flatMap_singleton]
    rfl
  · intro archiveId
    show tables.replayResults.find? (·.archiveId = archiveId) = _
    rw [h.replays, List.find?_append]
    cases hfind : set.find? (·.archiveId = archiveId) with
    | some other => rfl
    | none =>
      simp only [Option.none_or, Option.bind_none]
      cases hkept : [kept].find? (·.archiveId = archiveId) with
      | none => rfl
      | some other =>
        obtain rfl := List.mem_singleton.mp (List.mem_of_find?_eq_some hkept)
        simp [KeptArchive.replayRow?, hreplay]
  · intro other hother
    rcases List.mem_append.mp hother with hother | hother
    · exact h.positive other hother
    · obtain rfl := List.mem_singleton.mp hother
      omega
  · refine List.pairwise_append.mpr ⟨h.ascending, List.pairwise_singleton _ _, ?_⟩
    intro other hother last hlast
    obtain rfl := List.mem_singleton.mp hlast
    exact hnew other hother
  · refine List.pairwise_append.mpr ⟨h.distinct, List.pairwise_singleton _ _, ?_⟩
    intro other hother last hlast heq
    obtain rfl := List.mem_singleton.mp hlast
    refine himport.new other.row (h.archives ▸ List.mem_map.mpr ⟨other, hother, rfl⟩) ?_
    rw [KeptArchive.row_archiveDigest, heq]
  · intro other hother
    rcases List.mem_append.mp hother with hother | hother
    · exact h.records other hother
    · obtain rfl := List.mem_singleton.mp hother
      exact himport.distinct
  · intro other hother
    rcases List.mem_append.mp hother with hother | hother
    · exact h.recorded other hother
    · obtain rfl := List.mem_singleton.mp hother
      simp [hreplay]

/-- INTERNAL: the replay rows after one was set. -/
theorem upsertReplay_find {row : ReplayRow} {tables tables' : Tables}
    (h : tables.upsertReplay row = .ok ((), tables')) :
    tables'.evidenceArchives = tables.evidenceArchives ∧
      tables'.commandEvidence = tables.commandEvidence ∧
      tables'.archiveSessions = tables.archiveSessions ∧
      ∀ archiveId, tables'.replayResults.find? (·.archiveId = archiveId) =
        if archiveId = row.archiveId then some row
        else tables.replayResults.find? (·.archiveId = archiveId) := by
  unfold Tables.upsertReplay at h
  split_ifs at h with hchecks hfound hforeign
  · cases h
    refine ⟨rfl, rfl, rfl, fun archiveId => ?_⟩
    have hkey : ((fun other : ReplayRow => decide (other.archiveId = archiveId)) ∘
        fun old => if old.archiveId = row.archiveId then row else old) =
        fun other => decide (other.archiveId = archiveId) := by
      funext old
      by_cases hold : old.archiveId = row.archiveId <;> simp [hold]
    show (tables.replayResults.map _).find? _ = _
    rw [List.find?_map, hkey]
    split_ifs with hid
    · obtain ⟨old, hold, heq⟩ := List.any_eq_true.mp hfound
      obtain ⟨first, hfirst⟩ : ∃ first,
          tables.replayResults.find? (·.archiveId = archiveId) = some first := by
        rw [← Option.isSome_iff_exists, List.find?_isSome]
        exact ⟨old, hold, by simpa [hid] using heq⟩
      have hfirstId := List.find?_some hfirst
      rw [hfirst, Option.map_some, if_pos (by simpa [hid] using hfirstId)]
    · cases hfind : tables.replayResults.find? (·.archiveId = archiveId) with
      | none => rfl
      | some first =>
        have hfirstId : first.archiveId = archiveId := by simpa using List.find?_some hfind
        rw [Option.map_some, if_neg (by rw [hfirstId]; exact hid)]
  · cases h
    refine ⟨rfl, rfl, rfl, fun archiveId => ?_⟩
    show (tables.replayResults ++ [row]).find? _ = _
    rw [List.find?_append]
    split_ifs with hid
    · have hnone : tables.replayResults.find? (·.archiveId = archiveId) = none := by
        rw [List.find?_eq_none]
        intro old hold heq
        apply hfound
        exact List.any_eq_true.mpr ⟨old, hold, by simpa [hid] using heq⟩
      rw [hnone, Option.none_or, List.find?_cons_of_pos (by simp [hid])]
    · have hnone : [row].find? (·.archiveId = archiveId) = none := by
        simp [Ne.symm hid]
      rw [hnone, Option.or_none]

/-- INTERNAL: a replay result is recorded. -/
theorem Represents.recordedResult {set : List KeptArchive} {tables tables' : Tables}
    (h : Represents set tables) {archiveId : Int64} {result : CommandEvidenceReplayResult}
    (hfound : tables.hasArchive archiveId = true) (hprocessed : result.processedRecords < 2 ^ 63)
    (hpending : result.finalPendingCommandCount < 2 ^ 64)
    (hupsert : tables.upsertReplay (replayRow archiveId (Int64.ofNat result.processedRecords)
      result) = .ok ((), tables')) :
    Represents (set.map (·.record archiveId result)) tables' := by
  obtain ⟨harchives, hevidence, hsessions, hreplays⟩ := upsertReplay_find hupsert
  refine ⟨?_, ?_, ?_, ?_, ?_, ?_, ?_, ?_, ?_⟩
  · rw [harchives, h.archives, List.map_map]
    simp
  · rw [hevidence, h.evidence, List.flatMap_map]
    simp
  · rw [hsessions, h.sessions, List.flatMap_map]
    simp
  · intro other
    rw [hreplays, h.replays, List.find?_map]
    simp only [Function.comp_def, KeptArchive.record_archiveId]
    show (if other = archiveId then _ else _) = _
    cases hfind : set.find? (·.archiveId = other) with
    | some kept =>
      have hkept : kept.archiveId = other := by simpa using List.find?_some hfind
      by_cases hid : other = archiveId
      · simp only [if_pos hid, Option.map_some, Option.bind_some, KeptArchive.record,
          hkept.trans hid, if_true, KeptArchive.replayRow?]
      · simp only [if_neg hid, Option.map_some, Option.bind_some, KeptArchive.record, hkept]
    | none =>
      by_cases hid : other = archiveId
      · subst hid
        obtain ⟨row, hrow, heq⟩ := List.any_eq_true.mp hfound
        rw [h.archives] at hrow
        obtain ⟨kept, hkept, rfl⟩ := List.mem_map.mp hrow
        rw [KeptArchive.row_archiveId] at heq
        exact absurd heq (List.find?_eq_none.mp hfind kept hkept)
      · simp [hid]
  · intro kept hkept
    obtain ⟨old, hold, rfl⟩ := List.mem_map.mp hkept
    rw [KeptArchive.record_archiveId]
    exact h.positive old hold
  · rw [List.pairwise_map]
    simpa using h.ascending
  · rw [List.pairwise_map]
    simpa using h.distinct
  · intro kept hkept
    obtain ⟨old, hold, rfl⟩ := List.mem_map.mp hkept
    rw [KeptArchive.record_records]
    exact h.records old hold
  · intro kept hkept other hother
    obtain ⟨old, hold, rfl⟩ := List.mem_map.mp hkept
    unfold KeptArchive.record at hother
    split_ifs at hother
    · cases hother
      exact ⟨hprocessed, hpending⟩
    · exact h.recorded old hold other hother

end Tickline.Analysis
