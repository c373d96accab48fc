import Tickline.Analysis.BundleExport
import Tickline.Analysis.StoreProgress

/-!
# The session summaries of an archive

`list_sessions` reads the rows that the import wrote from its keyed fold over the records.
`sessions_group_records` states what the rows are in terms of the records alone: one summary for
each pair of client and session, in ascending order, with the extent of the pair's records and
their outcomes counted (`GroupsRecords`).
-/

set_option autoImplicit false

namespace Tickline.Analysis

open Tickline.Library Tickline.Model Tickline.Model.Storage
open Tickline.Model.Storage.InvestigationStore

/-- A summary is that of the records with its client and session. -/
structure GroupsRecords (records : List CommandEvidenceRecord) (summary : EvidenceSessionSummary) :
    Prop where
  first : ∃ record ∈ records, sessionKey record = summary.key ∧
    record.ordinal = summary.firstOrdinal ∧ record.entry.observedTick = summary.firstObservedTick
  last : ∃ record ∈ records, sessionKey record = summary.key ∧
    record.ordinal = summary.lastOrdinal ∧ record.entry.observedTick = summary.lastObservedTick
  extent : ∀ record ∈ records, sessionKey record = summary.key →
    summary.firstOrdinal ≤ record.ordinal ∧ record.ordinal ≤ summary.lastOrdinal
  accepted : summary.acceptedCount = records.countP fun record =>
    sessionKey record = summary.key ∧ record.entry.rejectionCode = .none
  rejected : summary.rejectedCount = records.countP fun record =>
    sessionKey record = summary.key ∧ record.entry.rejectionCode ≠ .none

/-- INTERNAL: the least element of an ascending list is its head. -/
theorem head_le {α : Type} {ordinal : α → UInt64} {own : List α} {first : α}
    (hascending : own.Pairwise fun a b => ordinal a < ordinal b) (hfirst : own.head? = some first)
    {a : α} (ha : a ∈ own) : ordinal first ≤ ordinal a := by
  obtain ⟨rest, rfl⟩ := List.head?_eq_some_iff.mp hfirst
  rcases List.mem_cons.mp ha with rfl | ha
  · exact UInt64.le_refl _
  · exact UInt64.le_of_lt ((List.pairwise_cons.mp hascending).1 a ha)

/-- INTERNAL: the greatest element of an ascending list is its last. -/
theorem le_getLast {α : Type} {ordinal : α → UInt64} {own : List α} {last : α}
    (hascending : own.Pairwise fun a b => ordinal a < ordinal b) (hlast : own.getLast? = some last)
    {a : α} (ha : a ∈ own) : ordinal a ≤ ordinal last := by
  obtain ⟨front, rfl⟩ := List.getLast?_eq_some_iff.mp hlast
  rcases List.mem_append.mp ha with ha | ha
  · exact UInt64.le_of_lt ((List.pairwise_append.mp hascending).2.2 a ha last (by simp))
  · rw [List.mem_singleton.mp ha]
    exact UInt64.le_refl _

/-- The aggregate of a session summarises its records.
SRC: investigation_store.cpp:782-810 -/
theorem groupsRecords_entry {records : List CommandEvidenceRecord}
    (hascending : records.Pairwise fun a b => a.ordinal < b.ordinal)
    {entry : SessionKey × SessionAggregate} (h : entry ∈ (aggregatesOf records).entries) :
    GroupsRecords records (summaryOf entry.1 entry.2) := by
  obtain ⟨haccepted, hrejected⟩ := entry_counts h
  have hkey : (summaryOf entry.1 entry.2).key = entry.1 := rfl
  have hfind := OrderedMap.find?_eq_some_iff.mpr h
  rw [find?_aggregatesOf, sessionSummary?] at hfind
  obtain ⟨first, hfirst, hlast⟩ := Option.bind_eq_some_iff.mp hfind
  obtain ⟨last, hlast, haggregate⟩ := Option.map_eq_some_iff.mp hlast
  have hown := hascending.filter (p := fun record => decide (sessionKey record = entry.1))
  have hfirstOrdinal : entry.2.firstOrdinal = first.ordinal := by rw [← haggregate]
  have hlastOrdinal : entry.2.lastOrdinal = last.ordinal := by rw [← haggregate]
  constructor
  case first =>
    obtain ⟨hmem, hown⟩ := List.mem_filter.mp (List.mem_of_head? hfirst)
    exact ⟨first, hmem, of_decide_eq_true hown, hfirstOrdinal.symm, by rw [← haggregate]; rfl⟩
  case last =>
    obtain ⟨hmem, hown⟩ := List.mem_filter.mp (List.mem_of_getLast? hlast)
    exact ⟨last, hmem, of_decide_eq_true hown, hlastOrdinal.symm, by rw [← haggregate]; rfl⟩
  case extent =>
    intro record hrecord hsame
    have hmem : record ∈ records.filter (sessionKey · = entry.1) :=
      List.mem_filter.mpr ⟨hrecord, decide_eq_true hsame⟩
    exact ⟨hfirstOrdinal.trans_le (head_le hown hfirst hmem),
      (le_getLast hown hlast hmem).trans_eq hlastOrdinal.symm⟩
  case accepted =>
    refine haccepted.trans ?_
    rw [List.countP_filter, hkey]
    exact List.countP_congr fun record _ => by simp [isAccepted, and_comm]
  case rejected =>
    refine hrejected.trans ?_
    rw [List.countP_filter, hkey]
    exact List.countP_congr fun record _ => by simp [isAccepted, and_comm]

/-- **Session summaries are the group-by of the archive.**  In every state of a store, the
sessions of an archive are the distinct pairs of client and session of its records, in ascending
order, each with its extent and its counts, and the counts add up to the archive's.
SRC: investigation_store.cpp:752-837, 1087-1131 -/
theorem sessions_group_records (calls : List Call) {kept : KeptArchive}
    (hkept : kept ∈ archivesOf Statement.boundText (machine.trace opened calls)) :
    ∃ summaries,
      listSessions kept.archiveId (machine.final opened calls).committed = .ok summaries ∧
      (summaries.map (·.key)).Pairwise (· < ·) ∧
      (∀ key, key ∈ summaries.map (·.key) ↔ ∃ record ∈ kept.records, sessionKey record = key) ∧
      (∀ summary ∈ summaries, GroupsRecords kept.records summary) ∧
      (summaries.map fun summary => summary.acceptedCount + summary.rejectedCount).sum =
        kept.records.length ∧
      ∃ row ∈ (machine.final opened calls).committed.evidenceArchives,
        row.archiveId = kept.archiveId ∧ row.recordCount.toInt = kept.records.length := by
  obtain ⟨-, h⟩ := represents_run calls
  have hcount := kept.decoded.2.2.1
  rw [maximumRecordCount_eq] at hcount
  refine ⟨_, listSessions_eq h hkept, ?_, ?_, ?_, ?_, kept.row, ?_, rfl, ?_⟩
  · rw [List.map_map]
    exact OrderedMap.keys_ascending _
  · rw [List.map_map]
    exact fun key => mem_session_keys
  · intro summary hsummary
    obtain ⟨entry, hentry, rfl⟩ := List.mem_map.mp hsummary
    exact groupsRecords_entry kept.ascending hentry
  · obtain ⟨haccepted, hrejected⟩ := session_sums kept.records
    rw [List.map_map]
    show ((aggregatesOf kept.records).entries.map fun entry =>
      entry.2.acceptedCount + entry.2.rejectedCount).sum = _
    rw [List.sum_map_add, haccepted, hrejected]
    rw [List.length_eq_countP_add_countP isAccepted]
    simp only [Bool.not_eq_true, Bool.decide_eq_false]
  · rw [h.archives]
    exact List.mem_map.mpr ⟨kept, hkept, rfl⟩
  · exact toInt_ofNat (show kept.records.length < 2 ^ 63 by omega)

/-- The sessions of a store with one archive. -/
theorem sessions_group_records_sample :
    ∃ summaries, listSessions (keptOne sample_decodes [97] sampleResult).archiveId
      (machine.final opened sampleStoreCalls).committed = .ok summaries := by
  have hkept : keptOne sample_decodes [97] sampleResult ∈
      archivesOf Statement.boundText (machine.trace opened sampleStoreCalls) := by
    rw [archivesOf_sampleStoreCalls]
    exact List.mem_singleton.mpr rfl
  obtain ⟨summaries, hlist, -⟩ := sessions_group_records sampleStoreCalls hkept
  exact ⟨summaries, hlist⟩

end Tickline.Analysis
