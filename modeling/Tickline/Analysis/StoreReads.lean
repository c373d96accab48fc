import Tickline.Analysis.ArchiveSet
import Tickline.Library.Checks

/-!
# Reading the store

What the reading members give back for tables that show a set of archives (`Represents`): the
columns decode to what was bound, blobs of numbers are ordered as the numbers are, and the rows
of one archive are found among all.
-/

set_option autoImplicit false

namespace Tickline.Analysis

open Tickline.Library Tickline.Library.BigEndian Tickline.Model Tickline.Model.Storage
open Tickline.Model.Storage.InvestigationStore

/-! ## Columns -/

/-- INTERNAL: the store writes numbers as the evidence encoding does. -/
theorem encodeU64_eq (value : UInt64) : encodeU64 value = appendU64 value := rfl

@[simp] theorem length_encodeU64 (value : UInt64) : (encodeU64 value).length = 8 := by
  rw [encodeU64_eq, length_appendU64]

/-- INTERNAL: different numbers are different blobs. -/
theorem encodeU64_inj {a b : UInt64} : encodeU64 a = encodeU64 b ↔ a = b :=
  ⟨appendU64_injective, congrArg encodeU64⟩

/-- A number is read back from its column. -/
@[simp] theorem decodeU64_encodeU64 (value : UInt64) (name : String) :
    decodeU64 (encodeU64 value) name = .ok value := by
  unfold decodeU64
  rw [if_neg (by simp), Except.ok.injEq]
  apply appendU64_injective
  exact appendU64_foldl (length_encodeU64 value)

/-- A digest is read back from its column. -/
@[simp] theorem decodeDigest_appendDigest (digest : Sha256Digest) (name : String) :
    decodeDigest (appendDigest digest) name = .ok digest := by
  unfold decodeDigest
  rw [dif_pos (by simp), Except.ok.injEq]
  apply appendDigest_injective
  simp [appendDigest, Vector.toList]

/-- INTERNAL: a count in a column's range. -/
theorem toInt_ofNat {n : ℕ} (h : n < 2 ^ 63) : (Int64.ofNat n).toInt = n := by
  rw [← Int64.ofInt_eq_ofNat]
  exact Int64.toInt_ofInt_of_le (by omega) (by omega)

/-- A count is read back from its column. -/
theorem checkedSize_ofNat {n : ℕ} (h : n < 2 ^ 63) (name : String) :
    Storage.checkedSize (Int64.ofNat n) name = .ok n := by
  have hn := toInt_ofNat h
  unfold Storage.checkedSize
  rw [if_neg, hn, Int.toNat_natCast]
  rw [Int64.lt_iff_toInt_lt, hn]
  simp

/-- INTERNAL: the order of blobs of one length is that of the numbers they spell. -/
theorem blob_lt_iff {a b : Blob} (h : a.length = b.length) :
    a.lt b = true ↔ decode a < decode b := by
  induction a generalizing b with
  | nil =>
    obtain rfl := List.length_eq_zero_iff.mp h.symm
    simp [Blob.lt]
  | cons x a ih =>
    cases b with
    | nil => cases h
    | cons y b =>
      have hlength : a.length = b.length := Nat.succ.inj h
      have ha := decode_lt a
      have hb := decode_lt b
      rw [hlength] at ha
      rw [decode_cons, decode_cons, hlength, Blob.lt]
      split_ifs with hxy hyx
      · rw [UInt8.lt_iff_toNat_lt] at hxy
        refine iff_of_true rfl ?_
        have := Nat.mul_le_mul_right (256 ^ b.length) (Nat.succ_le_of_lt hxy)
        rw [Nat.succ_mul] at this
        omega
      · rw [UInt8.lt_iff_toNat_lt] at hyx
        refine iff_of_false (by simp) ?_
        have := Nat.mul_le_mul_right (256 ^ b.length) (Nat.succ_le_of_lt hyx)
        rw [Nat.succ_mul] at this
        omega
      · have hxy' : x.toNat = y.toNat := by
          rw [UInt8.lt_iff_toNat_lt] at hxy hyx
          omega
        rw [ih hlength, hxy']
        omega

/-- **Numbers in columns are ordered as numbers.** -/
theorem encodeU64_lt_iff {a b : UInt64} :
    (encodeU64 a).lt (encodeU64 b) = true ↔ a < b := by
  rw [blob_lt_iff (by simp), encodeU64_eq, encodeU64_eq, appendU64_eq, appendU64_eq,
    decode_encode_of_lt a.toNat_lt, decode_encode_of_lt b.toNat_lt, UInt64.lt_iff_toNat_lt]

/-! ## The sessions of some records -/

/-- The summary of a session: over its records, in order, the first and the last of them and how
many were accepted and refused. -/
def sessionSummary? (key : SessionKey) (records : List CommandEvidenceRecord) :
    Option SessionAggregate :=
  let own := records.filter (sessionKey · = key)
  own.head?.bind fun first => own.getLast?.map fun last => {
    firstOrdinal := first.ordinal
    lastOrdinal := last.ordinal
    firstObservedTick := first.entry.observedTick
    lastObservedTick := last.entry.observedTick
    acceptedCount := own.countP (·.entry.rejectionCode = .none)
    rejectedCount := own.countP (·.entry.rejectionCode ≠ .none) }

/-- INTERNAL: what a record does to the aggregate of its session. -/
def aggregateStep (aggregate : Option SessionAggregate) (record : CommandEvidenceRecord) :
    SessionAggregate :=
  (match aggregate with
    | none => {
        firstOrdinal := record.ordinal, lastOrdinal := record.ordinal
        firstObservedTick := record.entry.observedTick
        lastObservedTick := record.entry.observedTick }
    | some aggregate => { aggregate with
        lastOrdinal := record.ordinal, lastObservedTick := record.entry.observedTick } :
    SessionAggregate).count record

/-- **The aggregates of an import** are the summaries of its sessions.
SRC: investigation_store.cpp:782-810 -/
theorem find?_aggregatesOf (key : SessionKey) (records : List CommandEvidenceRecord) :
    (aggregatesOf records).find? key = sessionSummary? key records := by
  have hgroup : (aggregatesOf records).find? key =
      (records.filter (sessionKey · = key)).foldl
        (fun aggregate record => some (aggregateStep aggregate record)) none :=
    OrderedMap.find?_foldl_insert sessionKey aggregateStep records OrderedMap.empty key
  rw [hgroup, sessionSummary?]
  generalize records.filter (sessionKey · = key) = own
  induction own using List.reverseRecOn with
  | nil => rfl
  | append_singleton own record ih =>
    simp only [List.foldl_append, List.foldl_cons, List.foldl_nil, ih, List.getLast?_append,
      List.getLast?_singleton, Option.some_or, Option.map_some, List.countP_append,
      List.countP_singleton, List.head?_append]
    cases own with
    | nil =>
      by_cases haccepted : record.entry.rejectionCode = .none <;>
        simp [aggregateStep, SessionAggregate.count, haccepted]
    | cons first own =>
      obtain ⟨last, hlast⟩ : ∃ last, (first :: own).getLast? = some last :=
        ⟨_, List.getLast?_eq_some_getLast (List.cons_ne_nil _ _)⟩
      by_cases haccepted : record.entry.rejectionCode = .none <;>
        simp [hlast, aggregateStep, SessionAggregate.count, haccepted]

/-! ## The rows of one archive -/

/-- INTERNAL: among rows that each carry a key, those of one key. -/
theorem filter_flatMap_key {α β κ : Type} [DecidableEq κ] {key : α → κ} {rows : α → List β}
    {keyOf : β → κ} (hrows : ∀ a, ∀ row ∈ rows a, keyOf row = key a) {set : List α}
    (hnodup : (set.map key).Nodup) {a : α} (ha : a ∈ set) :
    (set.flatMap rows).filter (keyOf · = key a) = rows a := by
  have hother : ∀ l : List α, key a ∉ l.map key →
      (l.flatMap rows).filter (keyOf · = key a) = [] := by
    intro l hl
    rw [List.filter_eq_nil_iff]
    intro row hrow
    obtain ⟨b, hb, hmem⟩ := List.mem_flatMap.mp hrow
    rw [decide_eq_true_eq, hrows b row hmem]
    exact fun heq => hl (List.mem_map.mpr ⟨b, hb, heq⟩)
  have hown : (rows a).filter (keyOf · = key a) = rows a := by
    rw [List.filter_eq_self]
    intro row hrow
    exact decide_eq_true (hrows a row hrow)
  obtain ⟨before, after, rfl⟩ := List.append_of_mem ha
  rw [List.map_append, List.map_cons] at hnodup
  obtain ⟨-, hafter, hdisjoint⟩ := List.nodup_append.mp hnodup
  have hbefore : key a ∉ before.map key :=
    fun hmem => hdisjoint _ hmem _ (List.mem_cons_self ..) rfl
  rw [List.flatMap_append, List.flatMap_cons, List.filter_append, List.filter_append,
    hother before hbefore, hown, hother after (List.nodup_cons.mp hafter).1, List.nil_append,
    List.append_nil]

/-- INTERNAL: what is known of the records of an archive. -/
theorem KeptArchive.decoded (kept : KeptArchive) :
    kept.archive.headDigest = kept.head ∧
      evidenceChain.Linked 0 genesisDigest kept.records kept.head ∧
      kept.records.length ≤ maximumRecordCount ∧ ∀ record ∈ kept.records, RecordOk record := by
  obtain ⟨hhead, hverify, hcount, -, hall⟩ := decodeCommandEvidenceArchive_iff.mp kept.genuine
  exact ⟨hhead, (verifyCommandEvidenceChain_iff.mp hverify).2, hcount, hall⟩

/-- INTERNAL: the records of an archive ascend. -/
theorem KeptArchive.ascending (kept : KeptArchive) :
    kept.records.Pairwise fun a b => a.ordinal < b.ordinal :=
  kept.decoded.2.1.ascending.imp fun h => UInt64.lt_iff_toNat_lt.mpr h

namespace Represents

variable {set : List KeptArchive} {tables : Tables} {kept : KeptArchive}

/-- INTERNAL: archives of the set have different identifiers. -/
theorem ids_nodup (h : Represents set tables) : (set.map (·.archiveId)).Nodup := by
  rw [List.nodup_iff_pairwise_ne, List.pairwise_map]
  refine h.ascending.imp ?_
  intro a b hlt heq
  rw [heq] at hlt
  exact lt_irrefl _ hlt

/-- The evidence rows of an archive. -/
theorem evidence_of (h : Represents set tables) (hkept : kept ∈ set) :
    tables.commandEvidence.filter (·.archiveId = kept.archiveId) = kept.evidenceRows := by
  rw [h.evidence]
  refine filter_flatMap_key ?_ h.ids_nodup hkept
  intro a row hrow
  obtain ⟨record, -, rfl⟩ := List.mem_map.mp hrow
  rfl

/-- The session rows of an archive. -/
theorem sessions_of (h : Represents set tables) (hkept : kept ∈ set) :
    tables.archiveSessions.filter (·.archiveId = kept.archiveId) = kept.sessionRows := by
  rw [h.sessions]
  refine filter_flatMap_key ?_ h.ids_nodup hkept
  intro a row hrow
  obtain ⟨entry, -, rfl⟩ := List.mem_map.mp hrow
  rfl

/-- INTERNAL: an archive is found by its identifier. -/
theorem find_of (h : Represents set tables) (hkept : kept ∈ set) :
    set.find? (·.archiveId = kept.archiveId) = some kept := by
  have hnodup := h.ids_nodup
  obtain ⟨before, after, rfl⟩ := List.append_of_mem hkept
  rw [List.map_append, List.map_cons] at hnodup
  have hbefore : before.find? (·.archiveId = kept.archiveId) = none := by
    rw [List.find?_eq_none]
    intro other hother heq
    rw [decide_eq_true_eq] at heq
    exact (List.nodup_append.mp hnodup).2.2 _ (List.mem_map.mpr ⟨other, hother, rfl⟩) _
      (List.mem_cons_self ..) heq
  rw [List.find?_append, hbefore, Option.none_or, List.find?_cons_of_pos (by simp)]

/-- INTERNAL: identifiers are positive. -/
theorem id_positive (h : Represents set tables) (hkept : kept ∈ set) :
    ¬ kept.archiveId ≤ 0 := by
  have hpositive := h.positive kept hkept
  rw [Int64.le_iff_toInt_le, Int64.toInt_zero]
  omega

/-- INTERNAL: a replay result is read back field for field. -/
theorem replayResult_eq (h : Represents set tables) (hkept : kept ∈ set) :
    replayResult kept.archiveId tables = .ok kept.replay := by
  have hfind := h.replays kept.archiveId
  rw [h.find_of hkept, Option.bind_some] at hfind
  unfold replayResult
  rw [if_neg (h.id_positive hkept)]
  cases hreplay : kept.replay with
  | none =>
    simp only [hfind, KeptArchive.replayRow?, hreplay, Option.map_none]
    rfl
  | some result =>
    obtain ⟨hprocessed, hpending⟩ := h.recorded kept hkept result hreplay
    have hcode : replayCodeOfValue (replayCodeValue result.code) = some result.code := by
      cases result.code <;> decide
    have hcount := checkedSize_ofNat hprocessed "processed replay records"
    have hpendingValue : (UInt64.ofNat result.finalPendingCommandCount).toNat =
        result.finalPendingCommandCount := UInt64.toNat_ofNat_of_lt' hpending
    have hordinal : (result.failedOrdinal.map encodeU64).mapM
        (fun ordinal => decodeU64 ordinal "failed ordinal") = .ok result.failedOrdinal := by
      cases result.failedOrdinal with
      | none => rfl
      | some ordinal =>
        rw [Option.map_some, Option.mapM_some, decodeU64_encodeU64]
        rfl
    simp only [hfind, KeptArchive.replayRow?, hreplay, Option.map_some, replayRow, hordinal, hcount,
      decodeU64_encodeU64, decodeDigest_appendDigest, hcode, hpendingValue, bind, Except.bind,
      pure, Except.pure]

end Represents

end Tickline.Analysis
