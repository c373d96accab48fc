import Tickline.Analysis.StoreProgress
import Tickline.Library.Paging

/-!
# Evidence queries are exact and pageable

The conditions and the parameters of a query are built side by side, one for each filter that is
set (`satisfies_query`), and a condition on a blob column is the comparison of the numbers that
the blobs spell.  So a query returns the first records behind its cursor that pass its filters
(`queryEvidence_eq`), and paging through it returns all of them (`evidence_queries_exact`).
-/

set_option autoImplicit false

namespace Tickline.Analysis

open Tickline.Library Tickline.Model Tickline.Model.Storage
open Tickline.Model.Storage.InvestigationStore

/-- Whether a record passes the filters of a query, its cursor aside. -/
def admits (query : EvidenceQuery) (record : CommandEvidenceRecord) : Bool :=
  query.clientId.all (record.entry.envelope.clientId = ·) &&
    query.sessionId.all (record.entry.envelope.sessionId = ·) &&
    query.rejectionCode.all (record.entry.rejectionCode = ·) &&
    query.queueOutcome.all (record.entry.queueOutcome = ·) &&
    query.minimumObservedTick.all (· ≤ record.entry.observedTick) &&
    query.maximumObservedTick.all (record.entry.observedTick ≤ ·)

/-- A record as a query returns it. -/
def storedAs (archiveId : Int64) (record : CommandEvidenceRecord) : StoredEvidenceRecord where
  archiveId := archiveId
  recordDigest := digestCommandEvidence record
  record := record

@[simp] theorem storedAs_recordDigest (archiveId : Int64) (record : CommandEvidenceRecord) :
    (storedAs archiveId record).recordDigest = digestCommandEvidence record := by
  simp only [storedAs]

/-! ## Conditions and parameters -/

/-- INTERNAL: conditions and parameters may be checked part by part. -/
theorem satisfies_append (row : EvidenceRow) {conditions conditions' : List Condition}
    {parameters parameters' : List SqlValue} (h : conditions.length = parameters.length) :
    row.satisfies (conditions ++ conditions') (parameters ++ parameters') =
      (row.satisfies conditions parameters && row.satisfies conditions' parameters') := by
  rw [EvidenceRow.satisfies, List.zip_append h, List.all_append]
  rfl

/-- INTERNAL: parameters behind those of the conditions do not matter. -/
theorem satisfies_extra (row : EvidenceRow) {conditions : List Condition}
    {parameters extra : List SqlValue} (h : conditions.length = parameters.length) :
    row.satisfies conditions (parameters ++ extra) = row.satisfies conditions parameters := by
  have happend : row.satisfies (conditions ++ []) (parameters ++ extra) =
      (row.satisfies conditions parameters && row.satisfies [] extra) := satisfies_append row h
  rw [List.append_nil] at happend
  rw [happend]
  exact Bool.and_true _

/-- INTERNAL: a filter adds as many parameters as conditions. -/
theorem length_whenSet {α β γ : Type} (filter : Option α) (f : α → β) (g : α → γ) :
    (whenSet filter f).length = (whenSet filter g).length := by
  cases filter <;> rfl

/-- INTERNAL: the condition of a filter. -/
theorem satisfies_whenSet {α : Type} (row : EvidenceRow) (filter : Option α)
    (column : EvidenceColumn) (comparison : Comparison) (value : α → SqlValue) :
    row.satisfies (whenSet filter fun _ => ⟨column, comparison⟩) (whenSet filter value) =
      filter.all fun a => comparison.holds (row.column column) (value a) := by
  cases filter with
  | none => rfl
  | some a => simp [whenSet, EvidenceRow.satisfies]

/-- INTERNAL: the conditions of a query have as many parameters, and the limit comes behind. -/
theorem length_conditions (query : EvidenceQuery) (archiveId limit : Int64) :
    (query.parameters archiveId limit).length = query.conditions.length + 1 := by
  simp only [EvidenceQuery.conditions, EvidenceQuery.parameters, List.length_append,
    List.length_singleton]
  rw [length_whenSet query.clientId _ fun _ => (⟨.clientId, .equal⟩ : Condition),
    length_whenSet query.sessionId _ fun _ => (⟨.sessionId, .equal⟩ : Condition),
    length_whenSet query.rejectionCode _ fun _ => (⟨.rejectionCode, .equal⟩ : Condition),
    length_whenSet query.queueOutcome _ fun _ => (⟨.queueOutcome, .equal⟩ : Condition),
    length_whenSet query.minimumObservedTick _ fun _ => (⟨.observedTick, .atLeast⟩ : Condition),
    length_whenSet query.maximumObservedTick _ fun _ => (⟨.observedTick, .atMost⟩ : Condition),
    length_whenSet query.afterOrdinal _ fun _ => (⟨.ordinal, .greater⟩ : Condition)]

/-- INTERNAL: the limit is the parameter behind those of the conditions. -/
theorem limit_parameter (query : EvidenceQuery) (archiveId limit : Int64) :
    (query.parameters archiveId limit)[query.conditions.length]? = some (.integer limit) := by
  have hlength := length_conditions query archiveId limit
  unfold EvidenceQuery.parameters at hlength ⊢
  rw [List.length_append, List.length_singleton, Nat.add_right_cancel_iff] at hlength
  rw [← hlength, List.getElem?_concat_length]

/-- **What the conditions of a query say of a row**: one comparison for each filter that is set.
SRC: investigation_store.cpp:1003-1063 -/
theorem satisfies_query (row : EvidenceRow) (query : EvidenceQuery) (archiveId limit : Int64) :
    row.satisfies query.conditions (query.parameters archiveId limit) =
      (decide (row.archiveId = archiveId) &&
        (query.clientId.all fun id => decide (row.clientId = encodeU64 id.value)) &&
        (query.sessionId.all fun id => decide (row.sessionId = encodeU64 id.value)) &&
        (query.rejectionCode.all fun code =>
          decide (row.rejectionCode = Int64.ofNat code.value.toNat)) &&
        (query.queueOutcome.all fun outcome =>
          decide (row.queueOutcome = Int64.ofNat outcome.value.toNat)) &&
        (query.minimumObservedTick.all fun tick => !row.observedTick.lt (encodeU64 tick)) &&
        (query.maximumObservedTick.all fun tick => !Blob.lt (encodeU64 tick) row.observedTick) &&
        query.afterOrdinal.all fun ordinal => Blob.lt (encodeU64 ordinal) row.ordinal) := by
  unfold EvidenceQuery.conditions EvidenceQuery.parameters
  simp only [List.append_assoc]
  rw [satisfies_append row rfl, satisfies_append row (length_whenSet ..),
    satisfies_append row (length_whenSet ..), satisfies_append row (length_whenSet ..),
    satisfies_append row (length_whenSet ..), satisfies_append row (length_whenSet ..),
    satisfies_append row (length_whenSet ..), satisfies_extra row (length_whenSet ..)]
  simp only [satisfies_whenSet, Bool.and_assoc]
  rw [show row.satisfies [⟨.archiveId, .equal⟩] [.integer archiveId] =
    decide (row.archiveId = archiveId) by simp [EvidenceRow.satisfies, Comparison.holds,
      EvidenceRow.column]]
  simp only [Comparison.holds, EvidenceRow.column, SqlValue.blob.injEq, SqlValue.integer.injEq,
    SqlValue.lt]

/-! ## One query -/

/-- INTERNAL: 16-bit codes are different integers. -/
theorem ofNat_code_inj {a b : UInt16} :
    Int64.ofNat a.toNat = Int64.ofNat b.toNat ↔ a = b := by
  have ha := a.toNat_lt
  have hb := b.toNat_lt
  constructor
  · intro h
    have hint := congrArg Int64.toInt h
    rw [toInt_ofNat (by omega), toInt_ofNat (by omega)] at hint
    exact UInt16.toNat_inj.mp (by omega)
  · exact fun h => by rw [h]

/-- **Which rows of its records a query selects.** -/
theorem satisfies_evidenceRow (archiveId limit : Int64) (query : EvidenceQuery)
    (record : CommandEvidenceRecord) :
    (evidenceRow archiveId record).satisfies query.conditions
        (query.parameters archiveId limit) =
      (admits query record && query.afterOrdinal.all (· < record.ordinal)) := by
  have hlt : ∀ a b : UInt64, (encodeU64 a).lt (encodeU64 b) = decide (a < b) := by
    intro a b
    rw [Bool.eq_iff_iff, encodeU64_lt_iff, decide_eq_true_eq]
  have hle : ∀ a b : UInt64, (!decide (a < b)) = decide (b ≤ a) := by
    intro a b
    rw [← decide_not, decide_eq_decide, UInt64.not_lt]
  have hclient : ∀ id : ClientId, record.entry.envelope.clientId.value = id.value ↔
      record.entry.envelope.clientId = id :=
    fun id => ⟨congrArg ClientId.mk, congrArg ClientId.value⟩
  have hsession : ∀ id : SessionId, record.entry.envelope.sessionId.value = id.value ↔
      record.entry.envelope.sessionId = id :=
    fun id => ⟨congrArg SessionId.mk, congrArg SessionId.value⟩
  have hrejection : ∀ code : CommandRejectionCode, record.entry.rejectionCode.value = code.value ↔
      record.entry.rejectionCode = code :=
    fun code => ⟨congrArg CommandRejectionCode.mk, congrArg CommandRejectionCode.value⟩
  have houtcome : ∀ outcome : CommandQueueOutcome,
      record.entry.queueOutcome.value = outcome.value ↔ record.entry.queueOutcome = outcome :=
    fun outcome => ⟨congrArg CommandQueueOutcome.mk, congrArg CommandQueueOutcome.value⟩
  rw [satisfies_query]
  unfold admits
  simp only [evidenceRow, decide_true, Bool.true_and, encodeU64_inj, hclient, hsession,
    ofNat_code_inj, hrejection, houtcome, hlt, hle]

/-- INTERNAL: the row of a record is read back. -/
theorem storedRecord_evidenceRow (archiveId : Int64) {record : CommandEvidenceRecord}
    (h : RecordOk record) :
    storedRecord archiveId (evidenceRow archiveId record) = .ok (storedAs archiveId record) := by
  have hdecode := decodeCommandEvidence_iff.mpr ⟨rfl, h⟩
  unfold storedRecord storedAs
  simp only [evidenceRow, decodeDigest_appendDigest, hdecode, Except.mapError, bind, Except.bind,
    ne_eq, not_true_eq_false, if_false, pure, Except.pure]

/-- INTERNAL: the rows a query selects among all, in their order. -/
theorem selectEvidence_eq {set : List KeptArchive} {tables : Tables} {kept : KeptArchive}
    (h : Represents set tables) (hkept : kept ∈ set) (query : EvidenceQuery)
    (hlimit : query.limit < 2 ^ 63) :
    tables.selectEvidence query.conditions
        (query.parameters kept.archiveId (Int64.ofNat query.limit)) =
      (Paging.page (· < ·) (·.ordinal) (kept.records.filter (admits query)) query.limit
        query.afterOrdinal).map (evidenceRow kept.archiveId) := by
  have hrows : tables.commandEvidence.filter
        (·.satisfies query.conditions (query.parameters kept.archiveId (Int64.ofNat query.limit))) =
      ((kept.records.filter (admits query)).filter fun record =>
        query.afterOrdinal.all (· < record.ordinal)).map (evidenceRow kept.archiveId) := by
    have hown : tables.commandEvidence.filter
          (·.satisfies query.conditions (query.parameters kept.archiveId (Int64.ofNat query.limit))) =
        kept.evidenceRows.filter (·.satisfies query.conditions
          (query.parameters kept.archiveId (Int64.ofNat query.limit))) := by
      rw [← h.evidence_of hkept, List.filter_filter]
      apply List.filter_congr
      intro row _
      rw [satisfies_query]
      by_cases hid : row.archiveId = kept.archiveId <;> simp [hid]
    rw [hown, KeptArchive.evidenceRows, List.filter_map, List.filter_filter]
    congr 1
    apply List.filter_congr
    intro record _
    rw [Function.comp_apply, satisfies_evidenceRow, Bool.and_comm]
  have hsorted : (((kept.records.filter (admits query)).filter fun record =>
      query.afterOrdinal.all (· < record.ordinal)).map (evidenceRow kept.archiveId)).Pairwise
        fun left right => (!Blob.lt right.ordinal left.ordinal) = true := by
    rw [List.pairwise_map]
    refine ((kept.ascending.filter _).filter _).imp ?_
    intro a b hab
    rw [Bool.not_eq_true', ← Bool.not_eq_true]
    show ¬ (encodeU64 b.ordinal).lt (encodeU64 a.ordinal) = true
    rw [encodeU64_lt_iff, UInt64.not_lt]
    exact UInt64.le_of_lt hab
  have hvalue := toInt_ofNat hlimit
  unfold Tables.selectEvidence limitRows
  rw [limit_parameter, hrows, hsorted.insertionSort_eq]
  show (if Int64.ofNat query.limit < 0 then _ else _) = _
  rw [if_neg, hvalue, Int.toNat_natCast, Paging.page, List.map_take]
  rw [Int64.lt_iff_toInt_lt, hvalue]
  simp

/-- **One query** returns the first records behind its cursor that pass its filters.
SRC: investigation_store.cpp:983-1085 -/
theorem queryEvidence_eq {set : List KeptArchive} {tables : Tables} {kept : KeptArchive}
    (h : Represents set tables) (hkept : kept ∈ set) (query : EvidenceQuery)
    (hticks : ∀ minimum maximum, query.minimumObservedTick = some minimum →
      query.maximumObservedTick = some maximum → minimum ≤ maximum)
    (hlimit : 1 ≤ query.limit ∧ query.limit ≤ 1000) :
    queryEvidence kept.archiveId query tables =
      .ok ((Paging.page (· < ·) (·.ordinal) (kept.records.filter (admits query)) query.limit
        query.afterOrdinal).map (storedAs kept.archiveId)) := by
  have hselect := selectEvidence_eq h hkept query (by omega)
  have hread : (tables.selectEvidence query.conditions
      (query.parameters kept.archiveId (Int64.ofNat query.limit))).mapM
        (storedRecord kept.archiveId) =
      .ok ((Paging.page (· < ·) (·.ordinal) (kept.records.filter (admits query)) query.limit
        query.afterOrdinal).map (storedAs kept.archiveId)) := by
    rw [hselect, List.mapM_map]
    apply Checks.mapM_ok
    intro record hrecord
    apply storedRecord_evidenceRow
    apply kept.decoded.2.2.2
    exact List.mem_of_mem_filter (List.mem_of_mem_filter (List.mem_of_mem_take hrecord))
  have hvalid : validateLimit query.limit = .ok () := by
    rw [validateLimit, if_neg (by omega)]
  have hbound : checkedInt64 query.limit "evidence query limit" =
      .ok (Int64.ofNat query.limit) := checkedInt64_iff.mpr ⟨by omega, rfl⟩
  unfold queryEvidence
  rw [if_neg (h.id_positive hkept), hvalid]
  cases hminimum : query.minimumObservedTick with
  | none =>
    show (checkedInt64 query.limit "evidence query limit" >>= fun limit => _) = _
    rw [hbound]
    exact hread
  | some minimum =>
    cases hmaximum : query.maximumObservedTick with
    | none =>
      show (checkedInt64 query.limit "evidence query limit" >>= fun limit => _) = _
      rw [hbound]
      exact hread
    | some maximum =>
      have hle : ¬ minimum > maximum :=
        UInt64.not_lt.mpr (hticks minimum maximum hminimum hmaximum)
      show (if minimum > maximum then _ else
        checkedInt64 query.limit "evidence query limit" >>= fun limit => _) = _
      rw [if_neg hle, hbound]
      exact hread

/-! ## Paging -/

/-- **Evidence queries are exact and pageable.**  In every state of a store, for every archive in
it, every combination of filters and every limit, reading pages until one is empty gives exactly
the archive's records that pass the filters, each once, as they were imported and in the order of
their ordinals.
SRC: investigation_store.cpp:24-57, 744-812, 983-1085 -/
theorem evidence_queries_exact (calls : List Call) {kept : KeptArchive}
    (hkept : kept ∈ archivesOf Statement.boundText (machine.trace opened calls))
    (query : EvidenceQuery) (hticks : ∀ minimum maximum, query.minimumObservedTick = some minimum →
      query.maximumObservedTick = some maximum → minimum ≤ maximum)
    (hlimit : 1 ≤ query.limit ∧ query.limit ≤ 1000) (fuel : ℕ)
    (hfuel : kept.records.length < fuel) :
    Paging.collect (·.record.ordinal)
        (fun cursor => queryEvidence kept.archiveId { query with afterOrdinal := cursor }
          (machine.final opened calls).committed) fuel none =
        .ok (some ((kept.records.filter (admits query)).map (storedAs kept.archiveId))) ∧
      (kept.records.filter (admits query)).Pairwise fun a b => a.ordinal < b.ordinal := by
  obtain ⟨-, h⟩ := represents_run calls
  have hascending := kept.ascending.filter (p := admits query)
  refine ⟨?_, hascending⟩
  have hasymm : ∀ a b : UInt64, a < b → ¬ b < a := fun a b hab hba =>
    UInt64.lt_irrefl _ (UInt64.lt_trans hab hba)
  refine Paging.collect_eq hasymm ?_ (show 0 < query.limit from hlimit.1) ?_ ?_
  · rw [List.pairwise_map]
    exact hascending
  · intro cursor
    rw [queryEvidence_eq h hkept { query with afterOrdinal := cursor } hticks hlimit]
    unfold Paging.page
    rw [List.filter_map, List.map_take]
    rfl
  · rw [List.length_map]
    exact (List.length_filter_le _ _).trans_lt hfuel

theorem evidence_queries_exact_sample :
    let kept := keptOne sample_decodes [97] sampleResult
    let query : EvidenceQuery := {
      clientId := some ⟨1⟩, rejectionCode := some .sequenceZero, maximumObservedTick := some 3
      limit := 1 }
    Paging.collect (·.record.ordinal)
        (fun cursor => queryEvidence kept.archiveId { query with afterOrdinal := cursor }
          (machine.final opened sampleStoreCalls).committed) 2 none =
        .ok (some ((kept.records.filter (admits query)).map (storedAs kept.archiveId))) ∧
      (kept.records.filter (admits query)).Pairwise fun a b => a.ordinal < b.ordinal := by
  intro kept query
  refine evidence_queries_exact sampleStoreCalls ?_ query ?_ (by decide) 2 (Nat.lt_succ_self 1)
  · rw [archivesOf_sampleStoreCalls]
    exact List.mem_singleton.mpr rfl
  · rintro minimum maximum ⟨⟩

end Tickline.Analysis
