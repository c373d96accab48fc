import Tickline.Analysis.EvidenceQueries
import Tickline.Model.BundleExporter

/-!
# What an export reads

For tables that show a set of archives, each reader of the exporter gives back what the archive
has: its summary (`findArchive_eq`), its records (`loadAllEvidence_eq`) and its sessions
(`listSessions_eq`).  None of the checks fires, so that an export succeeds for every archive with
a replay result and fewer than 2^31 records, and its text is that of the archive
(`export_eq`).
-/

set_option autoImplicit false

namespace Tickline.Analysis

open Tickline.Library Tickline.Model Tickline.Model.Storage
open Tickline.Model.Storage.InvestigationStore

/-! ## Archives -/

/-- An archive as the store lists it. -/
def KeptArchive.summary (kept : KeptArchive) : EvidenceArchiveSummary where
  archiveId := kept.archiveId
  source := kept.source
  importedAtUtc := kept.importedAt.currentTimestamp
  recordCount := kept.records.length
  archiveDigest := kept.digest
  trustedHead := kept.head
  chainHead := kept.archive.headDigest

/-- INTERNAL: the row of an archive is read back. -/
theorem archiveSummary_row (kept : KeptArchive) :
    archiveSummary kept.row = .ok kept.summary := by
  have hcount := kept.decoded.2.2.1
  rw [maximumRecordCount_eq] at hcount
  have hsize := checkedSize_ofNat (n := kept.archive.records.length)
    (hcount.trans_lt (by norm_num)) "archive record count"
  unfold archiveSummary KeptArchive.row
  simp only [archiveRow, hsize, decodeDigest_appendDigest, bind, Except.bind, pure, Except.pure]
  rfl

/-- INTERNAL: what goes behind everything goes to the end. -/
theorem orderedInsert_last {α : Type} (r : α → α → Prop) [DecidableRel r] (a : α) {l : List α}
    (h : ∀ b ∈ l, ¬ r a b) : l.orderedInsert r a = l ++ [a] := by
  induction l with
  | nil => rfl
  | cons b l ih =>
    rw [List.orderedInsert_cons, if_neg (h b (List.mem_cons_self ..)),
      ih fun c hc => h c (List.mem_cons_of_mem b hc)]
    rfl

/-- INTERNAL: sorting what ascends the other way round reverses it. -/
theorem insertionSort_reverse {α : Type} (r : α → α → Prop) [DecidableRel r] {l : List α}
    (h : l.Pairwise fun a b => ¬ r a b) : l.insertionSort r = l.reverse := by
  induction l with
  | nil => rfl
  | cons a l ih =>
    obtain ⟨hhead, hrest⟩ := List.pairwise_cons.mp h
    rw [List.insertionSort_cons, ih hrest, List.reverse_cons]
    exact orderedInsert_last r a fun b hb => hhead b (List.mem_reverse.mp hb)

section

variable {set : List KeptArchive} {tables : Tables} {kept : KeptArchive}

/-- **One page of archives**: the latest ones before the cursor.
SRC: investigation_store.cpp:925-981 -/
theorem listArchives_eq (h : Represents set tables) (limit : ℕ) (hlimit : 1 ≤ limit ∧ limit ≤ 1000)
    {beforeArchiveId : Option Int64} (hcursor : ∀ id, beforeArchiveId = some id → 0 < id.toInt) :
    listArchives limit beforeArchiveId tables =
      .ok ((Paging.page (fun a b : Int64 => b < a) (·.archiveId) set.reverse limit
        beforeArchiveId).map (·.summary)) := by
  have hrows : (tables.evidenceArchives.filter fun row =>
      beforeArchiveId.all (row.archiveId < ·)).insertionSort
        (fun left right => right.archiveId ≤ left.archiveId) =
      (set.reverse.filter fun kept => beforeArchiveId.all (kept.archiveId < ·)).map (·.row) := by
    have hascending : (tables.evidenceArchives.filter fun row =>
        beforeArchiveId.all (row.archiveId < ·)).Pairwise
          fun a b : ArchiveRow => ¬ b.archiveId ≤ a.archiveId := by
      rw [h.archives]
      refine List.Pairwise.filter _ (List.pairwise_map.mpr (h.ascending.imp ?_))
      intro a b hab hle
      rw [Int64.le_iff_toInt_le] at hle
      exact absurd hab (not_lt.mpr hle)
    rw [insertionSort_reverse _ hascending, h.archives, List.filter_map, ← List.map_reverse,
      List.filter_reverse]
    rfl
  have hbound : checkedInt64 limit "archive query limit" = .ok (Int64.ofNat limit) :=
    checkedInt64_iff.mpr ⟨by omega, rfl⟩
  have hvalue := toInt_ofNat (n := limit) (by omega)
  have hany : (beforeArchiveId.any (· ≤ 0)) = false := by
    cases beforeArchiveId with
    | none => rfl
    | some id =>
      have hpositive := hcursor id rfl
      rw [Option.any_some, decide_eq_false_iff_not, Int64.le_iff_toInt_le, Int64.toInt_zero]
      omega
  have hvalid : validateLimit limit = .ok () := by
    rw [validateLimit, if_neg (by omega)]
  have htake : limitRows (some (.integer (Int64.ofNat limit)))
      ((set.reverse.filter fun kept => beforeArchiveId.all (kept.archiveId < ·)).map (·.row)) =
      (Paging.page (fun a b : Int64 => b < a) (·.archiveId) set.reverse limit
        beforeArchiveId).map (·.row) := by
    unfold limitRows
    show (if Int64.ofNat limit < 0 then _ else _) = _
    rw [if_neg, hvalue, Int.toNat_natCast, Paging.page, List.map_take]
    rw [Int64.lt_iff_toInt_lt, hvalue]
    simp
  unfold listArchives
  rw [hvalid]
  show (if beforeArchiveId.any (· ≤ 0) = true then _ else
    checkedInt64 limit "archive query limit" >>= fun limit => _) = _
  rw [hany, if_neg (by simp), hbound]
  show (limitRows _ _).mapM archiveSummary = _
  rw [hrows, htake, List.mapM_map]
  exact Checks.mapM_ok fun kept _ => archiveSummary_row kept

/-- INTERNAL: archives of the set with one identifier are one archive. -/
theorem Represents.eq_of_id (h : Represents set tables) (hkept : kept ∈ set) {other : KeptArchive}
    (hother : other ∈ set) (hid : other.archiveId = kept.archiveId) : other = kept :=
  List.inj_on_of_nodup_map h.ids_nodup hother hkept hid

/-- INTERNAL: an archive is found on the page that has it. -/
theorem find_on_page (h : Represents set tables) (hkept : kept ∈ set) {page : List KeptArchive}
    (hpage : ∀ other ∈ page, other ∈ set) (hfound : kept ∈ page) :
    (page.map (·.summary)).find? (·.archiveId = kept.archiveId) = some kept.summary := by
  obtain ⟨found, hfind⟩ : ∃ found, page.find? (·.archiveId = kept.archiveId) = some found := by
    rw [← Option.isSome_iff_exists, List.find?_isSome]
    exact ⟨kept, hfound, decide_eq_true rfl⟩
  have hid : found.archiveId = kept.archiveId := by simpa using List.find?_some hfind
  obtain rfl := h.eq_of_id hkept (hpage found (List.mem_of_find?_eq_some hfind)) hid
  rw [List.find?_map]
  exact congrArg (Option.map (·.summary)) hfind

/-- INTERNAL: an archive is not found on a page without it. -/
theorem find_off_page (h : Represents set tables) (hkept : kept ∈ set) {page : List KeptArchive}
    (hpage : ∀ other ∈ page, other ∈ set) (hfound : kept ∉ page) :
    (page.map (·.summary)).find? (·.archiveId = kept.archiveId) = none := by
  rw [List.find?_eq_none]
  intro summary hsummary heq
  obtain ⟨other, hother, rfl⟩ := List.mem_map.mp hsummary
  have hid : other.archiveId = kept.archiveId := of_decide_eq_true heq
  exact hfound (h.eq_of_id hkept (hpage other hother) hid ▸ hother)

/-- INTERNAL: archives listed from the latest on descend. -/
theorem Represents.descending (h : Represents set tables) :
    set.reverse.Pairwise fun a b => b.archiveId < a.archiveId := by
  rw [List.pairwise_reverse]
  exact h.ascending.imp fun hab => Int64.lt_iff_toInt_lt.mpr hab

/-- INTERNAL: a cursor behind archives of the set is positive. -/
theorem cursor_positive (h : Represents set tables) {front : List KeptArchive}
    (hfront : ∀ other ∈ front, other ∈ set) (id : Int64)
    (hid : Paging.cursorOf (·.archiveId) front = some id) : 0 < id.toInt := by
  obtain ⟨last, hlast, rfl⟩ := Option.map_eq_some_iff.mp hid
  exact h.positive last (hfront last (List.mem_of_getLast? hlast))

/-- INTERNAL: a step of the loop that looks for an archive. -/
theorem findArchive_page (h : Represents set tables) {front rest : List KeptArchive}
    (hsplit : front ++ rest = set.reverse) (archiveId : Int64) (pages : ℕ) :
    findArchive tables archiveId (pages + 1) (Paging.cursorOf (·.archiveId) front) =
      match ((rest.take 100).map (·.summary)).getLast? with
      | none => fail .archiveNotFound "investigation archive was not found"
      | some last =>
        match ((rest.take 100).map (·.summary)).find? (·.archiveId = archiveId) with
        | some archive => .ok archive
        | none => findArchive tables archiveId pages (some last.archiveId) := by
  have hmem : ∀ other ∈ front, other ∈ set := fun other hother =>
    List.mem_reverse.mp (hsplit ▸ List.mem_append_left rest hother)
  have hlist := listArchives_eq h 100 (by decide) (cursor_positive h hmem)
  have hdescending := h.descending
  rw [← hsplit] at hdescending hlist
  have hasymm : ∀ a b : Int64, b < a → ¬ a < b := fun a b hab hba =>
    Int64.lt_irrefl (Int64.lt_trans hab hba)
  have hpage : Paging.page (fun a b : Int64 => b < a) (fun kept : KeptArchive => kept.archiveId)
      (front ++ rest) 100 (Paging.cursorOf (·.archiveId) front) = rest.take 100 :=
    Paging.page_behind hasymm hdescending 100
  rw [hpage] at hlist
  conv_lhs => unfold findArchive
  rw [hlist]
  rfl

/-- **The archive is found**, on whichever page it is.
SRC: investigation_bundle_exporter.cpp:190-216 -/
theorem findArchive_eq (h : Represents set tables) (hkept : kept ∈ set) (pages : ℕ)
    (hpages : set.length < pages) :
    findArchive tables kept.archiveId pages none = .ok kept.summary := by
  have hrun : ∀ (pages : ℕ) (front rest : List KeptArchive), front ++ rest = set.reverse →
      kept ∈ rest → rest.length < pages →
      findArchive tables kept.archiveId pages (Paging.cursorOf (·.archiveId) front) =
        .ok kept.summary := by
    intro pages
    induction pages with
    | zero => exact fun _ rest _ _ hlt => absurd hlt (Nat.not_lt_zero _)
    | succ pages ih =>
      intro front rest hsplit hrest hlt
      have hmem : ∀ other ∈ rest.take 100, other ∈ set := fun other hother =>
        List.mem_reverse.mp (hsplit ▸ List.mem_append_right front (List.mem_of_mem_take hother))
      have hnonempty : rest.take 100 ≠ [] := by
        cases rest with
        | nil => cases hrest
        | cons => simp
      obtain ⟨last, hlast⟩ : ∃ last, (rest.take 100).getLast? = some last :=
        ⟨_, List.getLast?_eq_some_getLast hnonempty⟩
      rw [findArchive_page h hsplit, List.getLast?_map, hlast]
      by_cases hfound : kept ∈ rest.take 100
      · rw [find_on_page h hkept hmem hfound]
        rfl
      · rw [find_off_page h hkept hmem hfound]
        have hbehind : (rest.drop 100).length < pages := by
          rw [List.length_drop]
          have := List.length_pos_of_mem hrest
          omega
        have hdrop : kept ∈ rest.drop 100 := by
          rw [← List.take_append_drop 100 rest, List.mem_append] at hrest
          exact hrest.resolve_left hfound
        have hnext := ih (front ++ rest.take 100) (rest.drop 100)
          (by rw [List.append_assoc, List.take_append_drop, hsplit]) hdrop hbehind
        rw [Paging.cursorOf_append hnonempty, Paging.cursorOf, hlast] at hnext
        exact hnext
  exact hrun pages [] set.reverse rfl (List.mem_reverse.mpr hkept) (by simpa using hpages)

/-- **Only archives of the store are found.** -/
theorem findArchive_kept (h : Represents set tables) {archiveId : Int64} {pages : ℕ}
    {archive : EvidenceArchiveSummary} (hfind : findArchive tables archiveId pages none = .ok archive) :
    ∃ kept ∈ set, kept.archiveId = archiveId := by
  have hrun : ∀ (pages : ℕ) (front rest : List KeptArchive), front ++ rest = set.reverse →
      findArchive tables archiveId pages (Paging.cursorOf (·.archiveId) front) = .ok archive →
      ∃ kept ∈ set, kept.archiveId = archiveId := by
    intro pages
    induction pages with
    | zero =>
      rintro front rest - ⟨⟩
    | succ pages ih =>
      intro front rest hsplit hok
      rw [findArchive_page h hsplit, List.getLast?_map] at hok
      cases hlast : (rest.take 100).getLast? with
      | none =>
        rw [hlast] at hok
        cases hok
      | some last =>
        have hnonempty : rest.take 100 ≠ [] := by
          intro hnil
          rw [hnil] at hlast
          cases hlast
        cases hfound : ((rest.take 100).map (·.summary)).find? (·.archiveId = archiveId) with
        | some found =>
          obtain ⟨kept, hkept, rfl⟩ := List.mem_map.mp (List.mem_of_find?_eq_some hfound)
          have hid := List.find?_some hfound
          exact ⟨kept, List.mem_reverse.mp (hsplit ▸ List.mem_append_right front
            (List.mem_of_mem_take hkept)), of_decide_eq_true hid⟩
        | none =>
          rw [hlast, hfound] at hok
          refine ih (front ++ rest.take 100) (rest.drop 100)
            (by rw [List.append_assoc, List.take_append_drop, hsplit]) ?_
          rw [Paging.cursorOf_append hnonempty, Paging.cursorOf, hlast]
          exact hok
  exact hrun pages [] set.reverse rfl hfind

/-! ## Evidence -/

/-- INTERNAL: a page whose ordinals ascend behind the records is appended. -/
theorem appendPage_eq {records page : List StoredEvidenceRecord}
    (h : (records ++ page).Pairwise fun a b => a.record.ordinal < b.record.ordinal) :
    appendPage records page = .ok (records ++ page) := by
  induction page generalizing records with
  | nil =>
    rw [List.append_nil]
    rfl
  | cons stored page ih =>
    have hlast : (records.getLast?.any fun last =>
        decide (stored.record.ordinal ≤ last.record.ordinal)) = false := by
      cases hlast : records.getLast? with
      | none => rfl
      | some last =>
        have hlt := (List.pairwise_append.mp h).2.2 last (List.mem_of_getLast? hlast) stored
          (List.mem_cons_self ..)
        rw [Option.any_some, decide_eq_false_iff_not, UInt64.not_le]
        exact hlt
    have hsplit : records ++ stored :: page = records ++ [stored] ++ page := by simp
    rw [hsplit] at h ⊢
    unfold appendPage
    rw [hlast, if_neg (by simp)]
    exact ih h

/-- **All records are loaded**, in pages of a hundred.
SRC: investigation_bundle_exporter.cpp:218-261 -/
theorem loadAllEvidence_eq (h : Represents set tables) (hkept : kept ∈ set) (pages : ℕ)
    (hpages : kept.records.length < pages) :
    loadAllEvidence tables kept.archiveId pages [] none =
      .ok (kept.records.map (storedAs kept.archiveId)) := by
  have hrun : ∀ (pages : ℕ) (front rest : List CommandEvidenceRecord),
      front ++ rest = kept.records → rest.length < pages →
      loadAllEvidence tables kept.archiveId pages (front.map (storedAs kept.archiveId))
        (Paging.cursorOf (·.ordinal) front) = .ok (kept.records.map (storedAs kept.archiveId)) := by
    intro pages
    induction pages with
    | zero => exact fun _ rest _ hlt => absurd hlt (Nat.not_lt_zero _)
    | succ pages ih =>
      intro front rest hsplit hlt
      have hascending := kept.ascending
      rw [← hsplit] at hascending
      have hquery := queryEvidence_eq h hkept
        { afterOrdinal := Paging.cursorOf (·.ordinal) front, limit := pageSize }
        (by rintro minimum maximum ⟨⟩) (by simp [pageSize])
      have hall : kept.records.filter (admits {
          afterOrdinal := Paging.cursorOf (·.ordinal) front, limit := pageSize }) = kept.records :=
        List.filter_eq_self.mpr fun record _ => rfl
      rw [hall, ← hsplit] at hquery
      rw [Paging.page_behind (fun a b hab hba => UInt64.lt_irrefl _ (UInt64.lt_trans hab hba))
        hascending] at hquery
      unfold loadAllEvidence
      rw [hquery]
      show (if ((rest.take pageSize).map _).isEmpty then _ else _) = _
      cases rest with
      | nil =>
        rw [List.append_nil] at hsplit
        rw [hsplit]
        rfl
      | cons first rest =>
        have hnonempty : (first :: rest).take pageSize ≠ [] := by simp [pageSize]
        have hcursor : Paging.cursorOf CommandEvidenceRecord.ordinal
            (front ++ (first :: rest).take pageSize) = _ := Paging.cursorOf_append hnonempty
        have happend : appendPage (front.map (storedAs kept.archiveId))
            (((first :: rest).take pageSize).map (storedAs kept.archiveId)) =
            .ok ((front ++ (first :: rest).take pageSize).map (storedAs kept.archiveId)) := by
          rw [List.map_append]
          apply appendPage_eq
          rw [← List.map_append, List.pairwise_map]
          rw [← List.take_append_drop pageSize (first :: rest), ← List.append_assoc] at hascending
          exact (List.pairwise_append.mp hascending).1
        rw [if_neg (by simpa using hnonempty), happend]
        show (if (((first :: rest).take pageSize).map _).length < pageSize then _ else _) = _
        rw [List.length_map]
        split_ifs with hshort
        · have htake : (first :: rest).take pageSize = first :: rest := by
            rw [List.take_eq_self_iff]
            rw [List.length_take] at hshort
            omega
          rw [htake, hsplit]
          rfl
        · have hnext := ih (front ++ (first :: rest).take pageSize) ((first :: rest).drop pageSize)
            (by rw [List.append_assoc, List.take_append_drop, hsplit]) (by
              rw [List.length_drop]
              simp only [List.length_cons, pageSize] at hlt ⊢
              omega)
          rw [hcursor, Paging.cursorOf] at hnext
          rw [List.getLast?_map, Option.map_map]
          exact hnext
  exact hrun pages [] kept.records rfl hpages

/-! ## Sessions -/

/-- A session as the store lists it. -/
def summaryOf (key : SessionKey) (aggregate : SessionAggregate) : EvidenceSessionSummary where
  clientId := ⟨key.clientId⟩
  sessionId := ⟨key.sessionId⟩
  firstOrdinal := aggregate.firstOrdinal
  lastOrdinal := aggregate.lastOrdinal
  firstObservedTick := aggregate.firstObservedTick
  lastObservedTick := aggregate.lastObservedTick
  acceptedCount := aggregate.acceptedCount
  rejectedCount := aggregate.rejectedCount

/-- INTERNAL: the row of a session is read back. -/
theorem sessionSummary_sessionRow (archiveId : Int64) (key : SessionKey)
    {aggregate : SessionAggregate} (haccepted : aggregate.acceptedCount < 2 ^ 63)
    (hrejected : aggregate.rejectedCount < 2 ^ 63) :
    sessionSummary (sessionRow archiveId key aggregate (Int64.ofNat aggregate.acceptedCount)
      (Int64.ofNat aggregate.rejectedCount)) = .ok (summaryOf key aggregate) := by
  unfold sessionSummary sessionRow
  simp only [decodeU64_encodeU64, checkedSize_ofNat haccepted, checkedSize_ofNat hrejected, bind,
    Except.bind, pure, Except.pure]
  rfl

/-- INTERNAL: rows of ascending keys are in the order of the query. -/
theorem sessionRowNotAfter_of_lt {archiveId : Int64} {key key' : SessionKey}
    {aggregate aggregate' : SessionAggregate} {a b a' b' : Int64} (h : key < key') :
    sessionRowNotAfter (sessionRow archiveId key aggregate a b)
      (sessionRow archiveId key' aggregate' a' b') = true := by
  have hrank : key.rank < key'.rank := h
  rw [SessionKey.rank, SessionKey.rank, Prod.Lex.toLex_lt_toLex] at hrank
  unfold sessionRowNotAfter sessionRow
  rw [Bool.or_eq_true, Bool.and_eq_true, Bool.not_eq_true', decide_eq_true_eq, encodeU64_inj,
    ← Bool.not_eq_true, encodeU64_lt_iff, encodeU64_lt_iff, UInt64.lt_iff_toNat_lt,
    UInt64.lt_iff_toNat_lt, ← UInt64.toNat_inj]
  rcases hrank with hclient | ⟨hclient, hsession⟩
  · exact Or.inl hclient
  · exact Or.inr ⟨hclient, Nat.not_lt.mpr (Nat.le_of_lt hsession)⟩

/-- **The sessions of an archive** are listed by client and session.
SRC: investigation_store.cpp:1087-1131 -/
theorem listSessions_eq (h : Represents set tables) (hkept : kept ∈ set) :
    listSessions kept.archiveId tables =
      .ok ((aggregatesOf kept.records).entries.map fun (key, aggregate) =>
        summaryOf key aggregate) := by
  have hcount := kept.decoded.2.2.1
  rw [maximumRecordCount_eq] at hcount
  have hsorted : kept.sessionRows.Pairwise fun left right =>
      sessionRowNotAfter left right = true := by
    refine List.pairwise_map.mpr ((aggregatesOf kept.records).ascending.imp ?_)
    intro a b hab
    exact sessionRowNotAfter_of_lt hab
  unfold listSessions
  rw [if_neg (h.id_positive hkept), h.sessions_of hkept]
  show (kept.sessionRows.insertionSort _).mapM sessionSummary = _
  rw [hsorted.insertionSort_eq, KeptArchive.sessionRows, Analysis.sessionRows, List.mapM_map]
  refine Checks.mapM_ok fun entry hentry => ?_
  have hcounts := aggregate_counts hentry
  exact sessionSummary_sessionRow _ _ (by omega) (by omega)

end

/-! ## Projections -/

/-- What the exporter projects of a session: over its records, in order, the first and the last
target tick and the last sequence of the session. -/
def projection? (key : SessionKey) (records : List CommandEvidenceRecord) :
    Option SessionProjection :=
  let own := records.filter (sessionKey · = key)
  own.head?.bind fun first => own.getLast?.map fun last => {
    lastCommittedSequence := last.entry.sessionSequenceAfter
    firstTargetTick := first.entry.envelope.targetTick
    lastTargetTick := last.entry.envelope.targetTick }

/-- INTERNAL: what a record does to the projection of its session. -/
def projectStep (projection : Option SessionProjection) (record : CommandEvidenceRecord) :
    SessionProjection where
  lastCommittedSequence := record.entry.sessionSequenceAfter
  firstTargetTick :=
    match projection with
    | none => record.entry.envelope.targetTick
    | some projection => projection.firstTargetTick
  lastTargetTick := record.entry.envelope.targetTick

/-- The projections of some records. -/
def projectionsOf (records : List CommandEvidenceRecord) : SessionProjections :=
  records.foldl project OrderedMap.empty

/-- **The projections of an export** are those of its sessions.
SRC: investigation_bundle_exporter.cpp:336-352 -/
theorem find?_projectionsOf (key : SessionKey) (records : List CommandEvidenceRecord) :
    (projectionsOf records).find? key = projection? key records := by
  have hgroup : (projectionsOf records).find? key =
      (records.filter (sessionKey · = key)).foldl
        (fun projection record => some (projectStep projection record)) none :=
    OrderedMap.find?_foldl_insert sessionKey projectStep records OrderedMap.empty key
  rw [hgroup, projection?]
  generalize records.filter (sessionKey · = key) = own
  induction own using List.reverseRecOn with
  | nil => rfl
  | append_singleton own record ih =>
    simp only [List.foldl_append, List.foldl_cons, List.foldl_nil, ih, List.getLast?_append,
      List.getLast?_singleton, Option.some_or, Option.map_some, List.head?_append]
    cases own with
    | nil => rfl
    | cons first own =>
      obtain ⟨last, hlast⟩ : ∃ last, (first :: own).getLast? = some last :=
        ⟨_, List.getLast?_eq_some_getLast (List.cons_ne_nil _ _)⟩
      simp [hlast, projectStep]

/-- INTERNAL: a session has a summary and a projection when it has records. -/
theorem isSome_of_head {α β : Type} (own : List α) (f : α → α → β) :
    (own.head?.bind fun first => own.getLast?.map (f first)).isSome = !own.isEmpty := by
  cases own with
  | nil => rfl
  | cons first own =>
    obtain ⟨last, hlast⟩ : ∃ last, (first :: own).getLast? = some last :=
      ⟨_, List.getLast?_eq_some_getLast (List.cons_ne_nil _ _)⟩
    simp [hlast]

/-- INTERNAL: the sessions of the store are those of the exporter. -/
theorem keys_projectionsOf (records : List CommandEvidenceRecord) :
    (projectionsOf records).keys = (aggregatesOf records).keys := by
  refine OrderedMap.keys_eq fun key => ?_
  rw [find?_projectionsOf, find?_aggregatesOf, projection?, sessionSummary?]
  exact (isSome_of_head _ _).trans (isSome_of_head _ _).symm

/-- **The sessions are those of the records.** -/
theorem mem_session_keys {records : List CommandEvidenceRecord} {key : SessionKey} :
    key ∈ (aggregatesOf records).keys ↔ ∃ record ∈ records, sessionKey record = key := by
  rw [OrderedMap.mem_keys, find?_aggregatesOf, sessionSummary?]
  rw [isSome_of_head (records.filter (sessionKey · = key)), Bool.not_eq_true',
    List.isEmpty_eq_false_iff_exists_mem]
  simp [List.mem_filter]

/-! ## Totals -/

/-- INTERNAL: counting by key counts everything. -/
theorem sum_countP_keys {α κ : Type} [DecidableEq κ] (key : α → κ) (p : α → Bool) {keys : List κ}
    (hnodup : keys.Nodup) {records : List α} (h : ∀ record ∈ records, key record ∈ keys) :
    (keys.map fun k => (records.filter (key · = k)).countP p).sum = records.countP p := by
  induction records with
  | nil => simp
  | cons record records ih =>
    have hrest := ih fun other hother => h other (List.mem_cons_of_mem _ hother)
    obtain ⟨before, after, rfl⟩ := List.append_of_mem (h record (List.mem_cons_self ..))
    obtain ⟨-, hafter, hdisjoint⟩ := List.nodup_append.mp hnodup
    have hother : ∀ k, k ≠ key record →
        ((record :: records).filter (key · = k)).countP p =
          (records.filter (key · = k)).countP p := by
      intro k hk
      rw [List.filter_cons_of_neg (by simpa using Ne.symm hk)]
    have hbefore : (before.map fun k => ((record :: records).filter (key · = k)).countP p) =
        before.map fun k => (records.filter (key · = k)).countP p :=
      List.map_congr_left fun k hk =>
        hother k fun heq => hdisjoint k hk _ (List.mem_cons_self ..) heq
    have hbehind : (after.map fun k => ((record :: records).filter (key · = k)).countP p) =
        after.map fun k => (records.filter (key · = k)).countP p :=
      List.map_congr_left fun k hk =>
        hother k fun heq => (List.nodup_cons.mp hafter).1 (heq ▸ hk)
    rw [List.map_append, List.map_cons, List.sum_append, List.sum_cons, hbefore, hbehind,
      List.filter_cons_of_pos (by simp), List.countP_cons, List.countP_cons]
    rw [List.map_append, List.map_cons, List.sum_append, List.sum_cons] at hrest
    omega

/-- Whether the outcome of a record is acceptance. -/
def isAccepted (record : CommandEvidenceRecord) : Bool := record.entry.rejectionCode = .none

/-- INTERNAL: for records that decode, the code alone tells. -/
theorem recordWasAccepted_eq {record : CommandEvidenceRecord} (h : RecordOk record) :
    recordWasAccepted record = isAccepted record := by
  have hconsistent : decide (record.entry.rejectionCode = .none) =
      decide (record.entry.queueOutcome = .accepted) := by
    have hinvariants := h.invariants
    unfold validateRecordInvariants at hinvariants
    simp only [except_guard_iff] at hinvariants
    exact not_not.mp hinvariants.1
  unfold recordWasAccepted isAccepted
  rw [← hconsistent, Bool.and_self]

/-- INTERNAL: a number in range. -/
theorem requireJsonInteger_ok {value : ℕ} (h : value < 2 ^ 31) (description : String) :
    requireJsonInteger value description = .ok () := by
  rw [requireJsonInteger, if_neg (by omega)]

/-- INTERNAL: the loop over the evidence, from any place in the chain on.
SRC: investigation_bundle_exporter.cpp:321-359 -/
theorem checkEvidence_eq (archiveId : Int64) {records : List CommandEvidenceRecord} {i : ℕ}
    {head : Sha256Digest} (totals : EvidenceTotals)
    (hlinked : evidenceChain.Linked i totals.expectedDigest records head)
    (hordinals : ∀ record ∈ records, record.ordinal.toNat < 2 ^ 31)
    (hok : ∀ record ∈ records, RecordOk record) :
    checkEvidence totals (records.map (storedAs archiveId)) = .ok {
      expectedDigest := head
      projections := records.foldl project totals.projections
      acceptedCount := totals.acceptedCount + records.countP isAccepted
      rejectedCount := totals.rejectedCount + records.countP (!isAccepted ·) } := by
  induction records generalizing i totals with
  | nil =>
    obtain rfl : totals.expectedDigest = head := hlinked
    rfl
  | cons record records ih =>
    obtain ⟨-, hprevious, hrest⟩ := hlinked
    have hprevious : record.previousRecordDigest = totals.expectedDigest := hprevious
    have hnext := ih (totals.add (storedAs archiveId record)) hrest
      (fun other hother => hordinals other (List.mem_cons_of_mem _ hother))
      (fun other hother => hok other (List.mem_cons_of_mem _ hother))
    have haccepted := recordWasAccepted_eq (hok record (List.mem_cons_self ..))
    rw [List.map_cons, checkEvidence]
    show (requireJsonInteger record.ordinal.toNat _ >>= fun _ =>
      if record.previousRecordDigest ≠ totals.expectedDigest then _ else _) = _
    rw [requireJsonInteger_ok (hordinals record (List.mem_cons_self ..))]
    show (if record.previousRecordDigest ≠ totals.expectedDigest then _ else
      checkEvidence (totals.add (storedAs archiveId record)) (records.map (storedAs archiveId))) = _
    rw [if_neg (not_not.mpr hprevious), hnext, List.countP_cons, List.countP_cons]
    have hstored : (storedAs archiveId record).record = record := rfl
    simp only [EvidenceTotals.add, hstored, haccepted, List.foldl_cons]
    cases isAccepted record <;> simp [Nat.add_comm, Nat.add_left_comm, Nat.add_assoc]

/-- INTERNAL: the loop over the sessions. -/
theorem checkSessions_eq {projections : SessionProjections} {accepted rejected : ℕ}
    {sessions : List EvidenceSessionSummary}
    (hkeys : ∀ session ∈ sessions, projections.contains session.key = true)
    (hcounts : ∀ session ∈ sessions,
      session.acceptedCount < 2 ^ 31 ∧ session.rejectedCount < 2 ^ 31) :
    checkSessions projections accepted rejected sessions =
      .ok (accepted + (sessions.map (·.acceptedCount)).sum,
        rejected + (sessions.map (·.rejectedCount)).sum) := by
  induction sessions generalizing accepted rejected with
  | nil => rfl
  | cons session sessions ih =>
    obtain ⟨hacceptedCount, hrejectedCount⟩ := hcounts session (List.mem_cons_self ..)
    rw [checkSessions, hkeys session (List.mem_cons_self ..), if_neg (by simp),
      requireJsonInteger_ok hacceptedCount, requireJsonInteger_ok hrejectedCount]
    show checkSessions projections _ _ sessions = _
    rw [ih (fun other hother => hkeys other (List.mem_cons_of_mem _ hother))
      fun other hother => hcounts other (List.mem_cons_of_mem _ hother)]
    simp [Nat.add_assoc]

/-! ## The export -/

/-- The projection of a session that has one. -/
def projectionOf (key : SessionKey) (records : List CommandEvidenceRecord) : SessionProjection :=
  (projection? key records).getD ⟨0, 0, 0⟩

namespace KeptArchive

/-- The sessions that an export shows. -/
def shownSessions (kept : KeptArchive) : List (EvidenceSessionSummary × SessionProjection) :=
  (aggregatesOf kept.records).entries.map fun (key, aggregate) =>
    (summaryOf key aggregate, projectionOf key kept.records)

/-- How many of the archive's commands were accepted. -/
def acceptedCount (kept : KeptArchive) : ℕ := kept.records.countP isAccepted

/-- How many of them were not. -/
def rejectedCount (kept : KeptArchive) : ℕ := kept.records.countP (!isAccepted ·)

/-- The text of an export. -/
def exportText (kept : KeptArchive) (result : CommandEvidenceReplayResult) : List Char :=
  bundleText kept.summary genesisDigest kept.shownSessions
    (kept.records.map (storedAs kept.archiveId)) result kept.acceptedCount kept.rejectedCount

end KeptArchive

/-- INTERNAL: an archive has no more records than there are rows. -/
theorem kept_length_lt {set : List KeptArchive} {tables : Tables} {kept : KeptArchive}
    (h : Represents set tables) (hkept : kept ∈ set) :
    kept.records.length < tables.commandEvidence.length + 1 := by
  have hlength := congrArg List.length (h.evidence_of hkept)
  rw [KeptArchive.evidenceRows, List.length_map] at hlength
  have := List.length_filter_le (fun row : EvidenceRow => row.archiveId = kept.archiveId)
    tables.commandEvidence
  omega

/-- INTERNAL: the evidence starts from the genesis digest. -/
theorem initialHead_eq (kept : KeptArchive) :
    initialHeadOf (kept.records.map (storedAs kept.archiveId)) = genesisDigest := by
  obtain ⟨-, hlinked, -⟩ := kept.decoded
  cases hrecords : kept.records with
  | nil => rfl
  | cons first rest =>
    rw [hrecords] at hlinked
    exact hlinked.2.1

/-- INTERNAL: the evidence of an archive passes its checks. -/
theorem KeptArchive.checkEvidence_records (kept : KeptArchive)
    (hordinals : ∀ record ∈ kept.records, record.ordinal.toNat < 2 ^ 31) :
    checkEvidence { expectedDigest := genesisDigest }
      (kept.records.map (storedAs kept.archiveId)) = .ok {
        expectedDigest := kept.head
        projections := projectionsOf kept.records
        acceptedCount := kept.acceptedCount
        rejectedCount := kept.rejectedCount } := by
  obtain ⟨-, hlinked, -, hok⟩ := kept.decoded
  rw [checkEvidence_eq kept.archiveId { expectedDigest := genesisDigest } hlinked
    hordinals hok]
  simp only [Nat.zero_add]
  rfl

/-- INTERNAL: the counts of a session. -/
theorem entry_counts {records : List CommandEvidenceRecord} {entry : SessionKey × SessionAggregate}
    (h : entry ∈ (aggregatesOf records).entries) :
    entry.2.acceptedCount = (records.filter (sessionKey · = entry.1)).countP isAccepted ∧
      entry.2.rejectedCount =
        (records.filter (sessionKey · = entry.1)).countP (!isAccepted ·) := by
  have hfind := OrderedMap.find?_eq_some_iff.mpr h
  rw [find?_aggregatesOf, sessionSummary?] at hfind
  obtain ⟨first, -, hlast⟩ := Option.bind_eq_some_iff.mp hfind
  obtain ⟨last, -, haggregate⟩ := Option.map_eq_some_iff.mp hlast
  rw [← haggregate]
  refine ⟨rfl, ?_⟩
  simp [isAccepted]

/-- INTERNAL: the sessions of an archive do not count more than the archive. -/
theorem shownSession_counts {kept : KeptArchive} {shown : EvidenceSessionSummary × SessionProjection}
    (h : shown ∈ kept.shownSessions) :
    shown.1.acceptedCount ≤ kept.acceptedCount ∧ shown.1.rejectedCount ≤ kept.rejectedCount := by
  obtain ⟨entry, hentry, rfl⟩ := List.mem_map.mp h
  obtain ⟨haccepted, hrejected⟩ := entry_counts hentry
  show entry.2.acceptedCount ≤ _ ∧ entry.2.rejectedCount ≤ _
  rw [haccepted, hrejected]
  exact ⟨List.filter_sublist.countP_le, List.filter_sublist.countP_le⟩

/-- INTERNAL: the sums over the sessions are the totals. -/
theorem session_sums (records : List CommandEvidenceRecord) :
    ((aggregatesOf records).entries.map fun entry => entry.2.acceptedCount).sum =
        records.countP isAccepted ∧
      ((aggregatesOf records).entries.map fun entry => entry.2.rejectedCount).sum =
        records.countP (!isAccepted ·) := by
  have hkeys : ∀ record ∈ records, sessionKey record ∈ (aggregatesOf records).keys :=
    fun record hrecord => mem_session_keys.mpr ⟨record, hrecord, rfl⟩
  have hnodup : (aggregatesOf records).keys.Nodup :=
    (aggregatesOf records).keys_ascending.imp ne_of_lt
  constructor
  · rw [← sum_countP_keys sessionKey isAccepted hnodup hkeys, OrderedMap.keys, List.map_map]
    exact congrArg List.sum (List.map_congr_left fun entry hentry => (entry_counts hentry).1)
  · rw [← sum_countP_keys sessionKey (!isAccepted ·) hnodup hkeys, OrderedMap.keys, List.map_map]
    exact congrArg List.sum (List.map_congr_left fun entry hentry => (entry_counts hentry).2)

/-- INTERNAL: every session has its projection. -/
theorem projectionAt_eq {records : List CommandEvidenceRecord}
    {entry : SessionKey × SessionAggregate} (h : entry ∈ (aggregatesOf records).entries) :
    projectionAt (projectionsOf records) (summaryOf entry.1 entry.2) =
      .ok (summaryOf entry.1 entry.2, projectionOf entry.1 records) := by
  have hkey : entry.1 ∈ (projectionsOf records).keys := by
    rw [keys_projectionsOf]
    exact List.mem_map.mpr ⟨entry, h, rfl⟩
  obtain ⟨projection, hprojection⟩ := Option.isSome_iff_exists.mp (OrderedMap.mem_keys.mp hkey)
  have hfind := hprojection
  rw [find?_projectionsOf] at hfind
  have hsession : (summaryOf entry.1 entry.2).key = entry.1 := rfl
  simp only [projectionAt, hsession, hprojection, projectionOf, hfind, Option.getD_some]

/-- INTERNAL: in an export that returned, no check has fired. -/
theorem export_guard_iff {α : Type} {c : Prop} [Decidable c]
    {code : InvestigationBundleExportErrorCode} {message : String}
    {f : PUnit → Except ExportFault α} {y : Except ExportFault α} {a : α} :
    (if c then fail code message >>= f else y) = .ok a ↔ ¬ c ∧ y = .ok a :=
  except_guard_iff

/-- INTERNAL: a check that passed. -/
theorem requireJsonInteger_iff {value : ℕ} {description : String} {u : Unit} :
    requireJsonInteger value description = .ok u ↔ value < 2 ^ 31 := by
  unfold requireJsonInteger
  split_ifs with h
  · exact iff_of_false (by rintro ⟨⟩) (by omega)
  · exact iff_of_true rfl (by omega)

/-- **When an export succeeds**, and what it then returns. -/
theorem export_iff {tables : Tables} {archiveId : Int64} {text : List Char} :
    exportInvestigationBundleJson tables archiveId = .ok text ↔ ¬ archiveId ≤ 0 ∧
      ∃ archive, findArchive tables archiveId (tables.evidenceArchives.length + 1) none =
        .ok archive ∧
      ∃ replay, (replayResult archiveId tables).mapError ExportFault.store = .ok (some replay) ∧
        exportContents tables archiveId archive replay = .ok text := by
  unfold exportInvestigationBundleJson
  simp only [export_guard_iff, except_bind_iff]
  refine and_congr_right fun _ => exists_congr fun archive => and_congr_right fun _ => ?_
  constructor
  · rintro ⟨replay, hreplay, hcontents⟩
    cases replay with
    | none => cases hcontents
    | some replay => exact ⟨replay, hreplay, hcontents⟩
  · rintro ⟨replay, hreplay, hcontents⟩
    exact ⟨some replay, hreplay, hcontents⟩

/-- INTERNAL: the checks of the rest of an export. -/
theorem exportContents_iff {tables : Tables} {archiveId : Int64} {archive : EvidenceArchiveSummary}
    {replay : CommandEvidenceReplayResult} {text : List Char} :
    exportContents tables archiveId archive replay = .ok text ↔
      ∃ evidence, loadAllEvidence tables archiveId (tables.commandEvidence.length + 1) [] none =
        .ok evidence ∧ evidence.length = archive.recordCount ∧
      ∃ totals, checkEvidence { expectedDigest := initialHeadOf evidence } evidence = .ok totals ∧
        (totals.expectedDigest = archive.chainHead ∧ archive.trustedHead = archive.chainHead) ∧
      ∃ sessions, (listSessions archiveId tables).mapError ExportFault.store = .ok sessions ∧
        sessions.length = totals.projections.size ∧
      ∃ outcomes, checkSessions totals.projections 0 0 sessions = .ok outcomes ∧
        outcomes = (totals.acceptedCount, totals.rejectedCount) ∧
        totals.acceptedCount < 2 ^ 31 ∧ totals.rejectedCount < 2 ^ 31 ∧
      ∃ projected, sessions.mapM (projectionAt totals.projections) = .ok projected ∧
        bundleText archive (initialHeadOf evidence) projected evidence replay totals.acceptedCount
          totals.rejectedCount = text := by
  unfold exportContents
  simp only [export_guard_iff, except_bind_iff, requireJsonInteger_iff, pure, Except.pure,
    Except.ok.injEq, not_not, not_or, exists_const]

/-- **An export succeeds**, and writes the archive.
SRC: investigation_bundle_exporter.cpp:279-666 -/
theorem export_eq {set : List KeptArchive} {tables : Tables} {kept : KeptArchive}
    (h : Represents set tables) (hkept : kept ∈ set) {result : CommandEvidenceReplayResult}
    (hreplay : kept.replay = some result)
    (hordinals : ∀ record ∈ kept.records, record.ordinal.toNat < 2 ^ 31)
    (haccepted : kept.acceptedCount < 2 ^ 31) (hrejected : kept.rejectedCount < 2 ^ 31) :
    exportInvestigationBundleJson tables kept.archiveId = .ok (kept.exportText result) := by
  obtain ⟨hhead, -⟩ := kept.decoded
  have hfind := findArchive_eq h hkept (tables.evidenceArchives.length + 1)
    (by rw [h.archives, List.length_map]; omega)
  have hload := loadAllEvidence_eq h hkept _ (kept_length_lt h hkept)
  have hread : (replayResult kept.archiveId tables).mapError ExportFault.store =
      .ok (some result) := by
    rw [h.replayResult_eq hkept, hreplay]
    rfl
  have hcheck := kept.checkEvidence_records hordinals
  rw [← initialHead_eq kept] at hcheck
  have hsessions : (listSessions kept.archiveId tables).mapError ExportFault.store =
      .ok ((aggregatesOf kept.records).entries.map fun entry => summaryOf entry.1 entry.2) := by
    rw [listSessions_eq h hkept]
    rfl
  have hsize : (aggregatesOf kept.records).entries.length = (projectionsOf kept.records).size := by
    have hlength := congrArg List.length (keys_projectionsOf kept.records)
    rw [OrderedMap.keys, OrderedMap.keys, List.length_map, List.length_map] at hlength
    exact hlength.symm
  have hcounts : ∀ session ∈ (aggregatesOf kept.records).entries.map fun entry =>
      summaryOf entry.1 entry.2, session.acceptedCount < 2 ^ 31 ∧ session.rejectedCount < 2 ^ 31 := by
    intro session hsession
    obtain ⟨entry, hentry, rfl⟩ := List.mem_map.mp hsession
    obtain ⟨hacceptedEntry, hrejectedEntry⟩ := entry_counts hentry
    have hacceptedLe := (List.filter_sublist (p := (sessionKey · = entry.1))
      (l := kept.records)).countP_le (p := isAccepted)
    have hrejectedLe := (List.filter_sublist (p := (sessionKey · = entry.1))
      (l := kept.records)).countP_le (p := (!isAccepted ·))
    exact ⟨(hacceptedEntry.trans_le hacceptedLe).trans_lt haccepted,
      (hrejectedEntry.trans_le hrejectedLe).trans_lt hrejected⟩
  have hkeys : ∀ session ∈ (aggregatesOf kept.records).entries.map fun entry =>
      summaryOf entry.1 entry.2, (projectionsOf kept.records).contains session.key = true := by
    intro session hsession
    obtain ⟨entry, hentry, rfl⟩ := List.mem_map.mp hsession
    show ((projectionsOf kept.records).find? entry.1).isSome = true
    rw [← OrderedMap.mem_keys, keys_projectionsOf]
    exact List.mem_map.mpr ⟨entry, hentry, rfl⟩
  have hprojected : ((aggregatesOf kept.records).entries.map fun entry =>
      summaryOf entry.1 entry.2).mapM (projectionAt (projectionsOf kept.records)) =
      .ok kept.shownSessions := by
    rw [List.mapM_map]
    exact Checks.mapM_ok fun entry hentry => projectionAt_eq hentry
  obtain ⟨hsumAccepted, hsumRejected⟩ := session_sums kept.records
  have htotals : checkSessions (projectionsOf kept.records) 0 0
      ((aggregatesOf kept.records).entries.map fun entry => summaryOf entry.1 entry.2) =
      .ok (kept.acceptedCount, kept.rejectedCount) := by
    rw [checkSessions_eq hkeys hcounts, List.map_map, List.map_map, Nat.zero_add, Nat.zero_add]
    exact congrArg Except.ok (Prod.ext hsumAccepted hsumRejected)
  refine export_iff.mpr ⟨h.id_positive hkept, kept.summary, hfind, result, hread, ?_⟩
  refine exportContents_iff.mpr ⟨_, hload, by rw [List.length_map]; rfl, _, hcheck,
    ⟨hhead.symm, hhead.symm⟩, _, hsessions, by rw [List.length_map, hsize], _, htotals, rfl, haccepted,
    hrejected, _, hprojected, ?_⟩
  rw [initialHead_eq]
  rfl

/-- **Every archive with a replay result and fewer than 2^31 records has an export.** -/
theorem export_of_length {set : List KeptArchive} {tables : Tables} {kept : KeptArchive}
    (h : Represents set tables) (hkept : kept ∈ set) {result : CommandEvidenceReplayResult}
    (hreplay : kept.replay = some result) (hcount : kept.records.length < 2 ^ 31) :
    exportInvestigationBundleJson tables kept.archiveId = .ok (kept.exportText result) := by
  have hordinals : ∀ record ∈ kept.records, record.ordinal.toNat < 2 ^ 31 := by
    intro record hrecord
    have hrange : record.ordinal.toNat ∈ kept.records.map evidenceChain.ordinal :=
      List.mem_map.mpr ⟨record, hrecord, rfl⟩
    rw [kept.decoded.2.1.ordinals, List.mem_range'_1] at hrange
    omega
  exact export_eq h hkept hreplay hordinals (List.countP_le_length.trans_lt hcount)
    (List.countP_le_length.trans_lt hcount)

/-- INTERNAL: the evidence passed its checks only with ordinals in range. -/
theorem checkEvidence_ordinals {evidence : List StoredEvidenceRecord} {totals totals' : EvidenceTotals}
    (h : checkEvidence totals evidence = .ok totals') :
    ∀ stored ∈ evidence, stored.record.ordinal.toNat < 2 ^ 31 := by
  induction evidence generalizing totals with
  | nil => simp
  | cons stored evidence ih =>
    simp only [checkEvidence, except_bind_iff, export_guard_iff, requireJsonInteger_iff,
      exists_const] at h
    obtain ⟨hordinal, -, hrest⟩ := h
    intro other hother
    rcases List.mem_cons.mp hother with rfl | hother
    · exact hordinal
    · exact ih hrest other hother

/-- **What an export that succeeded is of**: an archive of the store with a replay result. -/
theorem of_export_ok {set : List KeptArchive} {tables : Tables} (h : Represents set tables)
    {archiveId : Int64} {text : List Char}
    (hexport : exportInvestigationBundleJson tables archiveId = .ok text) :
    ∃ kept ∈ set, kept.archiveId = archiveId ∧ ∃ result, kept.replay = some result ∧
      (∀ record ∈ kept.records, record.ordinal.toNat < 2 ^ 31) ∧ kept.acceptedCount < 2 ^ 31 ∧
      kept.rejectedCount < 2 ^ 31 ∧ text = kept.exportText result := by
  obtain ⟨-, archive, hfind, replay, hreplay, hcontents⟩ := export_iff.mp hexport
  obtain ⟨kept, hkept, rfl⟩ := findArchive_kept h hfind
  rw [h.replayResult_eq hkept] at hreplay
  have hresult : kept.replay = some replay := Except.ok.inj hreplay
  obtain ⟨evidence, hload, -, totals, hcheck, -, sessions, -, -, outcomes, -, -, haccepted,
    hrejected, -⟩ := exportContents_iff.mp hcontents
  have hload' := loadAllEvidence_eq h hkept (tables.commandEvidence.length + 1)
    (kept_length_lt h hkept)
  obtain rfl : kept.records.map (storedAs kept.archiveId) = evidence :=
    Except.ok.inj (hload'.symm.trans hload)
  have hordinals : ∀ record ∈ kept.records, record.ordinal.toNat < 2 ^ 31 := fun record hrecord =>
    checkEvidence_ordinals hcheck _ (List.mem_map.mpr ⟨record, hrecord, rfl⟩)
  rw [initialHead_eq, kept.checkEvidence_records hordinals] at hcheck
  obtain rfl := Except.ok.inj hcheck
  refine ⟨kept, hkept, rfl, replay, hresult, hordinals, haccepted, hrejected, ?_⟩
  have heq := export_eq h hkept hresult hordinals haccepted hrejected
  exact Except.ok.inj (hexport.symm.trans heq)

end Tickline.Analysis
