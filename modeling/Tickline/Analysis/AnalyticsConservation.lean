import Tickline.Analysis.ValidatorAgreement
import Tickline.Model.InvestigationAnalytics

/-!
# What the statistics conserve

The analysis groups one list of records in four ways.  The parser has checked that a record is
accepted or rejected and of a session of the bundle (`Attributed`), so each grouping counts every
record once and the sums agree (`analyze_conserves`).  That the sessions of the statistics repeat
those of the bundle rests on the parser's summaries as well.
-/

set_option autoImplicit false

namespace Tickline.Analysis

open Tickline.Library Tickline.Library.Grouping Tickline.Model Tickline.Model.Storage
open Tickline.Model.Analytics

/-! ## What the parser has checked -/

/-- Every record is accepted or rejected, and of a session of the bundle. -/
structure Attributed (sessions : List Analytics.InvestigationSession)
    (record : InvestigationEvidenceRecord) : Prop where
  session : record.key ∈ sessions.map (·.key)
  outcome : record.isRejected = !record.isAccepted

/-- INTERNAL: the loop over the records checks each. -/
theorem attributed_of_validateEvidence {sessions : List Analytics.InvestigationSession}
    {evidence : List InvestigationEvidenceRecord} {index : ℕ} {previous : Str}
    {recordDigests : List Str} {head : Str}
    (h : validateEvidence sessions index previous recordDigests evidence = .ok head) :
    ∀ record ∈ evidence, Attributed sessions record := by
  induction evidence generalizing index previous recordDigests with
  | nil => simp
  | cons record evidence ih =>
    simp only [validateEvidence, validation_guard_iff] at h
    obtain ⟨-, hsession, -, -, houtcome, -, -, hrest⟩ := h
    refine List.forall_mem_cons.mpr ⟨⟨?_, ?_⟩, ih hrest⟩
    · simp only [Bool.not_eq_true', Bool.not_eq_false, List.any_eq_true, decide_eq_true_eq] at hsession
      obtain ⟨session, hmem, hkey⟩ := hsession
      exact List.mem_map.mpr ⟨session, hmem, hkey⟩
    · have hnames : str "accepted" ≠ str "rejected" := by decide
      unfold InvestigationEvidenceRecord.isRejected InvestigationEvidenceRecord.isAccepted
      by_cases haccepted : record.outcome = str "accepted"
      · simp [haccepted, hnames]
      · have hrejected : record.outcome = str "rejected" := by
          by_contra hnot
          exact houtcome ⟨haccepted, hnot⟩
        simp [hrejected, hnames.symm]

/-- What the parser has checked of a bundle, as far as the statistics rest on it. -/
structure CheckedBundle (bundle : Analytics.InvestigationBundle) : Prop where
  sessions : (bundle.sessions.map (·.key)).Nodup
  records : ∀ record ∈ bundle.evidence, Attributed bundle.sessions record
  accepted : bundle.replay.acceptedCommands = bundle.evidence.countP (·.isAccepted)
  rejected : bundle.replay.rejectedCommands = bundle.evidence.countP (·.isRejected)
  summaries : ∀ session ∈ bundle.sessions, Summarises bundle.evidence session

/-- **What the parser returns is checked.** -/
theorem CheckedBundle.of_parse {message : DecodeMessage} {text : List Char}
    {bundle : Analytics.InvestigationBundle}
    (h : parseInvestigationBundleJson message text = .ok bundle) : CheckedBundle bundle := by
  obtain ⟨-, hvalid, -⟩ := parse_ok h
  simp only [validateConsistency, except_bind_iff, validation_guard_iff,
    validateSessions_iff [] List.nodup_nil, validateSummaries_iff, validateReplay_iff] at hvalid
  obtain ⟨-, ⟨hsessions, -⟩, head, hevidence, -, -, ⟨haccepted, hrejected, -⟩, hsummaries⟩ := hvalid
  exact ⟨hsessions, attributed_of_validateEvidence hevidence, haccepted, hrejected, hsummaries⟩

/-! ## Names in order -/

/-- The code units of a code point. -/
def unitsOfPoint (point : ℕ) : Str :=
  if point < 0x10000 then [UInt16.ofNat point]
  else [UInt16.ofNat (0xd800 + (point - 0x10000) / 0x400),
    UInt16.ofNat (0xdc00 + (point - 0x10000) % 0x400)]

/-- INTERNAL: a code unit is a code point of its own. -/
theorem unitsOfPoint_unit (unit : UInt16) : unitsOfPoint unit.toNat = [unit] := by
  rw [unitsOfPoint, if_pos unit.toNat_lt, UInt16.ofNat_toNat]

/-- INTERNAL: a pair of surrogates is one code point. -/
theorem unitsOfPoint_pair {high low : UInt16}
    (h : 0xd800 ≤ high ∧ high < 0xdc00 ∧ 0xdc00 ≤ low ∧ low < 0xe000) :
    unitsOfPoint (0x10000 + (high.toNat - 0xd800) * 0x400 + (low.toNat - 0xdc00)) =
      [high, low] := by
  obtain ⟨h1, h2, h3, h4⟩ := h
  rw [UInt16.le_iff_toNat_le] at h1 h3
  rw [UInt16.lt_iff_toNat_lt] at h2 h4
  have b1 : 0xd800 ≤ high.toNat := h1
  have b2 : high.toNat < 0xdc00 := h2
  have b3 : 0xdc00 ≤ low.toNat := h3
  have b4 : low.toNat < 0xe000 := h4
  have hhigh : 0xd800 + (0x10000 + (high.toNat - 0xd800) * 0x400 + (low.toNat - 0xdc00) -
      0x10000) / 0x400 = high.toNat := by omega
  have hlow : 0xdc00 + (0x10000 + (high.toNat - 0xd800) * 0x400 + (low.toNat - 0xdc00) -
      0x10000) % 0x400 = low.toNat := by omega
  rw [unitsOfPoint, if_neg (by omega), hhigh, hlow, UInt16.ofNat_toNat, UInt16.ofNat_toNat]

/-- INTERNAL: a string is read back from its code points. -/
theorem flatMap_codePoints (text : Str) : (codePoints text).flatMap unitsOfPoint = text := by
  fun_induction codePoints text with
  | case1 => rfl
  | case2 unit => simp [unitsOfPoint_unit]
  | case3 high low rest hpair ih => rw [List.flatMap_cons, unitsOfPoint_pair hpair, ih]; rfl
  | case4 high low rest hpair ih => rw [List.flatMap_cons, unitsOfPoint_unit, ih]; rfl

/-- **Strings of the same code points are the same**, so that sorting names by them is total. -/
theorem codePoints_injective : Function.Injective codePoints := by
  intro left right h
  rw [← flatMap_codePoints left, h, flatMap_codePoints]

/-! ## Counting records -/

/-- The outcomes of several groups together. -/
def totalOutcomes (outcomes : List OutcomeStatistics) : OutcomeStatistics where
  accepted := (outcomes.map (·.accepted)).sum
  rejected := (outcomes.map (·.rejected)).sum

/-- INTERNAL: the order of the groups does not matter. -/
theorem totalOutcomes_perm {left right : List OutcomeStatistics} (h : left.Perm right) :
    totalOutcomes left = totalOutcomes right := by
  unfold totalOutcomes
  rw [(h.map _).sum_eq, (h.map _).sum_eq]

/-- **A grouping conserves the outcomes.** -/
theorem totalOutcomes_groups {κ : Type} [DecidableEq κ] {key : InvestigationEvidenceRecord → κ}
    {keys : List κ} (hkeys : keys.Nodup) {records : List InvestigationEvidenceRecord}
    (hcover : ∀ record ∈ records, key record ∈ keys) :
    totalOutcomes (keys.map fun k => outcomesOf (records.filter (key · = k))) =
      outcomesOf records := by
  unfold totalOutcomes outcomesOf
  rw [List.map_map, List.map_map]
  exact congrArg₂ OutcomeStatistics.mk (sum_countP hkeys hcover _) (sum_countP hkeys hcover _)

/-- INTERNAL: the outcomes count every record. -/
theorem outcomesOf_total {records : List InvestigationEvidenceRecord}
    (h : ∀ record ∈ records, record.isRejected = !record.isAccepted) :
    (outcomesOf records).total = records.length := by
  rw [OutcomeStatistics.total, outcomesOf, List.length_eq_countP_add_countP (·.isAccepted)]
  refine congrArg _ (List.countP_congr fun record hrecord => ?_)
  rw [h record hrecord]
  cases record.isAccepted <;> simp

/-! ## Conservation -/

/-- Each of the wanted names exactly once. -/
structure ExactlyOnce {α : Type} (names : List α) (wanted : α → Prop) : Prop where
  nodup : names.Nodup
  mem : ∀ name, name ∈ names ↔ wanted name

/-- The greater count is before the smaller one, and of equal counts the lesser name. -/
def Precedes (count : ℕ) (name : Str) (otherCount : ℕ) (otherName : Str) : Prop :=
  otherCount < count ∨ count = otherCount ∧ codePoints name < codePoints otherName

/-- The statistics of a session repeat its fields. -/
structure Repeats (item : SessionStatistics) (session : Analytics.InvestigationSession) : Prop where
  key : item.key = session.key
  outcomes : item.outcomes = ⟨session.acceptedCommands, session.rejectedCommands⟩
  first : item.firstTargetTick = session.firstTargetTick
  last : item.lastTargetTick = session.lastTargetTick

/-- How many records are of a tick. -/
def recordsAt (evidence : List InvestigationEvidenceRecord) (tick : ℕ) : ℕ :=
  evidence.countP (·.targetTick = tick)

/-- What the statistics of a bundle conserve of it. -/
structure Conserves (bundle : Analytics.InvestigationBundle) (statistics : InvestigationStatistics) :
    Prop where
  replay : statistics.outcomes =
    ⟨bundle.replay.acceptedCommands, bundle.replay.rejectedCommands⟩
  sessionTotal : totalOutcomes (statistics.sessions.map (·.outcomes)) = statistics.outcomes
  commandTypeTotal : totalOutcomes (statistics.commandTypes.map (·.outcomes)) = statistics.outcomes
  tickTotal : totalOutcomes (statistics.ticks.map (·.outcomes)) = statistics.outcomes
  rejectionTotal : (statistics.rejectionCodes.map (·.count)).sum = statistics.outcomes.rejected
  sessionKeys : ExactlyOnce (statistics.sessions.map (·.key)) (· ∈ bundle.sessions.map (·.key))
  sessions : ∀ item ∈ statistics.sessions, ∃ session ∈ bundle.sessions, Repeats item session
  commandTypes : ExactlyOnce (statistics.commandTypes.map (·.commandType)) fun commandType =>
    ∃ record ∈ bundle.evidence, record.commandType = commandType
  rejectionCodes : ExactlyOnce (statistics.rejectionCodes.map (·.rejectionCode)) fun code =>
    ∃ record ∈ bundle.evidence, record.isRejected = true ∧ record.rejectionCode = code
  ticks : ExactlyOnce (statistics.ticks.map (·.targetTick)) fun tick =>
    ∃ record ∈ bundle.evidence, record.targetTick = tick
  sessionOrder : statistics.sessions.Pairwise fun left right => toLex left.key < toLex right.key
  commandTypeOrder : statistics.commandTypes.Pairwise fun left right =>
    Precedes left.outcomes.total left.commandType right.outcomes.total right.commandType
  rejectionCodeOrder : statistics.rejectionCodes.Pairwise fun left right =>
    Precedes left.count left.rejectionCode right.count right.rejectionCode
  tickOrder : (statistics.ticks.map (·.targetTick)).Pairwise (· < ·)
  busiest : ExactlyOnce statistics.busiestTicks fun tick =>
    (∃ record ∈ bundle.evidence, record.targetTick = tick) ∧
      ∀ other, recordsAt bundle.evidence other ≤ recordsAt bundle.evidence tick
  first : ∀ tick, statistics.firstTargetTick = some tick ↔
    IsLeast {t | ∃ record ∈ bundle.evidence, record.targetTick = t} tick
  last : ∀ tick, statistics.lastTargetTick = some tick ↔
    IsGreatest {t | ∃ record ∈ bundle.evidence, record.targetTick = t} tick

variable {bundle : Analytics.InvestigationBundle}

/-! ### Sessions -/

/-- The sessions in the order of the statistics. -/
def orderedSessions (bundle : Analytics.InvestigationBundle) :
    List Analytics.InvestigationSession :=
  sortOn (fun item : Analytics.InvestigationSession => toLex item.key) bundle.sessions

/-- INTERNAL: the statistics of the sessions. -/
theorem sessions_eq (bundle : Analytics.InvestigationBundle) :
    (analyzeInvestigation bundle).sessions = (orderedSessions bundle).map fun session =>
      sessionStatistics (bundle.evidence.filter (·.key = session.key)) session := by
  refine List.map_congr_left fun session _ => ?_
  rw [(grouped_group (·.key) bundle.evidence).groupOf_eq]

/-- INTERNAL: the keys of the sessions. -/
theorem sessionKeys_eq (bundle : Analytics.InvestigationBundle) :
    (analyzeInvestigation bundle).sessions.map (·.key) = (orderedSessions bundle).map (·.key) := by
  rw [sessions_eq, List.map_map]
  rfl

/-- INTERNAL: the statistics describe the bundle's sessions. -/
theorem sessionKeys_perm (bundle : Analytics.InvestigationBundle) :
    ((analyzeInvestigation bundle).sessions.map (·.key)).Perm (bundle.sessions.map (·.key)) := by
  rw [sessionKeys_eq]
  exact (sortOn_perm _ _).map _

/-- INTERNAL: each of its statistics repeats its session. -/
theorem repeats_session (h : CheckedBundle bundle) {item : SessionStatistics}
    (hitem : item ∈ (analyzeInvestigation bundle).sessions) :
    ∃ session ∈ bundle.sessions, Repeats item session := by
  rw [sessions_eq] at hitem
  obtain ⟨session, hsession, rfl⟩ := List.mem_map.mp hitem
  have hmem : session ∈ bundle.sessions := mem_sortOn.mp hsession
  obtain ⟨haccepted, hrejected, -, -, -⟩ := h.summaries session hmem
  refine ⟨session, hmem, rfl, ?_, rfl, rfl⟩
  rw [haccepted, hrejected]
  rfl

/-- INTERNAL: the sessions ascend. -/
theorem sessions_pairwise (h : CheckedBundle bundle) :
    (analyzeInvestigation bundle).sessions.Pairwise
      fun left right => toLex left.key < toLex right.key := by
  have hkeys : (bundle.sessions.map fun item => toLex item.key).Nodup := by
    have hmap := h.sessions.map toLex.injective
    rwa [List.map_map] at hmap
  rw [sessions_eq, List.pairwise_map]
  exact sortOn_pairwise_lt hkeys

/-- INTERNAL: the sessions count every record. -/
theorem sessions_total (h : CheckedBundle bundle) :
    totalOutcomes ((analyzeInvestigation bundle).sessions.map (·.outcomes)) =
      outcomesOf bundle.evidence := by
  have hperm := sortOn_perm (fun item : Analytics.InvestigationSession => toLex item.key)
    bundle.sessions
  have hgroups := totalOutcomes_groups h.sessions fun record hrecord =>
    (h.records record hrecord).session
  rw [← hgroups, sessions_eq, List.map_map, List.map_map]
  exact totalOutcomes_perm (hperm.map _)

/-! ### Command types and rejection codes -/

/-- INTERNAL: items ranked by a count and a name are in their order. -/
theorem pairwise_precedes {α : Type} {count : α → ℕ} {name : α → Str} {items : List α}
    (hnames : (items.map name).Nodup) :
    (sortOn (fun item => toLex (-(count item : ℤ), codePoints (name item))) items).Pairwise
      fun left right => Precedes (count left) (name left) (count right) (name right) := by
  have hkeys : (items.map fun item => toLex (-(count item : ℤ), codePoints (name item))).Nodup := by
    rw [List.nodup_iff_pairwise_ne, List.pairwise_map] at hnames ⊢
    refine hnames.imp fun hne heq => hne (codePoints_injective ?_)
    exact (Prod.mk.inj (toLex.injective heq)).2
  refine (sortOn_pairwise_lt hkeys).imp fun hlt => ?_
  rcases Prod.Lex.toLex_lt_toLex.mp hlt with hcount | ⟨hcount, hname⟩
  · exact .inl (by omega)
  · exact .inr ⟨by omega, hname⟩

/-- INTERNAL: the groups of the records as items with names. -/
theorem exactlyOnce_groups {α : Type} {key : InvestigationEvidenceRecord → Str}
    {records : List InvestigationEvidenceRecord}
    (make : Str → List InvestigationEvidenceRecord → α) {name : α → Str}
    (hname : ∀ k items, name (make k items) = k) {items : List α}
    (hitems : items.Perm ((group key records).map fun entry => make entry.1 entry.2)) :
    ExactlyOnce (items.map name) fun k => ∃ record ∈ records, key record = k := by
  have hgroups := grouped_group key records
  have hmap : ((group key records).map fun entry => make entry.1 entry.2).map name =
      (group key records).map Prod.fst := by
    rw [List.map_map]
    exact List.map_congr_left fun entry _ => hname _ _
  have hperm := hitems.map name
  rw [hmap] at hperm
  exact ⟨hperm.nodup_iff.mpr hgroups.nodup, fun k => hperm.mem_iff.trans (hgroups.mem k)⟩

/-- INTERNAL: the statistics of the command types, in some order. -/
theorem commandTypes_perm (bundle : Analytics.InvestigationBundle) :
    (analyzeInvestigation bundle).commandTypes.Perm ((group (·.commandType) bundle.evidence).map
      fun entry => commandTypeStatistics entry.1 entry.2) :=
  sortOn_perm _ _

/-- INTERNAL: the statistics of the rejection codes, in some order. -/
theorem rejectionCodes_perm (bundle : Analytics.InvestigationBundle) :
    (analyzeInvestigation bundle).rejectionCodes.Perm
      ((group (·.rejectionCode) (bundle.evidence.filter (·.isRejected))).map
        fun entry => rejectionCodeStatistics entry.1 entry.2) :=
  sortOn_perm _ _

/-- INTERNAL: the command types are those of the records. -/
theorem commandTypes_exactlyOnce (bundle : Analytics.InvestigationBundle) :
    ExactlyOnce ((analyzeInvestigation bundle).commandTypes.map (·.commandType))
      fun commandType => ∃ record ∈ bundle.evidence, record.commandType = commandType :=
  exactlyOnce_groups commandTypeStatistics (fun _ _ => rfl) (commandTypes_perm bundle)

/-- INTERNAL: the rejection codes are those of the rejected records. -/
theorem rejectionCodes_exactlyOnce (bundle : Analytics.InvestigationBundle) :
    ExactlyOnce ((analyzeInvestigation bundle).rejectionCodes.map (·.rejectionCode))
      fun code => ∃ record ∈ bundle.evidence, record.isRejected = true ∧
        record.rejectionCode = code := by
  have h : ExactlyOnce ((analyzeInvestigation bundle).rejectionCodes.map (·.rejectionCode)) _ :=
    exactlyOnce_groups rejectionCodeStatistics (fun _ _ => rfl) (rejectionCodes_perm bundle)
  refine ⟨h.nodup, fun code => (h.mem code).trans ?_⟩
  simp only [List.mem_filter, and_assoc]

/-- INTERNAL: the command types count every record. -/
theorem commandTypes_total (bundle : Analytics.InvestigationBundle) :
    totalOutcomes ((analyzeInvestigation bundle).commandTypes.map (·.outcomes)) =
      outcomesOf bundle.evidence := by
  have hgroups := grouped_group (·.commandType) bundle.evidence
  have hcover : ∀ record ∈ bundle.evidence, record.commandType ∈
      (group (·.commandType) bundle.evidence).map Prod.fst := fun record hrecord =>
    (hgroups.mem _).mpr ⟨record, hrecord, rfl⟩
  rw [totalOutcomes_perm ((commandTypes_perm bundle).map _), ← totalOutcomes_groups hgroups.nodup
    hcover, List.map_map, List.map_map]
  refine congrArg _ (List.map_congr_left fun entry hentry => ?_)
  exact congrArg outcomesOf (hgroups.group entry hentry)

/-- INTERNAL: the rejection codes count every rejected record. -/
theorem rejectionCodes_total (bundle : Analytics.InvestigationBundle) :
    ((analyzeInvestigation bundle).rejectionCodes.map (·.count)).sum =
      bundle.evidence.countP (·.isRejected) := by
  have hgroups := grouped_group (·.rejectionCode) (bundle.evidence.filter (·.isRejected))
  have hcover : ∀ record ∈ bundle.evidence.filter (·.isRejected), record.rejectionCode ∈
      (group (·.rejectionCode) (bundle.evidence.filter (·.isRejected))).map Prod.fst :=
    fun record hrecord => (hgroups.mem _).mpr ⟨record, hrecord, rfl⟩
  rw [((rejectionCodes_perm bundle).map _).sum_eq, List.countP_eq_length_filter,
    ← List.countP_true, ← sum_countP hgroups.nodup hcover, List.map_map, List.map_map]
  refine congrArg _ (List.map_congr_left fun entry hentry => ?_)
  show entry.2.length = _
  rw [hgroups.group entry hentry, Function.comp_apply, List.countP_true]

/-! ### Ticks -/

/-- INTERNAL: the ticks of the statistics. -/
theorem targetTicks_eq (bundle : Analytics.InvestigationBundle) :
    (analyzeInvestigation bundle).ticks.map (·.targetTick) =
      sortOn id ((group (·.targetTick) bundle.evidence).map Prod.fst) := by
  show ((sortOn id _).map _).map _ = _
  rw [List.map_map]
  exact List.map_id _

/-- INTERNAL: the ticks ascend. -/
theorem targetTicks_pairwise (bundle : Analytics.InvestigationBundle) :
    ((analyzeInvestigation bundle).ticks.map (·.targetTick)).Pairwise (· < ·) := by
  have hnodup := (grouped_group (·.targetTick) bundle.evidence).nodup
  rw [targetTicks_eq]
  exact sortOn_pairwise_lt (by rwa [List.map_id'])

/-- INTERNAL: the ticks are those of the records. -/
theorem mem_targetTicks {tick : ℕ} :
    tick ∈ (analyzeInvestigation bundle).ticks.map (·.targetTick) ↔
      ∃ record ∈ bundle.evidence, record.targetTick = tick := by
  rw [targetTicks_eq, mem_sortOn]
  exact (grouped_group (·.targetTick) bundle.evidence).mem tick

/-- INTERNAL: the outcomes of a tick. -/
theorem tick_outcomes {item : TickStatistics}
    (hitem : item ∈ (analyzeInvestigation bundle).ticks) :
    item.outcomes = outcomesOf (bundle.evidence.filter (·.targetTick = item.targetTick)) := by
  obtain ⟨tick, -, rfl⟩ := List.mem_map.mp hitem
  exact congrArg outcomesOf ((grouped_group (·.targetTick) bundle.evidence).groupOf_eq tick)

/-- INTERNAL: the ticks count every record. -/
theorem ticks_total (bundle : Analytics.InvestigationBundle) :
    totalOutcomes ((analyzeInvestigation bundle).ticks.map (·.outcomes)) =
      outcomesOf bundle.evidence := by
  have hcover : ∀ record ∈ bundle.evidence, record.targetTick ∈
      (analyzeInvestigation bundle).ticks.map (·.targetTick) := fun record hrecord =>
    mem_targetTicks.mpr ⟨record, hrecord, rfl⟩
  rw [← totalOutcomes_groups ((targetTicks_pairwise bundle).imp ne_of_lt) hcover, List.map_map]
  exact congrArg _ (List.map_congr_left fun item hitem => tick_outcomes hitem)

/-- INTERNAL: how many records a tick of the statistics has. -/
theorem tick_total (h : CheckedBundle bundle) {item : TickStatistics}
    (hitem : item ∈ (analyzeInvestigation bundle).ticks) :
    item.outcomes.total = recordsAt bundle.evidence item.targetTick := by
  rw [tick_outcomes hitem, outcomesOf_total fun record hrecord =>
    (h.records record (List.mem_of_mem_filter hrecord)).outcome, recordsAt,
    List.countP_eq_length_filter]

/-- INTERNAL: a tick without records has none. -/
theorem recordsAt_eq_zero {evidence : List InvestigationEvidenceRecord} {tick : ℕ}
    (h : ¬ ∃ record ∈ evidence, record.targetTick = tick) : recordsAt evidence tick = 0 := by
  rw [recordsAt, List.countP_eq_zero]
  exact fun record hrecord htick => h ⟨record, hrecord, of_decide_eq_true htick⟩

/-- INTERNAL: the busiest ticks. -/
theorem busiestTicks_exactlyOnce (h : CheckedBundle bundle) :
    ExactlyOnce (analyzeInvestigation bundle).busiestTicks fun tick =>
      (∃ record ∈ bundle.evidence, record.targetTick = tick) ∧
        ∀ other, recordsAt bundle.evidence other ≤ recordsAt bundle.evidence tick := by
  have hticks : (analyzeInvestigation bundle).busiestTicks =
      ((analyzeInvestigation bundle).ticks.filter fun item => item.outcomes.total =
        ((analyzeInvestigation bundle).ticks.map (·.outcomes.total)).max?.getD 0).map
          (·.targetTick) := rfl
  constructor
  · rw [hticks]
    have hsub := (List.filter_sublist (p := fun item : TickStatistics => item.outcomes.total =
      ((analyzeInvestigation bundle).ticks.map (·.outcomes.total)).max?.getD 0)
      (l := (analyzeInvestigation bundle).ticks)).map (·.targetTick)
    exact hsub.nodup ((targetTicks_pairwise bundle).imp ne_of_lt)
  · intro tick
    -- a tick of the statistics is one of the busiest when no other has more records
    have hbusy : ∀ item ∈ (analyzeInvestigation bundle).ticks, item.outcomes.total =
        ((analyzeInvestigation bundle).ticks.map (·.outcomes.total)).max?.getD 0 ↔
          ∀ other, recordsAt bundle.evidence other ≤ recordsAt bundle.evidence item.targetTick := by
      intro item hitem
      have htotal : item.outcomes.total ∈
          (analyzeInvestigation bundle).ticks.map (·.outcomes.total) :=
        List.mem_map.mpr ⟨item, hitem, rfl⟩
      rw [eq_max_iff htotal, List.forall_mem_map, tick_total h hitem]
      constructor
      · intro hall other
        by_cases hrecord : ∃ record ∈ bundle.evidence, record.targetTick = other
        · obtain ⟨found, hfound, rfl⟩ := List.mem_map.mp (mem_targetTicks.mpr hrecord)
          rw [← tick_total h hfound]
          exact hall found hfound
        · rw [recordsAt_eq_zero hrecord]
          exact Nat.zero_le _
      · intro hall other hother
        rw [tick_total h hother]
        exact hall _
    rw [hticks, List.mem_map]
    constructor
    · rintro ⟨item, hitem, rfl⟩
      obtain ⟨hmem, htotal⟩ := List.mem_filter.mp hitem
      exact ⟨mem_targetTicks.mp (List.mem_map.mpr ⟨item, hmem, rfl⟩),
        (hbusy item hmem).mp (of_decide_eq_true htotal)⟩
    · rintro ⟨hrecord, hall⟩
      obtain ⟨item, hmem, rfl⟩ := List.mem_map.mp (mem_targetTicks.mpr hrecord)
      exact ⟨item, List.mem_filter.mpr ⟨hmem, decide_eq_true ((hbusy item hmem).mpr hall)⟩, rfl⟩

/-- INTERNAL: the first target tick. -/
theorem firstTargetTick_iff {tick : ℕ} :
    (analyzeInvestigation bundle).firstTargetTick = some tick ↔
      IsLeast {t | ∃ record ∈ bundle.evidence, record.targetTick = t} tick := by
  show (analyzeInvestigation bundle).ticks.head?.map (·.targetTick) = some tick ↔ _
  rw [← List.head?_map, head?_eq_some_iff ((targetTicks_pairwise bundle).imp le_of_lt)]
  simp only [mem_targetTicks]

/-- INTERNAL: the last target tick. -/
theorem lastTargetTick_iff {tick : ℕ} :
    (analyzeInvestigation bundle).lastTargetTick = some tick ↔
      IsGreatest {t | ∃ record ∈ bundle.evidence, record.targetTick = t} tick := by
  show (analyzeInvestigation bundle).ticks.getLast?.map (·.targetTick) = some tick ↔ _
  rw [← List.getLast?_map, getLast?_eq_some_iff ((targetTicks_pairwise bundle).imp le_of_lt)]
  simp only [mem_targetTicks]

/-- **The statistics conserve the evidence** of every bundle that the parser returns.
SRC: analytics.py:126-338, investigation_bundle.py:400-586 -/
theorem analyze_conserves {message : DecodeMessage} {text : List Char}
    (h : parseInvestigationBundleJson message text = .ok bundle) :
    Conserves bundle (analyzeInvestigation bundle) := by
  have hchecked := CheckedBundle.of_parse h
  have houtcomes : (analyzeInvestigation bundle).outcomes = outcomesOf bundle.evidence := rfl
  have hsessions := sessionKeys_perm bundle
  constructor
  case replay => rw [houtcomes, outcomesOf, hchecked.accepted, hchecked.rejected]
  case sessionTotal => exact sessions_total hchecked
  case commandTypeTotal => exact commandTypes_total bundle
  case tickTotal => exact ticks_total bundle
  case rejectionTotal => exact rejectionCodes_total bundle
  case sessionKeys => exact ⟨hsessions.nodup_iff.mpr hchecked.sessions, fun _ => hsessions.mem_iff⟩
  case sessions => exact fun item hitem => repeats_session hchecked hitem
  case commandTypes => exact commandTypes_exactlyOnce bundle
  case rejectionCodes => exact rejectionCodes_exactlyOnce bundle
  case ticks => exact ⟨(targetTicks_pairwise bundle).imp ne_of_lt, fun _ => mem_targetTicks⟩
  case sessionOrder => exact sessions_pairwise hchecked
  case commandTypeOrder =>
    have hnames := (commandTypes_exactlyOnce bundle).nodup
    exact pairwise_precedes (((commandTypes_perm bundle).map _).nodup_iff.mp hnames)
  case rejectionCodeOrder =>
    have hnames := (rejectionCodes_exactlyOnce bundle).nodup
    exact pairwise_precedes (((rejectionCodes_perm bundle).map _).nodup_iff.mp hnames)
  case tickOrder => exact targetTicks_pairwise bundle
  case busiest => exact busiestTicks_exactlyOnce hchecked
  case first => exact fun _ => firstTargetTick_iff
  case last => exact fun _ => lastTargetTick_iff

/-- The statistics of a document with one record. -/
theorem analyze_conserves_sample :
    Conserves (analysedSample (str "set_velocity"))
      (analyzeInvestigation (analysedSample (str "set_velocity"))) := by
  have hparsed : parseInvestigationBundleJson (fun _ => [])
      (sampleDocument "set_velocity".toList) = .ok (analysedSample (str "set_velocity")) := by
    decide +kernel
  exact analyze_conserves hparsed

end Tickline.Analysis
