import Tickline.Analysis.BundleValidation
import Mathlib.Data.List.Forall2
import Mathlib.Data.List.TakeWhile

/-!
# When a validated bundle loads

The builder parses the identifiers of the sessions and enters them into a dictionary under
their values; the validator has only compared their texts.  So the builder of a bundle
without issues returns exactly when every identifier is a number and no two sessions have
the same pair of numbers (`SessionsLoadable`); otherwise it throws, and the exception leaves
the viewer session's load unfinished and uncaught.

`loads_reliably_iff` states this with everything a load promises, and
`loads_reliably_fails` is a bundle whose two sessions `7` and `07` it refuses that way.
-/

set_option autoImplicit false

namespace Tickline.Analysis

open Tickline.Model Tickline.Model.Forensics

/-! ## Identifiers -/

/-- The pair of numbers that a session's identifiers spell. -/
def sessionKey? (session : InvestigationSession) : Option InvestigationSessionKey :=
  match parseUnsigned session.clientId, parseUnsigned session.sessionId with
  | .ok clientId, .ok sessionId => some { clientId, sessionId }
  | _, _ => none

/-- The sessions have numeric identifiers, and no two of them the same. -/
structure SessionsLoadable (sessions : List (Option InvestigationSession)) : Prop where
  numeric : ∀ session, some session ∈ sessions → (sessionKey? session).isSome = true
  distinct : (sessions.filterMap fun entry => entry.bind sessionKey?).Nodup

/-- INTERNAL: a session has a key exactly when both its identifiers parse. -/
theorem sessionKey?_eq_some {session : InvestigationSession} {key : InvestigationSessionKey} :
    sessionKey? session = some key ↔
      parseUnsigned session.clientId = .ok key.clientId ∧
        parseUnsigned session.sessionId = .ok key.sessionId := by
  unfold sessionKey?
  obtain ⟨clientId, sessionId⟩ := key
  cases parseUnsigned session.clientId <;> cases parseUnsigned session.sessionId <;> simp

/-- INTERNAL: a number's text has no line break in it. -/
theorem newline_not_mem {text : NetString} {n : UInt64} (h : parseDigits text = .ok n) :
    (10 : UInt16) ∉ text := by
  unfold parseDigits at h
  by_cases hform : ((text.takeWhile isDigit).isEmpty ||
      (text.dropWhile isDigit).any (· ≠ 0)) = true
  · rw [if_pos hform] at h
    cases h
  · intro hmem
    rw [← List.takeWhile_append_dropWhile (p := isDigit) (l := text), List.mem_append] at hmem
    rcases hmem with hdigit | hrest
    · have := List.mem_takeWhile_imp hdigit
      revert this
      decide
    · apply hform
      rw [Bool.or_eq_true]
      exact Or.inr (List.any_eq_true.mpr ⟨10, hrest, by decide⟩)

/-- INTERNAL: a separator that occurs in neither part separates. -/
theorem split_at_separator {α : Type} {x : α} {a b c d : List α} (hc : x ∉ c) (hd : x ∉ d)
    (h : a ++ x :: b = c ++ x :: d) : a = c ∧ b = d := by
  induction c generalizing a with
  | nil =>
    cases a with
    | nil => exact ⟨rfl, (List.cons.inj h).2⟩
    | cons y a =>
      obtain ⟨rfl, hrest⟩ := List.cons.inj h
      exact absurd (hrest ▸ List.mem_append_right a (List.mem_cons_self ..)) hd
  | cons y c ih =>
    cases a with
    | nil =>
      obtain ⟨rfl, -⟩ := List.cons.inj h
      exact absurd (List.mem_cons_self ..) hc
    | cons z a =>
      obtain ⟨rfl, hrest⟩ := List.cons.inj h
      obtain ⟨rfl, rfl⟩ := ih (fun hmem => hc (List.mem_cons_of_mem _ hmem)) hrest
      exact ⟨rfl, rfl⟩

/-- INTERNAL: a record that has the identity text of a session with numeric identifiers has
that session's identifiers. -/
theorem ids_eq_of_identity {clientId sessionId : Option NetString} {session : InvestigationSession}
    (hclient : ∃ text, clientId = some text) (hsession : ∃ text, sessionId = some text)
    {key : InvestigationSessionKey} (hkey : sessionKey? session = some key)
    (h : identity clientId sessionId = identity session.clientId session.sessionId) :
    clientId = session.clientId ∧ sessionId = session.sessionId := by
  obtain ⟨c, rfl⟩ := hclient
  obtain ⟨d, rfl⟩ := hsession
  obtain ⟨hc, hd⟩ := sessionKey?_eq_some.mp hkey
  cases hclient : session.clientId with
  | none =>
    rw [hclient] at hc
    cases hc
  | some c' =>
    cases hsession : session.sessionId with
    | none =>
      rw [hsession] at hd
      cases hd
    | some d' =>
      rw [hclient] at hc
      rw [hsession] at hd
      simp only [identity, concatenated, hclient, hsession, Option.getD_some, List.append_assoc,
        List.singleton_append] at h
      obtain ⟨rfl, rfl⟩ := split_at_separator (newline_not_mem hc) (newline_not_mem hd) h
      exact ⟨rfl, rfl⟩

/-! ## The sessions -/

/-- INTERNAL: which sessions can be inspected. -/
theorem make_session_iff {entry : Option InvestigationSession}
    (hvalid : ∃ session, entry = some session ∧ ValidSession session) :
    (∃ inspection, InvestigationSessionInspection.make entry = .ok inspection) ↔
      (entry.bind sessionKey?).isSome = true := by
  obtain ⟨session, rfl, -, -, ⟨last, hlast⟩, ⟨first, hfirst⟩, ⟨lastTick, hlastTick⟩⟩ := hvalid
  simp only [InvestigationSessionInspection.make, Option.bind_some, sessionKey?, hlast, hfirst,
    hlastTick]
  cases parseUnsigned session.clientId <;> cases parseUnsigned session.sessionId <;>
    simp [bind, Except.bind, pure, Except.pure]

/-- INTERNAL: an inspection has the key of its session. -/
theorem key_of_make {session : InvestigationSession} {inspection : InvestigationSessionInspection}
    (h : InvestigationSessionInspection.make (some session) = .ok inspection) :
    sessionKey? session = some inspection.key := by
  unfold InvestigationSessionInspection.make at h
  simp only [except_bind_iff] at h
  obtain ⟨clientId, hclient, sessionId, hsession, last, -, first, -, lastTick, -, hresult⟩ := h
  cases hresult
  exact sessionKey?_eq_some.mpr ⟨hclient, hsession⟩

/-- The dictionary of some inspections, latest first. -/
def mapOf (inspections : List InvestigationSessionInspection) : SessionMap :=
  (inspections.map fun inspection => (inspection.key, inspection)).reverse

/-- **What the loop over the sessions needs and leaves.**
SRC: InvestigationWorkspace.cs:623-635 -/
theorem inspectSessions_iff {entries : List (Option InvestigationSession)} :
    ∀ (before : List InvestigationSessionInspection) {result}, (before.map (·.key)).Nodup →
      (inspectSessions entries before (mapOf before) = .ok result ↔
        ∃ inspections, List.Forall₂ (fun entry inspection =>
            InvestigationSessionInspection.make entry = .ok inspection) entries inspections ∧
          ((before ++ inspections).map (·.key)).Nodup ∧
          result = (before ++ inspections, mapOf (before ++ inspections))) := by
  induction entries with
  | nil =>
    intro before result hbefore
    simp only [inspectSessions, pure, Except.pure, Except.ok.injEq, List.forall₂_nil_left_iff,
      exists_eq_left, List.append_nil, hbefore, true_and]
    exact eq_comm
  | cons entry entries ih =>
    intro before result hbefore
    simp only [inspectSessions, except_bind_iff]
    constructor
    · rintro ⟨inspection, hmake, map, hadd, hrest⟩
      unfold SessionMap.add at hadd
      split_ifs at hadd with hfound
      cases hadd
      have hnew : inspection.key ∉ before.map (·.key) := by
        intro hmem
        obtain ⟨old, hold, hkey⟩ := List.mem_map.mp hmem
        apply hfound
        refine List.any_eq_true.mpr ⟨(old.key, old), ?_, by simpa using hkey⟩
        exact List.mem_reverse.mpr (List.mem_map.mpr ⟨old, hold, rfl⟩)
      have hnodup : ((before ++ [inspection]).map (·.key)).Nodup := by
        rw [List.map_append, List.map_singleton]
        exact List.nodup_append.mpr ⟨hbefore, List.nodup_singleton _, by
          intro a ha b hb hab
          obtain rfl := List.mem_singleton.mp hb
          exact hnew (hab ▸ ha)⟩
      have hmap : mapOf (before ++ [inspection]) = (inspection.key, inspection) :: mapOf before := by
        simp [mapOf]
      rw [← hmap] at hrest
      obtain ⟨inspections, hinspections, hkeys, rfl⟩ := (ih _ hnodup).mp hrest
      refine ⟨inspection :: inspections, .cons hmake hinspections, ?_, ?_⟩
      · simpa using hkeys
      · simp
    · rintro ⟨inspections, hinspections, hkeys, rfl⟩
      cases hinspections with
      | cons hmake hrest =>
        rename_i inspection inspections
        have hsplit : before ++ inspection :: inspections =
            (before ++ [inspection]) ++ inspections := by simp
        rw [hsplit] at hkeys ⊢
        have hnodup : ((before ++ [inspection]).map (·.key)).Nodup := by
          rw [List.map_append] at hkeys
          exact (List.nodup_append.mp hkeys).1
        have hnew : inspection.key ∉ before.map (·.key) := by
          rw [List.map_append] at hnodup
          intro hmem
          exact (List.nodup_append.mp hnodup).2.2 _ hmem _ (List.mem_singleton.mpr rfl) rfl
        have hmap : mapOf (before ++ [inspection]) =
            (inspection.key, inspection) :: mapOf before := by
          simp [mapOf]
        have hadd : SessionMap.add (mapOf before) inspection.key inspection =
            .ok (mapOf (before ++ [inspection])) := by
          rw [SessionMap.add, if_neg, hmap]
          intro hfound
          obtain ⟨⟨key, old⟩, hmem, hkey⟩ := List.any_eq_true.mp hfound
          obtain ⟨other, hother, heq⟩ := List.mem_map.mp (List.mem_reverse.mp hmem)
          cases heq
          exact hnew (List.mem_map.mpr ⟨old, hother, by simpa using hkey⟩)
        exact ⟨inspection, hmake, _, hadd,
          (ih _ hnodup).mpr ⟨inspections, hrest, hkeys, rfl⟩⟩

/-- INTERNAL: the keys of the inspections are those of the sessions. -/
theorem keys_of_inspections {entries : List (Option InvestigationSession)}
    {inspections : List InvestigationSessionInspection}
    (hvalid : ∀ entry ∈ entries, ∃ session, entry = some session ∧ ValidSession session)
    (h : List.Forall₂ (fun entry inspection =>
      InvestigationSessionInspection.make entry = .ok inspection) entries inspections) :
    entries.filterMap (fun entry => entry.bind sessionKey?) = inspections.map (·.key) := by
  induction h with
  | nil => rfl
  | cons hmake _ ih =>
    obtain ⟨session, rfl, -⟩ := hvalid _ (List.mem_cons_self ..)
    have hrest := ih fun entry hentry => hvalid entry (List.mem_cons_of_mem _ hentry)
    rw [List.filterMap_cons, Option.bind_some, key_of_make hmake, List.map_cons, hrest]

/-- INTERNAL: loadable sessions have inspections. -/
theorem exists_inspections {entries : List (Option InvestigationSession)}
    (hvalid : ∀ entry ∈ entries, ∃ session, entry = some session ∧ ValidSession session)
    (hnumeric : ∀ session, some session ∈ entries → (sessionKey? session).isSome = true) :
    ∃ inspections, List.Forall₂ (fun entry inspection =>
      InvestigationSessionInspection.make entry = .ok inspection) entries inspections := by
  induction entries with
  | nil => exact ⟨[], .nil⟩
  | cons entry entries ih =>
    obtain ⟨inspections, hinspections⟩ := ih
      (fun entry hentry => hvalid entry (List.mem_cons_of_mem _ hentry))
      (fun session hsession => hnumeric session (List.mem_cons_of_mem _ hsession))
    have hentry := hvalid entry (List.mem_cons_self ..)
    obtain ⟨session, rfl, -⟩ := id hentry
    obtain ⟨inspection, hmake⟩ :=
      (make_session_iff hentry).mpr (hnumeric session (List.mem_cons_self ..))
    exact ⟨inspection :: inspections, .cons hmake hinspections⟩

/-- **Which sessions of a validated bundle the builder accepts.** -/
theorem inspectSessions_ok_iff {entries : List (Option InvestigationSession)}
    (hvalid : ∀ entry ∈ entries, ∃ session, entry = some session ∧ ValidSession session) :
    (∃ result, inspectSessions entries [] [] = .ok result) ↔ SessionsLoadable entries := by
  have hiff := fun result => @inspectSessions_iff entries [] result List.nodup_nil
  simp only [List.nil_append] at hiff
  constructor
  · rintro ⟨result, hresult⟩
    obtain ⟨inspections, hinspections, hkeys, -⟩ := (hiff result).mp hresult
    refine ⟨?_, ?_⟩
    · intro session hsession
      have hentry := hvalid _ hsession
      obtain ⟨i, hi, hget⟩ := List.mem_iff_getElem.mp hsession
      have hmake := hinspections.get hi (hinspections.length_eq ▸ hi)
      rw [List.get_eq_getElem, hget] at hmake
      exact (make_session_iff hentry).mp ⟨_, hmake⟩
    · rw [keys_of_inspections hvalid hinspections]
      exact hkeys
  · rintro ⟨hnumeric, hdistinct⟩
    obtain ⟨inspections, hinspections⟩ := exists_inspections hvalid hnumeric
    rw [keys_of_inspections hvalid hinspections] at hdistinct
    exact ⟨_, (hiff _).mpr ⟨inspections, hinspections, hdistinct, rfl⟩⟩

/-- INTERNAL: the dictionary finds the inspection of a key. -/
theorem item_mapOf {inspections : List InvestigationSessionInspection}
    (hkeys : (inspections.map (·.key)).Nodup) {inspection : InvestigationSessionInspection}
    (hmem : inspection ∈ inspections) :
    SessionMap.item (mapOf inspections) inspection.key = .ok inspection := by
  obtain ⟨before, after, rfl⟩ := List.append_of_mem hmem
  have hlookup : (mapOf (before ++ inspection :: after)).lookup inspection.key =
      some inspection := by
    rw [List.lookup_eq_some_iff]
    refine ⟨(after.map fun other => (other.key, other)).reverse,
      (before.map fun other => (other.key, other)).reverse, by simp [mapOf], ?_⟩
    rintro ⟨key, other⟩ hother
    obtain ⟨other, hlater, heq⟩ := List.mem_map.mp (List.mem_reverse.mp hother)
    cases heq
    rw [List.map_append, List.map_cons] at hkeys
    have hnew := (List.nodup_cons.mp (List.nodup_append.mp hkeys).2.1).1
    simp only [bne_iff_ne, ne_eq]
    intro hkey
    exact hnew (List.mem_map.mpr ⟨_, hlater, hkey.symm⟩)
  rw [SessionMap.item, hlookup]

/-! ## The timeline -/

/-- INTERNAL: the timeline of a valid chain has an entry for each record. -/
theorem timelineEntriesFrom_of_chain {identities : List NetString}
    {records : List (Option InvestigationEvidenceRecord)} {index : ℕ} {head : Option NetString}
    (h : ValidChain identities index head records) :
    ∃ entries, timelineEntriesFrom index records = .ok entries ∧
      List.Forall₂ (fun place entry => ReplayTimelineEntry.make place.2 place.1 = .ok entry)
        (records.zipIdx index) entries := by
  induction h with
  | nil => exact ⟨[], rfl, .nil⟩
  | @cons index record rest hrecord hrest ih =>
    obtain ⟨entries, hentries, hmade⟩ := ih
    obtain ⟨sequence, hsequence⟩ := hrecord.sessionSequence
    obtain ⟨tick, htick⟩ := hrecord.targetTick
    have hmake : ∃ entry, ReplayTimelineEntry.make index (some record) = .ok entry := by
      simp [ReplayTimelineEntry.make, hsequence, htick, bind, Except.bind, pure, Except.pure]
    obtain ⟨entry, hmake⟩ := hmake
    refine ⟨entry :: entries, ?_, .cons hmake hmade⟩
    simp [timelineEntriesFrom, hmake, hentries, bind, Except.bind, pure, Except.pure]

/-- INTERNAL: what an entry shows of its record. -/
theorem entry_of_make {index : ℕ} {record : InvestigationEvidenceRecord}
    {entry : ReplayTimelineEntry}
    (h : ReplayTimelineEntry.make index (some record) = .ok entry) :
    entry.index = index ∧ entry.clientId = record.clientId ∧ entry.sessionId = record.sessionId ∧
      entry.previousDigest = record.previousDigest ∧ entry.recordDigest = record.recordDigest := by
  simp only [ReplayTimelineEntry.make, except_bind_iff] at h
  obtain ⟨sequence, -, tick, -, hresult⟩ := h
  cases hresult
  exact ⟨rfl, rfl, rfl, rfl, rfl⟩

/-! ## The evidence -/

/-- The head that the entries so far leave. -/
def headAfter (timeline : ReplayTimeline) (entries : List ReplayTimelineEntry) :
    Option NetString :=
  match entries.getLast? with
  | none => timeline.initialHeadDigest
  | some entry => entry.recordDigest

/-- INTERNAL: the inspection of the entry at its place. -/
theorem make_evidence {timeline : ReplayTimeline} {before rest : List ReplayTimelineEntry}
    {entry : ReplayTimelineEntry} (hentries : timeline.entries = before ++ entry :: rest)
    (hindex : entry.index = before.length) (session : InvestigationSessionInspection) :
    InvestigationEvidenceInspection.make timeline entry session = .ok {
      timelineEntry := entry
      session
      expectedPreviousDigest := headAfter timeline before
      previousDigestMatches := entry.previousDigest = headAfter timeline before
      isFinalEvidence := rest.isEmpty
      completesTrustedHead :=
        rest.isEmpty && decide (entry.recordDigest = timeline.trustedHeadDigest) } := by
  have hfinal : decide (entry.index + 1 = timeline.entries.length) = rest.isEmpty := by
    rw [hentries, hindex]
    cases rest with
    | nil => simp
    | cons next rest => simp
  unfold InvestigationEvidenceInspection.make
  rw [hfinal]
  rcases List.eq_nil_or_concat' before with rfl | ⟨init, previous, rfl⟩
  · rw [if_pos (by simpa using hindex)]
    rfl
  · have hprevious : timeline.entries[entry.index - 1]? = some previous := by
      rw [hentries, hindex, List.append_assoc, List.length_append, List.length_singleton,
        Nat.add_sub_cancel, List.getElem?_append_right (Nat.le_refl _), Nat.sub_self]
      rfl
    rw [if_neg (by rw [hindex]; simp), hprevious]
    simp [headAfter, bind, Except.bind, pure, Except.pure]

/-- The inspection is of the record at its place and is linked to a session that has the
record's identifiers. -/
def LinkedTo (sessions : List (Option InvestigationSession))
    (place : Option InvestigationEvidenceRecord × ℕ)
    (inspection : InvestigationEvidenceInspection) : Prop :=
  ∃ record session, place.1 = some record ∧ some session ∈ sessions ∧
    session.clientId = record.clientId ∧ session.sessionId = record.sessionId ∧
    ReplayTimelineEntry.make place.2 (some record) = .ok inspection.timelineEntry ∧
    InvestigationSessionInspection.make (some session) = .ok inspection.session

/-- INTERNAL: a record's numbers find the inspection of its session. -/
theorem item_of_record {sessions : List (Option InvestigationSession)}
    {inspections : List InvestigationSessionInspection}
    (hmade : List.Forall₂ (fun entry inspection =>
      InvestigationSessionInspection.make entry = .ok inspection) sessions inspections)
    (hkeys : (inspections.map (·.key)).Nodup) {index : ℕ} {record : InvestigationEvidenceRecord}
    (hrecord : ValidRecord (sessionIdentities sessions) index record) :
    ∃ session inspection, some session ∈ sessions ∧ session.clientId = record.clientId ∧
      session.sessionId = record.sessionId ∧
      InvestigationSessionInspection.make (some session) = .ok inspection ∧
      parseUnsigned record.clientId = .ok inspection.key.clientId ∧
      parseUnsigned record.sessionId = .ok inspection.key.sessionId ∧
      SessionMap.item (mapOf inspections) inspection.key = .ok inspection := by
  obtain ⟨entry, hentry, hidentity⟩ := List.mem_filterMap.mp hrecord.known
  obtain ⟨session, rfl, heq⟩ := Option.map_eq_some_iff.mp hidentity
  obtain ⟨i, hi, hget⟩ := List.mem_iff_getElem.mp hentry
  have hmake := hmade.get hi (hmade.length_eq ▸ hi)
  rw [List.get_eq_getElem, hget] at hmake
  have hkey := key_of_make hmake
  obtain ⟨hclient, hsession⟩ := ids_eq_of_identity hrecord.clientId hrecord.sessionId hkey
    heq.symm
  obtain ⟨hc, hs⟩ := sessionKey?_eq_some.mp hkey
  exact ⟨session, _, hentry, hclient.symm, hsession.symm, hmake, hclient ▸ hc, hsession ▸ hs,
    item_mapOf hkeys (List.get_mem ..)⟩

/-- INTERNAL: the head after a record is the head after those that follow it. -/
theorem expectedHead_cons {record : InvestigationEvidenceRecord}
    {rest : List (Option InvestigationEvidenceRecord)} {head : Option NetString} :
    expectedHead (some record :: rest) head = expectedHead rest record.recordDigest := by
  cases rest with
  | nil => rfl
  | cons next rest =>
    obtain ⟨last, hlast⟩ : ∃ last, (next :: rest).getLast? = some last :=
      ⟨_, List.getLast?_eq_some_getLast (List.cons_ne_nil _ _)⟩
    rw [expectedHead, expectedHead, List.getLast?_cons_cons, hlast]

/-- **The inspections of the evidence.**  Each is linked to its session, the chain is
continuous, and the last one completes the trusted head when the records end in it.
SRC: InvestigationWorkspace.cs:646-670 -/
theorem inspectEvidence_of_chain (timeline : ReplayTimeline)
    {sessions : List (Option InvestigationSession)}
    {inspections : List InvestigationSessionInspection}
    (hmade : List.Forall₂ (fun entry inspection =>
      InvestigationSessionInspection.make entry = .ok inspection) sessions inspections)
    (hkeys : (inspections.map (·.key)).Nodup) {index : ℕ} {head : Option NetString}
    {records : List (Option InvestigationEvidenceRecord)}
    (hchain : ValidChain (sessionIdentities sessions) index head records) :
    ∀ (before : List ReplayTimelineEntry) {entries : List ReplayTimelineEntry}, before.length = index →
      timeline.entries = before ++ entries → headAfter timeline before = head →
      List.Forall₂ (fun place entry => ReplayTimelineEntry.make place.2 place.1 = .ok entry)
        (records.zipIdx index) entries →
      ∃ evidence, inspectEvidence timeline (mapOf inspections) entries = .ok evidence ∧
        List.Forall₂ (LinkedTo sessions) (records.zipIdx index) evidence ∧
        (∀ inspection ∈ evidence, inspection.previousDigestMatches = true) ∧
        ∀ last, evidence.getLast? = some last → last.completesTrustedHead =
          decide (expectedHead records head = timeline.trustedHeadDigest) := by
  induction hchain with
  | nil =>
    intro before entries _ _ _ hentries
    cases hentries
    exact ⟨[], rfl, .nil, by simp, by simp⟩
  | @cons index record rest hrecord hrest ih =>
    intro before entries hlength htimeline hhead hentries
    rw [List.zipIdx_cons] at hentries
    cases hentries with
    | @cons _ entry _ entries hmake hentries =>
      obtain ⟨hindex, hclient, hsession, hprevious, hdigest⟩ := entry_of_make hmake
      obtain ⟨session, inspection, hmem, hc, hs, hsessionMake, hclientNumber, hsessionNumber,
        hitem⟩ := item_of_record hmade hkeys hrecord
      have hinspection := make_evidence htimeline (hindex.trans hlength.symm) inspection
      obtain ⟨evidence, hevidence, hlinked, hmatches, hlast⟩ := ih (before ++ [entry])
        (by simp [hlength]) (by simp [htimeline]) (by simp [headAfter, hdigest]) hentries
      rw [expectedHead_cons]
      refine ⟨{
        timelineEntry := entry
        session := inspection
        expectedPreviousDigest := headAfter timeline before
        previousDigestMatches := entry.previousDigest = headAfter timeline before
        isFinalEvidence := entries.isEmpty
        completesTrustedHead :=
          entries.isEmpty && decide (entry.recordDigest = timeline.trustedHeadDigest) } ::
        evidence, ?_, ?_, ?_, ?_⟩
      · simp only [inspectEvidence, except_bind_iff]
        exact ⟨_, hclient ▸ hclientNumber, _, hsession ▸ hsessionNumber, inspection, hitem, _,
          hinspection, evidence, hevidence, rfl⟩
      · rw [List.zipIdx_cons]
        exact .cons ⟨record, session, rfl, hmem, hc, hs, hmake, hsessionMake⟩ hlinked
      · intro other hother
        rcases List.mem_cons.mp hother with rfl | hother
        · simp [hhead, hprevious]
        · exact hmatches other hother
      · intro last hgetLast
        cases evidence with
        | nil =>
          cases hgetLast
          have hrestNil : rest = [] := by
            have := hlinked.length_eq
            simpa using this
          subst hrestNil
          have hentriesNil : entries = [] := by
            have := hentries.length_eq
            simpa using this.symm
          simp only [hentriesNil, List.isEmpty_nil, Bool.true_and, hdigest]
          exact decide_eq_decide.mpr Iff.rfl
        | cons next evidence =>
          rw [List.getLast?_cons_cons] at hgetLast
          exact hlast last hgetLast

/-! ## Loading -/

/-- INTERNAL: a positive finite pace is accepted. -/
theorem playback_of_finite (timeline : ReplayTimeline) {seconds : ℚ} (hseconds : 0 < seconds) :
    ∃ playback, ReplayPlaybackController.make timeline (.finite seconds) = .ok playback := by
  unfold ReplayPlaybackController.make
  rw [if_neg (by simpa [Double.notPositive] using hseconds)]
  exact ⟨_, rfl⟩

/-- What the workspace of a bundle promises. -/
structure FaithfulWorkspace (bundle : InvestigationBundle) (workspace : InvestigationWorkspace) :
    Prop where
  evidence : List.Forall₂ (LinkedTo bundle.sessionArray) bundle.evidenceArray.zipIdx
    workspace.evidence
  evidenceChainContinuous : workspace.integrity.evidenceChainContinuous = true
  trustedHeadMatches : workspace.integrity.trustedHeadMatches = true

/-- **A valid loadable bundle has a workspace.**
SRC: InvestigationWorkspace.cs:596-684 -/
theorem buildWorkspace_of_loadable {parser : TimestampParser} {bundle : InvestigationBundle}
    {seconds : ℚ} (hseconds : 0 < seconds) (hissues : validate parser (some bundle) = [])
    (hloadable : SessionsLoadable bundle.sessionArray) :
    ∃ workspace, buildWorkspace parser (some bundle) (.finite seconds) =
        .ok { workspace := some workspace, validation := [] } ∧
      FaithfulWorkspace bundle workspace := by
  obtain ⟨hsessions, hchain, htrusted⟩ := validBundle_of_nil hissues
  obtain ⟨inspections, hmade⟩ := exists_inspections hsessions hloadable.numeric
  have hkeys : (inspections.map (·.key)).Nodup := by
    rw [← keys_of_inspections hsessions hmade]
    exact hloadable.distinct
  have hinspect : inspectSessions bundle.sessionArray [] [] =
      .ok (inspections, mapOf inspections) :=
    (inspectSessions_iff [] List.nodup_nil).mpr ⟨inspections, hmade, hkeys, rfl⟩
  obtain ⟨entries, hentries, hmadeEntries⟩ := timelineEntriesFrom_of_chain hchain
  let timeline : ReplayTimeline := {
    archiveDigest := bundle.archiveDigest
    initialHeadDigest := bundle.initialHeadDigest
    trustedHeadDigest := bundle.trustedHeadDigest
    replay := bundle.replay
    entries }
  obtain ⟨evidence, hevidence, hlinked, hmatches, hlast⟩ :=
    inspectEvidence_of_chain timeline hmade hkeys hchain [] rfl rfl rfl hmadeEntries
  obtain ⟨playback, hplayback⟩ := playback_of_finite timeline hseconds
  refine ⟨InvestigationWorkspace.make timeline playback
    (inspections.insertionSort fun left right => sessionNotAfter left right) evidence, ?_, hlinked,
    List.all_eq_true.mpr hmatches, ?_⟩
  · simp only [buildWorkspace, buildTimeline, hissues, List.isEmpty_nil, Bool.not_true,
      Bool.false_eq_true, if_false, except_bind_iff]
    refine ⟨_, ⟨entries, hentries, rfl⟩, ?_⟩
    simp only [except_bind_iff]
    exact ⟨_, hinspect, evidence, hevidence, playback, hplayback, rfl⟩
  · show (InvestigationIntegritySummary.make timeline evidence).trustedHeadMatches = true
    cases hfinal : evidence.getLast? with
    | none =>
      have hnone : bundle.evidenceArray = [] := by
        have hlength := hlinked.length_eq
        rw [List.getLast?_eq_none_iff.mp hfinal] at hlength
        simpa using hlength
      simp only [InvestigationIntegritySummary.make, hfinal]
      show decide (bundle.initialHeadDigest = bundle.trustedHeadDigest) = true
      simp [htrusted, hnone, expectedHead]
    | some last =>
      simp only [InvestigationIntegritySummary.make, hfinal]
      rw [hlast last hfinal]
      exact decide_eq_true htrusted.symm

/-- INTERNAL: what a workspace that was built is made of. -/
theorem madeOf_build {parser : TimestampParser} {bundle : InvestigationBundle} {seconds : Double}
    {result : InvestigationWorkspaceBuildResult} {workspace : InvestigationWorkspace}
    (hbuild : buildWorkspace parser (some bundle) seconds = .ok result)
    (hworkspace : result.workspace = some workspace) :
    ∃ timeline inspections evidence playback,
      validate parser (some bundle) = [] ∧
      timelineEntriesFrom 0 bundle.evidenceArray = .ok timeline.entries ∧
      List.Forall₂ (fun entry inspection =>
        InvestigationSessionInspection.make entry = .ok inspection) bundle.sessionArray
          inspections ∧
      (inspections.map (·.key)).Nodup ∧
      inspectEvidence timeline (mapOf inspections) timeline.entries = .ok evidence ∧
      ReplayPlaybackController.make timeline seconds = .ok playback ∧
      workspace = InvestigationWorkspace.make timeline playback
        (inspections.insertionSort fun left right => sessionNotAfter left right) evidence := by
  simp only [buildWorkspace, except_bind_iff] at hbuild
  obtain ⟨timelineResult, htimelineResult, hbuild⟩ := hbuild
  simp only [buildTimeline] at htimelineResult
  split at htimelineResult
  · cases htimelineResult
    cases hbuild
    cases hworkspace
  · next hissues =>
    simp only [except_bind_iff] at htimelineResult
    obtain ⟨entries, hentries, htimeline⟩ := htimelineResult
    cases htimeline
    simp only [except_bind_iff] at hbuild
    obtain ⟨inspected, hinspect, evidence, hevidence, playback, hplayback, hresult⟩ := hbuild
    cases hresult
    cases hworkspace
    obtain ⟨inspections, hmade, hkeys, rfl⟩ := (inspectSessions_iff [] List.nodup_nil).mp hinspect
    exact ⟨_, inspections, evidence, playback, by simpa using hissues, hentries, hmade, hkeys,
      hevidence, hplayback, rfl⟩

/-- **A valid bundle whose sessions are not loadable makes the builder throw.** -/
theorem buildWorkspace_of_not_loadable {parser : TimestampParser} {bundle : InvestigationBundle}
    (seconds : Double) (hissues : validate parser (some bundle) = [])
    (hloadable : ¬ SessionsLoadable bundle.sessionArray) :
    ∃ exception, buildWorkspace parser (some bundle) seconds = .error exception := by
  obtain ⟨hsessions, hchain, -⟩ := validBundle_of_nil hissues
  obtain ⟨entries, hentries, -⟩ := timelineEntriesFrom_of_chain hchain
  cases hbuild : buildWorkspace parser (some bundle) seconds with
  | error exception => exact ⟨exception, rfl⟩
  | ok result =>
    apply absurd _ hloadable
    apply (inspectSessions_ok_iff hsessions).mp
    simp only [buildWorkspace, buildTimeline, hissues, List.isEmpty_nil, Bool.not_true,
      Bool.false_eq_true, if_false, except_bind_iff] at hbuild
    obtain ⟨timelineResult, ⟨entries, -, htimeline⟩, hbuild⟩ := hbuild
    cases htimeline
    obtain ⟨inspected, hinspected, -⟩ := except_bind_iff.mp hbuild
    exact ⟨inspected, hinspected⟩

/-- What is promised of every bundle: without issues it opens, with one inspection for each
record in order, linked to the session that has the record's identifiers; and taking its load
over either replaces the active investigation or leaves it as it was. -/
structure LoadsReliably (parser : TimestampParser) (bundle : Option InvestigationBundle)
    (seconds : Double) : Prop where
  opens : validate parser bundle = [] → ∃ loaded workspace, bundle = some loaded ∧
    buildWorkspace parser bundle seconds =
      .ok { workspace := some workspace, validation := [] } ∧
    List.Forall₂ (LinkedTo loaded.sessionArray) loaded.evidenceArray.zipIdx workspace.evidence
  commits : ∀ (source : NetString) (viewer : InvestigationViewerSession),
    (∃ viewer', commitLoad parser source (some (loadOfBundle parser bundle)) seconds viewer =
        .ok true viewer' ∧ viewer'.bundle = bundle ∧ viewer'.workspace.isSome = true ∧
        viewer'.activeSource = source) ∨
      ∃ viewer', commitLoad parser source (some (loadOfBundle parser bundle)) seconds viewer =
        .ok false viewer' ∧ viewer'.bundle = viewer.bundle ∧
        viewer'.workspace = viewer.workspace ∧ viewer'.activeSource = viewer.activeSource

/-- INTERNAL: a bundle with issues is turned down. -/
theorem commitLoad_of_issues {parser : TimestampParser} {bundle : Option InvestigationBundle}
    {seconds : Double} (hissues : validate parser bundle ≠ []) (source : NetString)
    (viewer : InvestigationViewerSession) :
    ∃ viewer', commitLoad parser source (some (loadOfBundle parser bundle)) seconds viewer =
      .ok false viewer' ∧ viewer'.bundle = viewer.bundle ∧
      viewer'.workspace = viewer.workspace ∧ viewer'.activeSource = viewer.activeSource := by
  cases bundle with
  | none => exact ⟨_, rfl, rfl, rfl, rfl⟩
  | some bundle =>
    obtain ⟨issue, issues, hvalidate⟩ := List.exists_cons_of_ne_nil hissues
    refine ⟨{ viewer with
      lastLoad := some {
        source, bundle := some bundle, workspace := none
        validation := some (issue :: issues) } }, ?_, rfl, rfl, rfl⟩
    have hload : loadOfBundle parser (some bundle) =
        { bundle := some bundle, validation := some (issue :: issues) } := by
      rw [← hvalidate]
      rfl
    rw [hload]
    rfl

/-- INTERNAL: a bundle without issues is taken over when its workspace is built. -/
theorem commitLoad_of_valid {parser : TimestampParser} {bundle : InvestigationBundle}
    {seconds : Double} (hissues : validate parser (some bundle) = []) (source : NetString)
    (viewer : InvestigationViewerSession) :
    commitLoad parser source (some (loadOfBundle parser (some bundle))) seconds viewer =
      match buildWorkspace parser (some bundle) seconds with
      | .error exception => .error exception viewer
      | .ok result =>
        if !result.isValid then
          .ok false { viewer with
            lastLoad := some {
              source, bundle := some bundle, workspace := none
              validation := some result.validation } }
        else
          .ok true {
            bundle := some bundle
            workspace := result.workspace
            activeSource := source
            lastLoad := some {
              source, bundle := some bundle, workspace := result.workspace
              validation := some result.validation } } := by
  have hload : loadOfBundle parser (some bundle) =
      { bundle := some bundle, validation := some [] } := by
    rw [← hissues]
    rfl
  rw [hload]
  unfold commitLoad
  cases hbuild : buildWorkspace parser (some bundle) seconds with
  | error exception =>
    simp only [hbuild]
    rfl
  | ok result =>
    by_cases hvalid : (!result.isValid) = true
    · simp only [hbuild, hvalid, if_true]
      rfl
    · simp only [hbuild, hvalid]
      rfl

/-- **Exactly which bundles load reliably**: those with issues, which are turned down, and
those whose sessions have numeric identifiers that are different as numbers. -/
theorem loads_reliably_iff (parser : TimestampParser) (bundle : Option InvestigationBundle)
    (seconds : ℚ) (hseconds : 0 < seconds) :
    LoadsReliably parser bundle (.finite seconds) ↔
      (validate parser bundle = [] →
        ∀ loaded, bundle = some loaded → SessionsLoadable loaded.sessionArray) := by
  constructor
  · rintro ⟨hopens, -⟩ hissues loaded rfl
    obtain ⟨-, workspace, -, hbuild, -⟩ := hopens hissues
    by_contra hloadable
    obtain ⟨exception, hthrows⟩ := buildWorkspace_of_not_loadable (.finite seconds)
      hissues hloadable
    rw [hthrows] at hbuild
    cases hbuild
  · intro hloadable
    by_cases hissues : validate parser bundle = []
    · cases bundle with
      | none => cases hissues
      | some loaded =>
        obtain ⟨workspace, hbuild, hfaithful⟩ := buildWorkspace_of_loadable hseconds hissues
          (hloadable hissues loaded rfl)
        refine ⟨fun _ => ⟨loaded, workspace, rfl, hbuild, hfaithful.evidence⟩, ?_⟩
        intro source viewer
        rw [commitLoad_of_valid hissues, hbuild]
        exact Or.inl ⟨_, rfl, rfl, rfl, rfl⟩
    · exact ⟨fun hnone => absurd hnone hissues, fun source viewer =>
        Or.inr (commitLoad_of_issues hissues source viewer)⟩

/-- A session with these identifiers and no commands. -/
def quietSession (clientId sessionId : String) : InvestigationSession where
  clientId := some (net clientId)
  sessionId := some (net sessionId)

/-- A bundle of an empty archive with these sessions. -/
def quietBundle (sessions : List InvestigationSession) : InvestigationBundle where
  schemaVersion := 1
  archiveDigest := some (List.replicate 64 48)
  initialHeadDigest := some (List.replicate 64 48)
  trustedHeadDigest := some (List.replicate 64 48)
  importedAtUtc := some (net "2026-07-20T00:00:00Z")
  sessions := some (sessions.map some)

theorem loads_reliably_iff_two :
    validate (fun _ => true)
        (some (quietBundle [quietSession "7" "9", quietSession "8" "9"])) = [] ∧
      LoadsReliably (fun _ => true)
        (some (quietBundle [quietSession "7" "9", quietSession "8" "9"])) (.finite 1) := by
  refine ⟨by decide +kernel, (loads_reliably_iff _ _ 1 (by decide)).mpr ?_⟩
  rintro - loaded heq
  cases heq
  refine ⟨?_, by decide +kernel⟩
  intro session hsession
  have hmem : session = quietSession "7" "9" ∨ session = quietSession "8" "9" := by
    simpa [quietBundle, InvestigationBundle.sessionArray] using hsession
  rcases hmem with rfl | rfl
  · decide +kernel
  · decide +kernel

/-- Sessions `7` and `07` are different texts and the same number. -/
theorem loads_reliably_fails :
    validate (fun _ => true)
        (some (quietBundle [quietSession "7" "9", quietSession "07" "9"])) = [] ∧
      buildWorkspace (fun _ => true)
        (some (quietBundle [quietSession "7" "9", quietSession "07" "9"])) (.finite 1) =
          .error .argument ∧
      ¬ LoadsReliably (fun _ => true)
        (some (quietBundle [quietSession "7" "9", quietSession "07" "9"])) (.finite 1) := by
  have hissues : validate (fun _ => true)
      (some (quietBundle [quietSession "7" "9", quietSession "07" "9"])) = [] := by
    decide +kernel
  have hthrows : buildWorkspace (fun _ => true)
      (some (quietBundle [quietSession "7" "9", quietSession "07" "9"])) (.finite 1) =
        .error .argument := by
    decide +kernel
  refine ⟨hissues, hthrows, ?_⟩
  rintro ⟨hopens, -⟩
  obtain ⟨loaded, workspace, -, hbuild, -⟩ := hopens hissues
  rw [hthrows] at hbuild
  cases hbuild

end Tickline.Analysis
