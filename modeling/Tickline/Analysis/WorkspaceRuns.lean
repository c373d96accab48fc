import Tickline.Analysis.PlaybackRuns
import Tickline.Analysis.WorkspaceLoad

/-!
# A workspace in use

What building a workspace establishes of its evidence (`Inspected`) is never changed again.  Over it
every operation keeps the cached list of visible evidence what the filters ask for, and the
controller on the timeline (`Consistent`), so that selecting by place, by ordinal or by visible
place finds what it names (`workspace_consistent`).
-/

set_option autoImplicit false

namespace Tickline.Analysis

open Tickline.Library Tickline.Model Tickline.Model.Forensics

/-! ## What the filters ask for -/

/-- The outcome of an item is the one that is asked for. -/
def MatchesOutcome (item : InvestigationEvidenceInspection) : InvestigationOutcomeFilter → Prop
  | .all => True
  | .accepted => item.timelineEntry.outcome = some (net "accepted")
  | .rejected => item.timelineEntry.outcome = some (net "rejected")
  | .undefined _ => False

/-- The identifiers of an item are, as numbers, those of the session that is asked for. -/
def MatchesSession (item : InvestigationEvidenceInspection) :
    Option InvestigationSessionInspection → Prop
  | none => True
  | some session =>
    tryParseUnsigned item.timelineEntry.clientId = some session.clientIdValue ∧
      tryParseUnsigned item.timelineEntry.sessionId = some session.sessionIdValue

instance (item : InvestigationEvidenceInspection) (filter : InvestigationOutcomeFilter) :
    Decidable (MatchesOutcome item filter) :=
  match filter with
  | .all => isTrue trivial
  | .accepted => inferInstanceAs (Decidable (_ = some (net "accepted")))
  | .rejected => inferInstanceAs (Decidable (_ = some (net "rejected")))
  | .undefined _ => isFalse id

instance (item : InvestigationEvidenceInspection)
    (filter : Option InvestigationSessionInspection) : Decidable (MatchesSession item filter) :=
  match filter with
  | none => isTrue trivial
  | some session => inferInstanceAs (Decidable (_ = some session.clientIdValue ∧ _))

/-! ## What building establishes -/

/-- What building a workspace establishes of its evidence. -/
structure Inspected (workspace : InvestigationWorkspace) : Prop where
  count : workspace.evidence.length = workspace.timeline.entries.length
  place : ∀ (place : ℕ) item, workspace.evidence[place]? = some item →
    item.timelineEntry.index = place ∧ item.timelineEntry.ordinal.toInt = place
  session : ∀ item ∈ workspace.evidence, ∀ session ∈ workspace.sessions,
    item.session = session ↔ MatchesSession item (some session)

/-- INTERNAL: the entries of a timeline are numbered in two ways. -/
theorem entries_numbered {identities : List NetString}
    {records : List (Option InvestigationEvidenceRecord)} {index : ℕ} {head : Option NetString}
    (h : ValidChain identities index head records) {entries : List ReplayTimelineEntry}
    (hentries : timelineEntriesFrom index records = .ok entries) (place : ℕ)
    {entry : ReplayTimelineEntry} (hplace : entries[place]? = some entry) :
    entry.index = index + place ∧ entry.ordinal.toInt = (index + place : ℕ) := by
  induction h generalizing entries place with
  | nil =>
    cases hentries
    simp at hplace
  | @cons index record rest hrecord hrest ih =>
    simp only [timelineEntriesFrom, except_bind_iff] at hentries
    obtain ⟨first, hfirst, others, hothers, heq⟩ := hentries
    cases heq
    cases place with
    | zero =>
      obtain rfl : first = entry := by simpa using hplace
      simp only [ReplayTimelineEntry.make, except_bind_iff] at hfirst
      obtain ⟨sequence, -, tick, -, hresult⟩ := hfirst
      cases hresult
      exact ⟨rfl, hrecord.ordinal⟩
    | succ place =>
      rw [show index + (place + 1) = index + 1 + place by omega]
      exact ih hothers place (by simpa using hplace)

/-- INTERNAL: an inspection keeps its entry and its session. -/
theorem inspection_of_make {timeline : ReplayTimeline} {entry : ReplayTimelineEntry}
    {session : InvestigationSessionInspection} {item : InvestigationEvidenceInspection}
    (h : InvestigationEvidenceInspection.make timeline entry session = .ok item) :
    item.timelineEntry = entry ∧ item.session = session := by
  unfold InvestigationEvidenceInspection.make at h
  split at h
  · cases h
    exact ⟨rfl, rfl⟩
  · split at h
    · cases h
      exact ⟨rfl, rfl⟩
    · cases h

/-- INTERNAL: what an inspection of the evidence was made from. -/
structure MadeFrom (map : SessionMap) (entry : ReplayTimelineEntry)
    (item : InvestigationEvidenceInspection) : Prop where
  timelineEntry : item.timelineEntry = entry
  session : ∃ clientId sessionId, parseUnsigned entry.clientId = .ok clientId ∧
    parseUnsigned entry.sessionId = .ok sessionId ∧
    map.item ⟨clientId, sessionId⟩ = .ok item.session

/-- INTERNAL: the loop over the entries makes one inspection from each. -/
theorem inspectEvidence_ok {timeline : ReplayTimeline} {map : SessionMap}
    {entries : List ReplayTimelineEntry} {evidence : List InvestigationEvidenceInspection}
    (h : inspectEvidence timeline map entries = .ok evidence) :
    List.Forall₂ (MadeFrom map) entries evidence := by
  induction entries generalizing evidence with
  | nil =>
    cases h
    exact .nil
  | cons entry entries ih =>
    simp only [inspectEvidence, except_bind_iff] at h
    obtain ⟨clientId, hclient, sessionId, hsession, session, hitem, inspection, hmake, rest, hrest,
      hresult⟩ := h
    cases hresult
    obtain ⟨rfl, rfl⟩ := inspection_of_make hmake
    exact .cons ⟨rfl, clientId, sessionId, hclient, hsession, hitem⟩ (ih hrest)

/-- INTERNAL: what the dictionary finds is an inspection of the key. -/
theorem mem_of_item {inspections : List InvestigationSessionInspection}
    {key : InvestigationSessionKey} {inspection : InvestigationSessionInspection}
    (h : SessionMap.item (mapOf inspections) key = .ok inspection) :
    inspection ∈ inspections ∧ inspection.key = key := by
  unfold SessionMap.item at h
  split at h
  · next value hlookup =>
    cases h
    obtain ⟨before, after, hsplit, -⟩ := List.lookup_eq_some_iff.mp hlookup
    have hmem : (key, inspection) ∈ mapOf inspections := by simp [hsplit]
    obtain ⟨other, hother, heq⟩ := List.mem_map.mp (List.mem_reverse.mp hmem)
    cases heq
    exact ⟨hother, rfl⟩
  · cases h

/-- INTERNAL: a text is read as a number in two ways. -/
theorem tryParse_of_parse {text : Option NetString} {n : UInt64}
    (h : parseUnsigned text = .ok n) : tryParseUnsigned text = some n := by
  cases text with
  | none => cases h
  | some text => exact congrArg Except.toOption (show parseDigits text = .ok n from h)

/-- **Building establishes** the places of the evidence and its sessions. -/
theorem inspected_of_build {parser : TimestampParser} {bundle : InvestigationBundle}
    {seconds : Double} {result : InvestigationWorkspaceBuildResult}
    {workspace : InvestigationWorkspace}
    (hbuild : buildWorkspace parser (some bundle) seconds = .ok result)
    (hworkspace : result.workspace = some workspace) : Inspected workspace := by
  obtain ⟨timeline, inspections, evidence, playback, hissues, hentries, -, hkeys, hevidence, -,
    rfl⟩ := madeOf_build hbuild hworkspace
  have hmade := inspectEvidence_ok hevidence
  refine ⟨hmade.length_eq.symm, fun place item hplace => ?_, fun item hitem session hsession => ?_⟩
  · obtain ⟨hlt, hget⟩ :=
      List.getElem?_eq_some_iff.mp (show evidence[place]? = some item from hplace)
    have hfrom := hmade.get (hmade.length_eq ▸ hlt) hlt
    rw [List.get_eq_getElem, List.get_eq_getElem, hget] at hfrom
    have hentry : timeline.entries[place]? = some item.timelineEntry :=
      List.getElem?_eq_some_iff.mpr ⟨_, hfrom.timelineEntry.symm⟩
    obtain ⟨-, hchain, -⟩ := validBundle_of_nil hissues
    simpa using entries_numbered hchain hentries place hentry
  · obtain ⟨place, hlt, hget⟩ := List.mem_iff_getElem.mp (show item ∈ evidence from hitem)
    have hfrom := hmade.get (hmade.length_eq ▸ hlt) hlt
    rw [List.get_eq_getElem, List.get_eq_getElem, hget] at hfrom
    obtain ⟨hentry, clientId, sessionId, hclient, hsessionId, hfound⟩ := hfrom
    obtain ⟨hmem, hkey⟩ := mem_of_item hfound
    rw [← hentry] at hclient hsessionId
    rw [MatchesSession, tryParse_of_parse hclient, tryParse_of_parse hsessionId]
    constructor
    · rintro rfl
      exact ⟨congrArg (some ·.clientId) hkey.symm, congrArg (some ·.sessionId) hkey.symm⟩
    · rintro ⟨hc, hs⟩
      refine List.inj_on_of_nodup_map hkeys hmem ((List.mem_insertionSort _).mp hsession) ?_
      rw [hkey, Option.some.inj hc, Option.some.inj hs]
      rfl

/-! ## What every operation keeps -/

/-- **A workspace in use**: the evidence it was built with, of which it shows what matches both
filters, and a controller on its timeline. -/
structure Consistent (start workspace : InvestigationWorkspace) : Prop where
  timeline : workspace.timeline = start.timeline
  sessions : workspace.sessions = start.sessions
  evidence : workspace.evidence = start.evidence
  visible : workspace.visibleEvidence = start.evidence.filter fun item =>
    MatchesOutcome item workspace.outcomeFilter ∧ MatchesSession item workspace.sessionFilter
  filter : ∀ session, workspace.sessionFilter = some session → session ∈ start.sessions
  placed : Placed start.timeline workspace.playback

/-- INTERNAL: the filter of outcomes, as it is computed. -/
theorem matchesOutcomeFilter_iff (workspace : InvestigationWorkspace)
    (item : InvestigationEvidenceInspection) :
    workspace.matchesOutcomeFilter item = true ↔ MatchesOutcome item workspace.outcomeFilter := by
  unfold InvestigationWorkspace.matchesOutcomeFilter MatchesOutcome
  cases workspace.outcomeFilter <;> simp

/-- INTERNAL: rebuilding shows what matches both filters. -/
theorem rebuild_visible {start workspace : InvestigationWorkspace} (hstart : Inspected start)
    (hevidence : workspace.evidence = start.evidence)
    (hfilter : ∀ session, workspace.sessionFilter = some session → session ∈ start.sessions) :
    workspace.rebuildVisibleEvidence.visibleEvidence = start.evidence.filter fun item =>
      MatchesOutcome item workspace.outcomeFilter ∧ MatchesSession item workspace.sessionFilter := by
  unfold InvestigationWorkspace.rebuildVisibleEvidence
  dsimp only
  rw [hevidence]
  refine List.filter_congr fun item hitem => ?_
  rw [Bool.eq_iff_iff, Bool.and_eq_true, matchesOutcomeFilter_iff, decide_eq_true_iff]
  refine and_congr_right fun _ => ?_
  cases hsession : workspace.sessionFilter with
  | none => simp [MatchesSession]
  | some session =>
    rw [← hstart.session item hitem session (hfilter session hsession)]
    exact decide_eq_true_iff

theorem consistent_of_build {parser : TimestampParser} {bundle : InvestigationBundle}
    {seconds : Double} {result : InvestigationWorkspaceBuildResult}
    {workspace : InvestigationWorkspace}
    (hbuild : buildWorkspace parser (some bundle) seconds = .ok result)
    (hworkspace : result.workspace = some workspace) : Consistent workspace workspace := by
  have hinspected := inspected_of_build hbuild hworkspace
  obtain ⟨timeline, inspections, evidence, playback, -, -, -, -, -, hplayback, rfl⟩ :=
    madeOf_build hbuild hworkspace
  have hnone : ∀ session, (none : Option InvestigationSessionInspection) = some session →
      session ∈ inspections.insertionSort fun left right => sessionNotAfter left right :=
    fun session h => nomatch h
  exact ⟨rfl, rfl, rfl, rebuild_visible hinspected rfl hnone, hnone, placed_of_make hplayback⟩

namespace Consistent

variable {start workspace : InvestigationWorkspace}

/-- INTERNAL: with other filters and the evidence they show. -/
theorem rebuilt (h : Consistent start workspace) (hstart : Inspected start)
    (outcomeFilter : InvestigationOutcomeFilter)
    {sessionFilter : Option InvestigationSessionInspection}
    (hfilter : ∀ session, sessionFilter = some session → session ∈ start.sessions) :
    Consistent start (InvestigationWorkspace.rebuildVisibleEvidence
      { workspace with outcomeFilter, sessionFilter }) :=
  ⟨h.timeline, h.sessions, h.evidence, rebuild_visible hstart h.evidence hfilter, hfilter,
    h.placed⟩

/-- INTERNAL: with the controller elsewhere. -/
theorem moved (h : Consistent start workspace) {playback : ReplayPlaybackController}
    (hplaced : Placed start.timeline playback) :
    Consistent start { workspace with playback } :=
  ⟨h.timeline, h.sessions, h.evidence, h.visible, h.filter, hplaced⟩

theorem setOutcomeFilter (h : Consistent start workspace) (hstart : Inspected start)
    {filter : InvestigationOutcomeFilter} {after : InvestigationWorkspace}
    (hset : workspace.setOutcomeFilter filter = .ok after) : Consistent start after := by
  unfold InvestigationWorkspace.setOutcomeFilter at hset
  split at hset
  · cases hset
  · split at hset
    · cases hset
      exact h
    · cases hset
      exact h.rebuilt hstart filter h.filter

theorem trySetSessionFilter (h : Consistent start workspace) (hstart : Inspected start)
    (clientId sessionId : UInt64) :
    Consistent start (workspace.trySetSessionFilter clientId sessionId).2 := by
  unfold InvestigationWorkspace.trySetSessionFilter
  split
  · next candidate hfind =>
    split
    · exact h
    · refine h.rebuilt hstart workspace.outcomeFilter fun session hsome => ?_
      rw [← Option.some.inj hsome, ← h.sessions]
      exact List.mem_of_find?_eq_some hfind
  · exact h

theorem clearSessionFilter (h : Consistent start workspace) (hstart : Inspected start) :
    Consistent start workspace.clearSessionFilter := by
  unfold InvestigationWorkspace.clearSessionFilter
  split
  · exact h
  · exact h.rebuilt hstart workspace.outcomeFilter fun session hnone => nomatch hnone

theorem selectEvidenceByTimelineIndex (h : Consistent start workspace) (timelineIndex : ℤ) :
    Consistent start (workspace.selectEvidenceByTimelineIndex timelineIndex).2 :=
  h.moved (h.placed.seek timelineIndex)

/-- **Every operation keeps a workspace consistent.** -/
theorem next (h : Consistent start workspace) (hstart : Inspected start) (round : ℚ → Double)
    (operation : WorkspaceOperation) :
    Consistent start ((workspaceMachine round).next operation workspace) := by
  cases operation with
  | setOutcomeFilter filter =>
    simp only [Machine.next, workspaceMachine]
    cases hset : workspace.setOutcomeFilter filter with
    | error exception => exact h
    | ok after => exact h.setOutcomeFilter hstart hset
  | trySetSessionFilter clientId sessionId => exact h.trySetSessionFilter hstart clientId sessionId
  | trySetSessionFilterText clientId sessionId =>
    simp only [Machine.next, workspaceMachine, flagOf,
      InvestigationWorkspace.trySetSessionFilterText]
    split
    · exact h
    · split
      · exact h
      · exact h.trySetSessionFilter hstart _ _
  | clearSessionFilter => exact h.clearSessionFilter hstart
  | selectEvidenceByTimelineIndex timelineIndex =>
    exact h.selectEvidenceByTimelineIndex timelineIndex
  | selectEvidenceByOrdinal ordinal =>
    simp only [Machine.next, workspaceMachine, flagOf,
      InvestigationWorkspace.selectEvidenceByOrdinal]
    split
    · exact h.selectEvidenceByTimelineIndex _
    · exact h
  | selectVisibleEvidence visibleIndex =>
    simp only [Machine.next, workspaceMachine, flagOf,
      InvestigationWorkspace.selectVisibleEvidence]
    split
    · exact h
    · split
      · exact h.selectEvidenceByTimelineIndex _
      · exact h
  | playback operation => exact h.moved (h.placed.next round operation)

/-! ## Selecting -/

/-- INTERNAL: selecting the item at a place. -/
theorem select_at (h : Consistent start workspace) (hstart : Inspected start) {place : ℕ}
    {item : InvestigationEvidenceInspection} (hplace : start.evidence[place]? = some item) :
    workspace.selectEvidenceByTimelineIndex item.timelineEntry.index = (true, { workspace with
      playback := { workspace.playback.pause with currentIndex := place } }) := by
  obtain ⟨hlt, -⟩ := List.getElem?_eq_some_iff.mp hplace
  rw [hstart.count] at hlt
  unfold InvestigationWorkspace.selectEvidenceByTimelineIndex
  rw [(hstart.place place item hplace).1, h.placed.seek_eq, if_pos (by omega)]
  rfl

/-- INTERNAL: the item that is selected with the controller at its place. -/
theorem selectedEvidence_at (h : Consistent start workspace) {place : ℕ}
    {item : InvestigationEvidenceInspection} (hplace : start.evidence[place]? = some item) :
    InvestigationWorkspace.selectedEvidence { workspace with
      playback := { workspace.playback.pause with currentIndex := place } } = some item := by
  obtain ⟨hlt, -⟩ := List.getElem?_eq_some_iff.mp hplace
  unfold InvestigationWorkspace.selectedEvidence
  dsimp only
  rw [h.evidence, if_pos (by omega), Int.toNat_natCast, hplace]

/-- INTERNAL: two visible items differ in their places. -/
theorem visible_indices (h : Consistent start workspace) (hstart : Inspected start) :
    (workspace.visibleEvidence.map (·.timelineEntry.index)).Nodup := by
  have hrange : start.evidence.map (·.timelineEntry.index) = List.range start.evidence.length := by
    refine List.ext_getElem (by simp) fun place hplace _ => ?_
    rw [List.getElem_map, List.getElem_range]
    rw [List.length_map] at hplace
    exact (hstart.place place _ (List.getElem?_eq_getElem hplace)).1
  rw [h.visible]
  refine List.Nodup.sublist (List.filter_sublist.map _) ?_
  rw [hrange]
  exact List.nodup_range

/-- INTERNAL: the visible place of a visible item that is selected. -/
theorem selectedVisibleIndex_at (h : Consistent start workspace) (hstart : Inspected start)
    {place visible : ℕ} {item : InvestigationEvidenceInspection}
    (hplace : start.evidence[place]? = some item)
    (hvisible : workspace.visibleEvidence[visible]? = some item) :
    InvestigationWorkspace.selectedVisibleIndex { workspace with
      playback := { workspace.playback.pause with currentIndex := place } } = visible := by
  obtain ⟨hlt, hget⟩ := List.getElem?_eq_some_iff.mp hvisible
  have hfind : workspace.visibleEvidence.findIdx? (fun other =>
      decide (other.timelineEntry.index = item.timelineEntry.index)) = some visible := by
    rw [List.findIdx?_eq_some_iff_getElem]
    refine ⟨hlt, by simp [hget], fun earlier hearlier => ?_⟩
    have hne := List.pairwise_iff_getElem.mp (h.visible_indices hstart) earlier visible
      (by rw [List.length_map]; omega) (by rwa [List.length_map]) hearlier
    rw [List.getElem_map, List.getElem_map, hget] at hne
    simpa using hne
  unfold InvestigationWorkspace.selectedVisibleIndex
  rw [h.selectedEvidence_at hplace]
  dsimp only
  rw [hfind]

/-- INTERNAL: a visible item has a place in the evidence. -/
theorem place_of_visible (h : Consistent start workspace) {visible : ℕ}
    {item : InvestigationEvidenceInspection}
    (hvisible : workspace.visibleEvidence[visible]? = some item) :
    ∃ place : ℕ, start.evidence[place]? = some item := by
  have hmem := List.mem_of_getElem? hvisible
  rw [h.visible] at hmem
  exact List.mem_iff_getElem?.mp (List.mem_filter.mp hmem).1

/-- **Selecting a visible item** selects it, or changes nothing. -/
theorem selectVisibleEvidence_spec (h : Consistent start workspace) (hstart : Inspected start)
    (visibleIndex : ℤ) :
    if 0 ≤ visibleIndex ∧ visibleIndex < workspace.visibleEvidence.length then
      (workspace.selectVisibleEvidence visibleIndex).1 = true ∧
        (workspace.selectVisibleEvidence visibleIndex).2.selectedVisibleIndex = visibleIndex
    else workspace.selectVisibleEvidence visibleIndex = (false, workspace) := by
  unfold InvestigationWorkspace.selectVisibleEvidence
  split
  · next hinside =>
    have hlt : visibleIndex.toNat < workspace.visibleEvidence.length := by omega
    have hvisible := List.getElem?_eq_getElem hlt
    obtain ⟨place, hplace⟩ := h.place_of_visible hvisible
    rw [if_neg (by omega), hvisible]
    dsimp only
    rw [h.select_at hstart hplace]
    refine ⟨rfl, ?_⟩
    rw [h.selectedVisibleIndex_at hstart hplace hvisible]
    omega
  · next houtside =>
    split
    · rfl
    · rw [List.getElem?_eq_none (by omega)]

/-- **Selecting by ordinal** finds the record of that place, or changes nothing. -/
theorem selectEvidenceByOrdinal_spec (h : Consistent start workspace) (hstart : Inspected start)
    (ordinal : Int32) :
    if 0 ≤ ordinal.toInt ∧ ordinal.toInt < start.evidence.length then
      (workspace.selectEvidenceByOrdinal ordinal).1 = true ∧
        (workspace.selectEvidenceByOrdinal ordinal).2.playback.currentIndex = ordinal.toInt ∧
        ∃ item, start.evidence[ordinal.toInt.toNat]? = some item ∧
          item.timelineEntry.ordinal = ordinal ∧
          (workspace.selectEvidenceByOrdinal ordinal).2.selectedEvidence = some item
    else workspace.selectEvidenceByOrdinal ordinal = (false, workspace) := by
  unfold InvestigationWorkspace.selectEvidenceByOrdinal
  rw [h.evidence]
  split
  · next hinside =>
    have hlt : ordinal.toInt.toNat < start.evidence.length := by omega
    have hplace := List.getElem?_eq_getElem hlt
    have hordinal := (hstart.place _ _ hplace).2
    have hthere : start.evidence[ordinal.toInt.toNat].timelineEntry.ordinal = ordinal :=
      Int32.toInt_inj.mp (by rw [hordinal]; omega)
    cases hfind : start.evidence.find? (·.timelineEntry.ordinal = ordinal) with
    | none =>
      have hnot := List.find?_eq_none.mp hfind _ (List.mem_of_getElem? hplace)
      exact absurd (decide_eq_true hthere) hnot
    | some item =>
      have hitem : item.timelineEntry.ordinal = ordinal := by simpa using List.find?_some hfind
      obtain ⟨place, hfound⟩ := List.mem_iff_getElem?.mp (List.mem_of_find?_eq_some hfind)
      have hsame := (hstart.place place item hfound).2
      rw [hitem] at hsame
      dsimp only
      rw [h.select_at hstart hfound, hsame, Int.toNat_natCast]
      exact ⟨rfl, rfl, item, hfound, hitem, h.selectedEvidence_at hfound⟩
  · next houtside =>
    rw [List.find?_eq_none.mpr fun item hitem => ?_]
    obtain ⟨place, hplace⟩ := List.mem_iff_getElem?.mp hitem
    obtain ⟨hlt, -⟩ := List.getElem?_eq_some_iff.mp hplace
    have hordinal := (hstart.place place item hplace).2
    simp only [decide_eq_true_eq]
    rintro rfl
    omega

end Consistent

/-! ## Runs -/

/-- The operations on filters. -/
def setsFilter : WorkspaceOperation → Bool
  | .setOutcomeFilter _ => true
  | .trySetSessionFilter _ _ => true
  | .trySetSessionFilterText _ _ => true
  | .clearSessionFilter => true
  | _ => false

/-- What the operations on a workspace that was built come to. -/
structure Obeys (round : ℚ → Double) (start workspace : InvestigationWorkspace) : Prop where
  filters : ∀ operation, setsFilter operation = true →
    ((workspaceMachine round).next operation workspace).playback = workspace.playback
  refused : ∀ operation, setsFilter operation = true →
    (∀ reply, (workspaceMachine round).answer operation workspace = .ok reply →
      reply = .flag false) → (workspaceMachine round).next operation workspace = workspace
  selectVisible : ∀ visibleIndex : ℤ,
    if 0 ≤ visibleIndex ∧ visibleIndex < workspace.visibleEvidence.length then
      (workspaceMachine round).answer (.selectVisibleEvidence visibleIndex) workspace =
          .ok (.flag true) ∧
        ((workspaceMachine round).next (.selectVisibleEvidence visibleIndex)
          workspace).selectedVisibleIndex = visibleIndex
    else
      (workspaceMachine round).perform (.selectVisibleEvidence visibleIndex) workspace =
        (.ok (.flag false), workspace)
  selectOrdinal : ∀ ordinal : Int32,
    if 0 ≤ ordinal.toInt ∧ ordinal.toInt < start.evidence.length then
      (workspaceMachine round).answer (.selectEvidenceByOrdinal ordinal) workspace =
          .ok (.flag true) ∧
        ((workspaceMachine round).next (.selectEvidenceByOrdinal ordinal)
          workspace).playback.currentIndex = ordinal.toInt ∧
        ∃ item, start.evidence[ordinal.toInt.toNat]? = some item ∧
          item.timelineEntry.ordinal = ordinal ∧
          ((workspaceMachine round).next (.selectEvidenceByOrdinal ordinal)
            workspace).selectedEvidence = some item
    else
      (workspaceMachine round).perform (.selectEvidenceByOrdinal ordinal) workspace =
        (.ok (.flag false), workspace)

/-- INTERNAL: asking for a session. -/
theorem trySetSessionFilter_keeps (clientId sessionId : UInt64)
    (workspace : InvestigationWorkspace) :
    (workspace.trySetSessionFilter clientId sessionId).2.playback = workspace.playback ∧
      ((workspace.trySetSessionFilter clientId sessionId).1 = false →
        (workspace.trySetSessionFilter clientId sessionId).2 = workspace) := by
  unfold InvestigationWorkspace.trySetSessionFilter
  split
  · split
    · exact ⟨rfl, fun _ => rfl⟩
    · exact ⟨rfl, fun htrue => nomatch htrue⟩
  · exact ⟨rfl, fun _ => rfl⟩

/-- INTERNAL: asking for a session by its texts. -/
theorem trySetSessionFilterText_keeps (clientId sessionId : Option NetString)
    (workspace : InvestigationWorkspace) :
    (workspace.trySetSessionFilterText clientId sessionId).2.playback = workspace.playback ∧
      ((workspace.trySetSessionFilterText clientId sessionId).1 = false →
        (workspace.trySetSessionFilterText clientId sessionId).2 = workspace) := by
  unfold InvestigationWorkspace.trySetSessionFilterText
  split
  · exact ⟨rfl, fun _ => rfl⟩
  · split
    · exact ⟨rfl, fun _ => rfl⟩
    · exact trySetSessionFilter_keeps _ _ workspace

/-- INTERNAL: a reply that is refused tells so. -/
theorem flag_of_refused {value : Bool}
    (h : ∀ reply, (Except.ok (.flag value) : Except NetException Reply) = .ok reply →
      reply = .flag false) : value = false := by
  have hflag := h (.flag value) rfl
  cases hflag
  rfl

/-- INTERNAL: a reply that is done is not refused. -/
theorem not_refused (h : ∀ reply, (Except.ok .done : Except NetException Reply) = .ok reply →
    reply = .flag false) : False := by
  have hflag := h .done rfl
  cases hflag

/-- INTERNAL: an operation on filters keeps the controller, and changes nothing when it is
refused. -/
theorem filter_operation (round : ℚ → Double) (workspace : InvestigationWorkspace)
    {operation : WorkspaceOperation} (hoperation : setsFilter operation = true) :
    ((workspaceMachine round).next operation workspace).playback = workspace.playback ∧
      ((∀ reply, (workspaceMachine round).answer operation workspace = .ok reply →
        reply = .flag false) → (workspaceMachine round).next operation workspace = workspace) := by
  cases operation with
  | setOutcomeFilter filter =>
    simp only [Machine.next, Machine.answer, workspaceMachine]
    cases hset : workspace.setOutcomeFilter filter with
    | error exception => exact ⟨rfl, fun _ => rfl⟩
    | ok after =>
      refine ⟨?_, fun hrefused => (not_refused hrefused).elim⟩
      unfold InvestigationWorkspace.setOutcomeFilter at hset
      split at hset
      · cases hset
      · split at hset <;> · cases hset; rfl
  | trySetSessionFilter clientId sessionId =>
    obtain ⟨hkeeps, hrefuses⟩ := trySetSessionFilter_keeps clientId sessionId workspace
    exact ⟨hkeeps, fun hrefused => hrefuses (flag_of_refused hrefused)⟩
  | trySetSessionFilterText clientId sessionId =>
    obtain ⟨hkeeps, hrefuses⟩ := trySetSessionFilterText_keeps clientId sessionId workspace
    exact ⟨hkeeps, fun hrefused => hrefuses (flag_of_refused hrefused)⟩
  | clearSessionFilter =>
    refine ⟨?_, fun hrefused => (not_refused hrefused).elim⟩
    simp only [Machine.next, workspaceMachine, InvestigationWorkspace.clearSessionFilter]
    split <;> rfl
  | selectEvidenceByTimelineIndex timelineIndex => cases hoperation
  | selectEvidenceByOrdinal ordinal => cases hoperation
  | selectVisibleEvidence visibleIndex => cases hoperation
  | playback operation => cases hoperation

/-- INTERNAL: the operations on a consistent workspace. -/
theorem Consistent.obeys {start workspace : InvestigationWorkspace}
    (h : Consistent start workspace) (hstart : Inspected start) (round : ℚ → Double) :
    Obeys round start workspace where
  filters _ hoperation := (filter_operation round workspace hoperation).1
  refused _ hoperation := (filter_operation round workspace hoperation).2
  selectVisible visibleIndex := by
    have hspec := h.selectVisibleEvidence_spec hstart visibleIndex
    split at hspec
    · next hinside =>
      rw [if_pos hinside]
      exact ⟨congrArg (Except.ok ∘ Reply.flag) hspec.1, hspec.2⟩
    · next houtside =>
      rw [if_neg houtside]
      simp only [workspaceMachine, hspec, flagOf]
  selectOrdinal ordinal := by
    have hspec := h.selectEvidenceByOrdinal_spec hstart ordinal
    split at hspec
    · next hinside =>
      rw [if_pos hinside]
      exact ⟨congrArg (Except.ok ∘ Reply.flag) hspec.1, hspec.2⟩
    · next houtside =>
      rw [if_neg houtside]
      simp only [workspaceMachine, hspec, flagOf]

/-- **Selection and filters stay consistent**: behind any operations on a workspace that was built,
however times are rounded.
SRC: InvestigationWorkspace.cs:359-591, ReplayPlaybackController.cs:50-186, ReplayTimeline.cs:96-127
-/
theorem workspace_consistent (round : ℚ → Double) {parser : TimestampParser}
    {bundle : InvestigationBundle} {seconds : Double} {result : InvestigationWorkspaceBuildResult}
    {start : InvestigationWorkspace}
    (hbuild : buildWorkspace parser (some bundle) seconds = .ok result)
    (hworkspace : result.workspace = some start) (operations : List WorkspaceOperation) :
    Inspected start ∧ Consistent start ((workspaceMachine round).final start operations) ∧
      Obeys round start ((workspaceMachine round).final start operations) := by
  have hinspected := inspected_of_build hbuild hworkspace
  have hconsistent := Machine.final_invariant (m := workspaceMachine round)
    (fun operation workspace (h : Consistent start workspace) => h.next hinspected round operation)
    (consistent_of_build hbuild hworkspace) operations
  exact ⟨hinspected, hconsistent, hconsistent.obeys hinspected round⟩

/-- A record of one session with this outcome. -/
def plainRecord (ordinal : Int32) (outcome : String) : InvestigationEvidenceRecord where
  ordinal
  clientId := some (net "7")
  sessionId := some (net "9")
  commandType := some (net "spawn_entity")
  outcome := some (net outcome)
  previousDigest := some (List.replicate 64 48)
  recordDigest := some (List.replicate 64 48)

/-- A bundle of an accepted and a rejected record. -/
def mixedBundle : InvestigationBundle :=
  { quietBundle [{ quietSession "7" "9" with acceptedCommands := 1, rejectedCommands := 1 }] with
    evidence := some [some (plainRecord 0 "accepted"), some (plainRecord 1 "rejected")]
    replay := some { acceptedCommands := 1, rejectedCommands := 1 } }

/-- Showing the rejected record and selecting it. -/
theorem workspace_consistent_mixed :
    ∃ start : InvestigationWorkspace, start.evidence.length = 2 ∧ Inspected start ∧
      Consistent start ((workspaceMachine Double.finite).final start
        [.setOutcomeFilter .rejected, .selectVisibleEvidence 0]) ∧
      Obeys Double.finite start ((workspaceMachine Double.finite).final start
        [.setOutcomeFilter .rejected, .selectVisibleEvidence 0]) := by
  have hloadable : SessionsLoadable mixedBundle.sessionArray := by
    refine ⟨fun session hsession => ?_, by decide +kernel⟩
    obtain rfl : session =
        { quietSession "7" "9" with acceptedCommands := 1, rejectedCommands := 1 } := by
      simpa [mixedBundle, quietBundle, InvestigationBundle.sessionArray] using hsession
    decide +kernel
  obtain ⟨start, hbuild, hfaithful⟩ := buildWorkspace_of_loadable one_pos
    (show validate (fun _ => true) (some mixedBundle) = [] by decide +kernel) hloadable
  refine ⟨start, ?_, workspace_consistent _ hbuild rfl _⟩
  rw [← hfaithful.evidence.length_eq]
  rfl

end Tickline.Analysis
