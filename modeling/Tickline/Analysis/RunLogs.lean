import Tickline.Analysis.OutputSequence
import Tickline.Analysis.StageLogs
import Tickline.Model.RunLog

/-!
# The files of a run

A file to which a write succeeds has the data behind what it had (`writeAll_ok`), however the
writes were cut.  So where the store reports no error, the files of a stage are the output that the
observer was given: each stream in its own file, and both in the order of delivery in one
(`logHolds_run`).  That order is the one of the numbers exactly as long as deliveries are in order
(`output_in_sequence`).
-/

set_option autoImplicit false

namespace Tickline.Analysis

open Tickline.Library Tickline.Model
open Tickline.Model.RunLog (LogFiles StageFiles Store)
open Tickline.Model.Stage (Action Event NumberedEvent RunLoops Stream)

/-! ## One event -/

theorem writeAll_ok {files : LogFiles} {name : GoString} {fuel : ℕ}
    {content data after : List UInt8} (hfuel : data.length ≤ fuel)
    (h : RunLog.writeAll files name fuel content data = (after, none)) :
    after = content ++ data := by
  induction fuel generalizing content data with
  | zero =>
    obtain rfl := List.length_eq_zero_iff.mp (Nat.le_zero.mp hfuel)
    rw [List.append_nil]
    exact (Prod.mk.inj h).1.symm
  | succ fuel ih =>
    cases data with
    | nil =>
      rw [List.append_nil]
      exact (Prod.mk.inj h).1.symm
    | cons b data =>
      rw [RunLog.writeAll] at h
      · cases hwrite : files.write name content (b :: data) with
        | mk written err =>
          rw [hwrite] at h
          dsimp only at h
          cases err with
          | some err => cases (Prod.mk.inj h).2
          | none =>
            dsimp only at h
            split_ifs at h with hnothing
            · cases (Prod.mk.inj h).2
            · have hrest := ih (by rw [List.length_cons] at hfuel; rw [List.length_drop,
                List.length_cons]; omega) h
              rw [hrest, List.append_assoc, List.take_append_drop]
      · simp

/-- What is in the file of a stream. -/
def fileOf (stage : StageFiles) : Stream → List UInt8
  | .stdout => stage.stdout
  | .stderr => stage.stderr

/-- The files of a stage with another content of the file of a stream. -/
def withFile (stage : StageFiles) (content : List UInt8) : Stream → StageFiles
  | .stdout => { stage with stdout := content }
  | .stderr => { stage with stderr := content }

@[simp] theorem withFile_combined (stage : StageFiles) (content : List UInt8) (stream : Stream) :
    (withFile stage content stream).combined = stage.combined := by
  cases stream <;> rfl

theorem fileOf_withFile (stage : StageFiles) (content combined : List UInt8)
    (stream other : Stream) : fileOf { withFile stage content stream with combined } other =
      if stream = other then content else fileOf stage other := by
  cases stream <;> cases other <;> rfl

/-- Output is written to the file of its stream first, and then to the file of both. -/
theorem write_eq (files : LogFiles) (stage : StageFiles) (stageID : GoString) (stream : Stream)
    (data : List UInt8) : ∃ (name both : GoString) (failed failedBoth : GoString → GoString),
    stage.write files stageID stream data =
      match RunLog.writeAll files name data.length (fileOf stage stream) data with
      | (content, some err) => (withFile stage content stream, some (failed err))
      | (content, none) =>
        ({ withFile stage content stream with
            combined := (RunLog.writeAll files both data.length stage.combined data).1 },
          (RunLog.writeAll files both data.length stage.combined data).2.map failedBoth) := by
  refine ⟨stageID ++ GoString.ascii "." ++ stream.text ++ GoString.ascii ".log",
    stageID ++ GoString.ascii ".combined.log",
    fun err => GoString.ascii "write stage " ++ Stage.quoted stageID ++ GoString.ascii " " ++
      stream.text ++ GoString.ascii " log: " ++ err,
    fun err => GoString.ascii "write stage " ++ Stage.quoted stageID ++
      GoString.ascii " combined log: " ++ err, ?_⟩
  cases stream with
  | stdout =>
    dsimp only [StageFiles.write, fileOf, withFile]
    generalize RunLog.writeAll files _ data.length stage.stdout data = written
    obtain ⟨content, _ | err⟩ := written <;> rfl
  | stderr =>
    dsimp only [StageFiles.write, fileOf, withFile]
    generalize RunLog.writeAll files _ data.length stage.stderr data = written
    obtain ⟨content, _ | err⟩ := written <;> rfl

/-- A write of output that succeeds. -/
theorem write_ok {files : LogFiles} {stage after : StageFiles} {stageID : GoString}
    {stream : Stream} {data : List UInt8}
    (h : stage.write files stageID stream data = (after, none)) :
    after.combined = stage.combined ++ data ∧ ∀ other, fileOf after other =
      fileOf stage other ++ if stream = other then data else [] := by
  obtain ⟨name, both, failed, failedBoth, hwrite⟩ := write_eq files stage stageID stream data
  rw [hwrite] at h
  cases hcontent : RunLog.writeAll files name data.length (fileOf stage stream) data with
  | mk content err =>
    rw [hcontent] at h
    cases err with
    | some err => cases (Prod.mk.inj h).2
    | none =>
      obtain ⟨rfl, hnone⟩ := Prod.mk.inj h
      refine ⟨?_, fun other => ?_⟩
      · exact writeAll_ok (Nat.le_refl _) (Prod.ext rfl (Option.map_eq_none_iff.mp hnone))
      · rw [fileOf_withFile]
        split_ifs with hother
        · rw [← hother]
          exact writeAll_ok (Nat.le_refl _) hcontent
        · exact (List.append_nil _).symm

theorem ensureStage_ok {files : LogFiles} {store after : Store} {stageID : GoString}
    {stage : StageFiles} (h : store.ensureStage files stageID = .ok (after, stage)) :
    after.stages = Function.update store.stages stageID (some stage) ∧
      stage = (store.stages stageID).getD {} := by
  unfold Store.ensureStage at h
  cases hstage : store.stages stageID with
  | some existing =>
    rw [hstage] at h
    obtain ⟨rfl, rfl⟩ := Prod.mk.inj (Except.ok.inj h)
    refine ⟨?_, rfl⟩
    rw [← hstage, Function.update_eq_self]
  | none =>
    rw [hstage] at h
    simp only [Checks.bind_ok_iff] at h
    obtain ⟨-, -, -, -, -, -, hpair⟩ := h
    obtain ⟨rfl, rfl⟩ := Prod.mk.inj (Except.ok.inj hpair)
    exact ⟨rfl, rfl⟩

/-- The output of a stage that is in events. -/
def outputOf (events : List NumberedEvent) (stageID : GoString) : List NumberedEvent :=
  events.filter fun event => event.kind = .stageOutput ∧ event.stageID = stageID

/-- The files of a store hold what is in events. -/
structure LogHolds (store : Store) (events : List NumberedEvent) : Prop where
  missing : ∀ stageID, store.stages stageID = none → outputOf events stageID = []
  combined : ∀ stageID stage, store.stages stageID = some stage →
    stage.combined = (outputOf events stageID).flatMap (·.data)
  streams : ∀ stageID stage, store.stages stageID = some stage → ∀ stream,
    fileOf stage stream = bytesOf events stageID stream

theorem logHolds_new : LogHolds {} [] where
  missing _ _ := rfl
  combined _ _ h := by cases h
  streams _ _ h := by cases h

theorem outputOf_concat (events : List NumberedEvent) (event : NumberedEvent) (stageID : GoString) :
    outputOf (events ++ [event]) stageID = outputOf events stageID ++
      if event.kind = .stageOutput ∧ event.stageID = stageID then [event] else [] := by
  rw [outputOf, List.filter_append]
  congr 1
  split_ifs with hsame
  · simp [hsame]
  · simp only [List.filter_cons, hsame, decide_false, Bool.false_eq_true, if_false, List.filter_nil]

theorem bytesOf_outputOf (events : List NumberedEvent) (stageID : GoString) (stream : Stream) :
    bytesOf events stageID stream =
      ((outputOf events stageID).filter (·.stream = some stream)).flatMap (·.data) := by
  rw [bytesOf, outputOf, List.filter_filter]
  congr 2
  funext event
  simp only [Bool.decide_and]
  cases decide (event.kind = .stageOutput) <;> cases decide (event.stageID = stageID) <;>
    cases decide (event.stream = some stream) <;> rfl

/-- INTERNAL: a stage without files has had no output. -/
theorem LogHolds.before {store : Store} {events : List NumberedEvent} (h : LogHolds store events)
    (stageID : GoString) : ((store.stages stageID).getD {}).combined =
        (outputOf events stageID).flatMap (·.data) ∧
      ∀ stream, fileOf ((store.stages stageID).getD {}) stream = bytesOf events stageID stream := by
  cases hstage : store.stages stageID with
  | none =>
    have hnothing := h.missing stageID hstage
    refine ⟨by rw [hnothing]; rfl, fun stream => ?_⟩
    rw [bytesOf_outputOf, hnothing]
    cases stream <;> rfl
  | some stage => exact ⟨h.combined stageID stage hstage, h.streams stageID stage hstage⟩

/-- INTERNAL: an event that the store has written. -/
theorem LogHolds.concat {store next : Store} {events : List NumberedEvent} {event : NumberedEvent}
    (h : LogHolds store events) {added : StageFiles}
    (hstages : next.stages = Function.update store.stages event.stageID (some added))
    (hcombined : added.combined = ((store.stages event.stageID).getD {}).combined ++
      if event.kind = .stageOutput then event.data else [])
    (hstreams : ∀ stream, fileOf added stream =
      fileOf ((store.stages event.stageID).getD {}) stream ++
        if event.kind = .stageOutput ∧ event.stream = some stream then event.data else []) :
    LogHolds next (events ++ [event]) := by
  have hother : ∀ stageID, stageID ≠ event.stageID → next.stages stageID = store.stages stageID ∧
      outputOf (events ++ [event]) stageID = outputOf events stageID ∧
      ∀ stream, bytesOf (events ++ [event]) stageID stream = bytesOf events stageID stream := by
    intro stageID hne
    refine ⟨by rw [hstages, Function.update_of_ne hne], ?_, fun stream => ?_⟩
    · rw [outputOf_concat, if_neg fun hboth => hne hboth.2.symm, List.append_nil]
    · rw [bytesOf_concat, if_neg fun hall => hne hall.2.1.symm, List.append_nil]
  have hown : ∀ stage, next.stages event.stageID = some stage → stage = added := by
    intro stage hstage
    rw [hstages, Function.update_self] at hstage
    exact (Option.some.inj hstage).symm
  obtain ⟨hbefore, hfiles⟩ := h.before event.stageID
  refine ⟨fun stageID hmissing => ?_, fun stageID stage hstage => ?_,
    fun stageID stage hstage stream => ?_⟩
  · have hne : stageID ≠ event.stageID := by
      rintro rfl
      rw [hstages, Function.update_self] at hmissing
      cases hmissing
    obtain ⟨hsame, houtput, -⟩ := hother stageID hne
    rw [houtput]
    exact h.missing stageID (hsame ▸ hmissing)
  · by_cases hne : stageID = event.stageID
    · subst hne
      rw [hown stage hstage, hcombined, hbefore, outputOf_concat, List.flatMap_append]
      simp only [and_true]
      split_ifs <;> simp
    · obtain ⟨hsame, houtput, -⟩ := hother stageID hne
      rw [houtput]
      exact h.combined stageID stage (hsame ▸ hstage)
  · by_cases hne : stageID = event.stageID
    · subst hne
      rw [hown stage hstage, hstreams, hfiles, bytesOf_concat]
      simp only [true_and]
    · obtain ⟨hsame, -, hbytes⟩ := hother stageID hne
      rw [hbytes]
      exact h.streams stageID stage (hsame ▸ hstage) stream

/-- INTERNAL: an event without output, of which the store writes nothing. -/
theorem LogHolds.skip {store : Store} {events : List NumberedEvent} {event : NumberedEvent}
    (h : LogHolds store events) (hkind : event.kind ≠ .stageOutput) :
    LogHolds store (events ++ [event]) where
  missing stageID hmissing := by
    rw [outputOf_concat, if_neg fun hboth => hkind hboth.1, List.append_nil]
    exact h.missing stageID hmissing
  combined stageID stage hstage := by
    rw [outputOf_concat, if_neg fun hboth => hkind hboth.1, List.append_nil]
    exact h.combined stageID stage hstage
  streams stageID stage hstage stream := by
    rw [bytesOf_concat_silent events hkind]
    exact h.streams stageID stage hstage stream

theorem LogHolds.observe {files : LogFiles} {store next : Store} {events : List NumberedEvent}
    {event : NumberedEvent} (h : LogHolds store events)
    (hobserve : store.observe files event.toEvent = (next, none)) :
    LogHolds next (events ++ [event]) := by
  unfold Store.observe at hobserve
  split_ifs at hobserve with hclosed
  · cases (Prod.mk.inj hobserve).2
  · cases hkind : event.kind with
    | stageStarted =>
      rw [hkind] at hobserve
      dsimp only at hobserve
      cases hensure : store.ensureStage files event.stageID with
      | error err =>
        rw [hensure] at hobserve
        cases (Prod.mk.inj hobserve).2
      | ok pair =>
        obtain ⟨after, stage⟩ := pair
        rw [hensure] at hobserve
        obtain ⟨rfl, -⟩ := Prod.mk.inj hobserve
        obtain ⟨hstages, hstage⟩ := ensureStage_ok hensure
        refine h.concat hstages ?_ fun stream => ?_
        · rw [hkind, if_neg (by simp), List.append_nil, hstage]
        · rw [hkind, if_neg (by simp), List.append_nil, hstage]
    | stageOutput =>
      rw [hkind] at hobserve
      dsimp only at hobserve
      cases hensure : store.ensureStage files event.stageID with
      | error err =>
        rw [hensure] at hobserve
        cases (Prod.mk.inj hobserve).2
      | ok pair =>
        obtain ⟨after, stage⟩ := pair
        rw [hensure] at hobserve
        obtain ⟨hstages, hstage⟩ := ensureStage_ok hensure
        cases hstream : event.stream with
        | none =>
          rw [hstream] at hobserve
          cases (Prod.mk.inj hobserve).2
        | some stream =>
          rw [hstream] at hobserve
          obtain ⟨rfl, hnone⟩ := Prod.mk.inj hobserve
          have hwrite : stage.write files event.stageID stream event.data =
            ((stage.write files event.stageID stream event.data).1, none) := Prod.ext rfl hnone
          obtain ⟨hcombined, hfiles⟩ := write_ok hwrite
          refine h.concat (by rw [hstages, Function.update_idem]) ?_ fun other => ?_
          · rw [hcombined, hstage, hkind, if_pos rfl]
          · rw [hfiles, hstage]
            simp [hkind, hstream]
    | _ =>
      rw [hkind] at hobserve
      obtain ⟨rfl, -⟩ := Prod.mk.inj hobserve
      exact h.skip (by rw [hkind]; simp)

/-- The store behind events, with its first error. -/
def logOfEvents (files : LogFiles) (events : List NumberedEvent) : Store × Option GoString :=
  (events.map (·.toEvent)).foldl (RunLog.observeEvent files) ({}, none)

/-- **The files hold what the observer was given**, where the store reports no error. -/
theorem logHolds_run {files : LogFiles} {events : List NumberedEvent} {store : Store}
    (h : logOfEvents files events = (store, none)) : LogHolds store events := by
  induction events using List.reverseRecOn generalizing store with
  | nil =>
    obtain ⟨rfl, -⟩ := Prod.mk.inj h
    exact logHolds_new
  | append_singleton events event ih =>
    unfold logOfEvents at h
    rw [List.map_append, List.foldl_append] at h
    cases hbefore : logOfEvents files events with
    | mk before err =>
      have hfold : (events.map (·.toEvent)).foldl (RunLog.observeEvent files) ({}, none) =
        (before, err) := hbefore
      rw [hfold] at h
      cases err with
      | some err => cases (Prod.mk.inj h).2
      | none => exact (ih hbefore).observe h

/-! ## The order of the numbers -/

/-- Output that arrives in the order of its numbers, with nothing lost, and is logged in that
order where the store reports no error. -/
structure ArrivesInSequence (state : RunLoops) : Prop where
  rising : (numbersOf state.events).Pairwise (· < ·)
  lossless : ∀ result ∈ state.results, ∀ stream,
    bytesOf state.events result.id stream = returnedBytes result stream
  logged : ∀ files store, logOfEvents files state.events = (store, none) →
    ∀ stageID stage, store.stages stageID = some stage → ∃ ordered : List NumberedEvent,
      ordered.Perm (outputOf state.events stageID) ∧
      ordered.Pairwise (fun event later => event.sequence < later.sequence) ∧
      stage.combined = ordered.flatMap (·.data)

/-- INTERNAL: the numbers of a stage's output rise where all do. -/
theorem outputOf_rising {events : List NumberedEvent}
    (h : (numbersOf events).Pairwise (· < ·)) (stageID : GoString) :
    (outputOf events stageID).Pairwise (fun event later => event.sequence < later.sequence) := by
  have hall : (events.filter (·.kind = .stageOutput)).Pairwise
      (fun event later => event.sequence < later.sequence) := List.pairwise_map.mp h
  have hsublist : (outputOf events stageID).Sublist (events.filter (·.kind = .stageOutput)) := by
    apply List.monotone_filter_right
    intro event hevent
    rw [decide_eq_true_eq] at hevent ⊢
    exact hevent.1
  exact hall.sublist hsublist

/-- **Output arrives in the order of its numbers exactly where every delivery is in order.**
Nothing is lost in any run. -/
theorem output_in_sequence {plan : List Stage.Task} (hdistinct : (plan.map (·.id)).Nodup)
    {actions : List Action} {state : RunLoops}
    (h : Transitions.run RunLoops.step (Stage.startLoops plan) actions = some state) :
    (∀ result ∈ state.results, ∀ stream,
      bytesOf state.events result.id stream = returnedBytes result stream) ∧
    (DeliveredInOrder plan actions → ArrivesInSequence state) ∧
    ((∀ stream, heldNumber state stream = none) → ArrivesInSequence state →
      DeliveredInOrder plan actions) := by
  have hlossless := (captured_run hdistinct h).settled
  refine ⟨hlossless, fun horder => ?_, fun hquiet harrives => inOrder_of_rising h hquiet
    harrives.rising⟩
  have hrising := (rising_run h horder).rising
  refine ⟨hrising, hlossless, fun files store hlog stageID stage hstage => ?_⟩
  refine ⟨outputOf state.events stageID, List.Perm.refl _, outputOf_rising hrising stageID, ?_⟩
  exact (logHolds_run hlog).combined stageID stage hstage

/-- A stage that writes a letter to each stream, up to the end of its run. -/
def twoLetters (first second : Stream) : List Action :=
  [.start, .read .stdout [97] (some .eof), .read .stderr [98] (some .eof), .number .stdout,
    .number .stderr, .deliver first, .deliver second, .settle ⟨0, [], [], none, .succeeded⟩,
    .finish 0]

/-- The end of that run. -/
def lettersEnd (first second : Stream) : RunLoops :=
  (Transitions.run RunLoops.step (Stage.startLoops [docsStage])
    (twoLetters first second)).getD (Stage.startLoops [])

theorem output_in_sequence_letters : DeliveredInOrder [docsStage] (twoLetters .stdout .stderr) ∧
    ArrivesInSequence (lettersEnd .stdout .stderr) := by
  have hrun : Transitions.run RunLoops.step (Stage.startLoops [docsStage])
    (twoLetters .stdout .stderr) = some (lettersEnd .stdout .stderr) := rfl
  have horder := inOrder_of_rising hrun (fun _ => rfl) (by decide)
  exact ⟨horder, (output_in_sequence (by decide) hrun).2.1 horder⟩

theorem letters_out_of_sequence : Transitions.run RunLoops.step (Stage.startLoops [docsStage])
      (twoLetters .stderr .stdout) = some (lettersEnd .stderr .stdout) ∧
    numbersOf (lettersEnd .stderr .stdout).events = [2, 1] ∧
    ¬ ArrivesInSequence (lettersEnd .stderr .stdout) ∧
    ((logOfEvents ⟨fun _ => none, fun _ _ data => (data.length, none)⟩
      (lettersEnd .stderr .stdout).events).1.stages docsStage.id).map (·.combined) =
        some [98, 97] := by
  have hnumbers : numbersOf (lettersEnd .stderr .stdout).events = [2, 1] := by decide
  refine ⟨rfl, hnumbers, fun harrives => ?_, by decide⟩
  have hrising := harrives.rising
  rw [hnumbers] at hrising
  exact absurd hrising (by decide)

end Tickline.Analysis
