import Mathlib.Algebra.Order.BigOperators.Group.List
import Mathlib.Data.Rat.Floor
import Tickline.Model.ForensicsPlayback

/-!
# Playback

Whatever the arithmetic, a controller stays on its timeline and plays only before its last entry
(`Placed`).  With exact times the loop of `Advance` is a division (`advanceLoop_eq`), so that a time
may be cut into slices (`advance_exact`).
-/

set_option autoImplicit false

namespace Tickline.Analysis

open Tickline.Library Tickline.Model.Forensics

/-! ## Positions -/

/-- **A controller on a timeline**: before the first entry only if there is none, and playing only
before the last. -/
structure Placed (timeline : ReplayTimeline) (controller : ReplayPlaybackController) : Prop where
  same : controller.timeline = timeline
  empty : timeline.entries = [] → controller.currentIndex = -1
  inside : timeline.entries ≠ [] →
    0 ≤ controller.currentIndex ∧ controller.currentIndex < timeline.entries.length
  playing : controller.isPlaying = true → controller.currentIndex < timeline.entries.length - 1

namespace Placed

variable {timeline : ReplayTimeline} {controller : ReplayPlaybackController}

/-- INTERNAL: the count of a placed controller. -/
theorem count (h : Placed timeline controller) : controller.count = timeline.entries.length := by
  rw [ReplayPlaybackController.count, h.same]

/-- INTERNAL: a controller that plays is on an entry. -/
theorem nonneg (h : Placed timeline controller) (hplaying : controller.isPlaying = true) :
    0 ≤ controller.currentIndex := by
  have hbefore := h.playing hplaying
  by_cases hentries : timeline.entries = []
  · have hindex := h.empty hentries
    simp [hentries, hindex] at hbefore
  · exact (h.inside hentries).1

/-- INTERNAL: a controller that stops stays where it is. -/
theorem stopped (h : Placed timeline controller) (accumulatedSeconds : Double) :
    Placed timeline { controller with isPlaying := false, accumulatedSeconds } :=
  ⟨h.same, h.empty, h.inside, fun hplaying => nomatch hplaying⟩

theorem pause (h : Placed timeline controller) : Placed timeline controller.pause :=
  h.stopped _

/-- INTERNAL: the time that has accumulated does not matter. -/
theorem accumulated (h : Placed timeline controller) (accumulatedSeconds : Double) :
    Placed timeline { controller with accumulatedSeconds } :=
  ⟨h.same, h.empty, h.inside, h.playing⟩

/-- **What moving does**: it is refused outside of the timeline and changes nothing then. -/
theorem moveTo_eq (h : Placed timeline controller) (index : ℤ) :
    controller.moveTo index =
      if 0 ≤ index ∧ index < timeline.entries.length then
        (true, { controller with currentIndex := index })
      else (false, controller) := by
  unfold ReplayPlaybackController.moveTo
  rw [h.count]
  by_cases hinside : 0 ≤ index ∧ index < timeline.entries.length
  · rw [if_neg (by omega), if_pos hinside]
    split
    · next heq => rw [← heq]
    · rfl
  · rw [if_pos (by omega), if_neg hinside]

/-- INTERNAL: moving keeps a controller that does not play on the timeline. -/
theorem moveTo (h : Placed timeline controller) (hstopped : controller.isPlaying = false)
    (index : ℤ) : Placed timeline (controller.moveTo index).2 := by
  rw [h.moveTo_eq]
  split
  · next hinside =>
    refine ⟨h.same, fun hempty => ?_, fun _ => hinside, fun hplaying => ?_⟩
    · simp only [hempty, List.length_nil, Nat.cast_zero] at hinside
      omega
    · rw [hstopped] at hplaying
      cases hplaying
  · exact h

theorem play (h : Placed timeline controller) : Placed timeline controller.play.2 := by
  unfold ReplayPlaybackController.play
  rw [h.count]
  split
  · exact ⟨h.same, h.empty, h.inside, fun hplaying => nomatch hplaying⟩
  · exact ⟨h.same, h.empty, h.inside, fun _ => by
      show controller.currentIndex < _
      omega⟩

/-- INTERNAL: a seek in one step. -/
theorem seek_eq (h : Placed timeline controller) (index : ℤ) :
    controller.seek index =
      if 0 ≤ index ∧ index < timeline.entries.length then
        (true, { controller.pause with currentIndex := index })
      else (false, controller.pause) := by
  unfold ReplayPlaybackController.seek
  dsimp only
  rw [h.pause.count, h.pause.moveTo_eq]
  split
  · rw [if_neg (by omega)]
  · rfl

theorem seek (h : Placed timeline controller) (index : ℤ) :
    Placed timeline (controller.seek index).2 := by
  have hmoved := h.pause.moveTo rfl index
  rw [h.pause.moveTo_eq] at hmoved
  rw [h.seek_eq]
  split at hmoved
  · next hinside =>
    rw [if_pos hinside]
    exact hmoved
  · next hinside =>
    rw [if_neg hinside]
    exact hmoved

theorem reset (h : Placed timeline controller) : Placed timeline controller.reset := by
  unfold ReplayPlaybackController.reset
  rw [h.count]
  refine ⟨h.same, fun hempty => ?_, fun hentries => ?_, fun hplaying => nomatch hplaying⟩
  · simp [hempty]
  · have hpos : 0 < timeline.entries.length := List.length_pos_iff.mpr hentries
    show 0 ≤ (if _ then _ else _ : ℤ) ∧ (if _ then _ else _ : ℤ) < _
    rw [if_neg (by omega)]
    omega

/-- **One round of the loop** moves on by one, and stops at the last entry. -/
theorem advanceRound_eq (h : Placed timeline controller) (hplaying : controller.isPlaying = true)
    (round : ℚ → Double) :
    controller.advanceRound round =
      if controller.currentIndex + 1 < timeline.entries.length - 1 then
        (1, { controller with
          accumulatedSeconds := controller.accumulatedSeconds.sub round controller.secondsPerEntry
          currentIndex := controller.currentIndex + 1 })
      else (1, { controller with
        accumulatedSeconds := .finite 0
        isPlaying := false
        currentIndex := controller.currentIndex + 1 }) := by
  have hbefore := h.playing hplaying
  have hnonneg := h.nonneg hplaying
  have hmoved := (h.accumulated
    (controller.accumulatedSeconds.sub round controller.secondsPerEntry)).moveTo_eq
      (controller.currentIndex + 1)
  rw [if_pos (by omega)] at hmoved
  unfold ReplayPlaybackController.advanceRound
  dsimp only
  rw [hmoved]
  dsimp only
  rw [if_neg (by simp)]
  have hcount : ({ controller with
      accumulatedSeconds := controller.accumulatedSeconds.sub round controller.secondsPerEntry
      currentIndex := controller.currentIndex + 1 } : ReplayPlaybackController).count =
        timeline.entries.length := h.count
  rw [hcount]
  by_cases hlast : controller.currentIndex + 1 < timeline.entries.length - 1
  · rw [if_neg (by omega), if_pos hlast]
  · rw [if_pos (by omega), if_neg hlast]
    rfl

theorem advanceRound (h : Placed timeline controller) (hplaying : controller.isPlaying = true)
    (round : ℚ → Double) : Placed timeline (controller.advanceRound round).2 := by
  have hbefore := h.playing hplaying
  have hnonneg := h.nonneg hplaying
  have hnot : timeline.entries = [] → False := fun hempty => by
    simp only [hempty, List.length_nil, Nat.cast_zero] at hbefore
    omega
  rw [h.advanceRound_eq hplaying]
  split
  · next hlast =>
    exact ⟨h.same, fun hempty => (hnot hempty).elim, fun _ => by
      show 0 ≤ controller.currentIndex + 1 ∧ controller.currentIndex + 1 < _
      omega, fun _ => hlast⟩
  · exact ⟨h.same, fun hempty => (hnot hempty).elim, fun _ => by
      show 0 ≤ controller.currentIndex + 1 ∧ controller.currentIndex + 1 < _
      omega, fun hplaying => nomatch hplaying⟩

theorem advanceLoop (h : Placed timeline controller) (round : ℚ → Double) (fuel : ℕ) :
    Placed timeline (controller.advanceLoop round fuel).2 := by
  induction fuel generalizing controller with
  | zero => exact h
  | succ fuel ih =>
    rw [ReplayPlaybackController.advanceLoop]
    split
    · next hgoes => exact ih (h.advanceRound (Bool.and_eq_true_iff.mp hgoes).1 round)
    · exact h

/-- **Every operation keeps a controller on its timeline.** -/
theorem next (h : Placed timeline controller) (round : ℚ → Double)
    (operation : PlaybackOperation) :
    Placed timeline ((playbackMachine round).next operation controller) := by
  cases operation with
  | play => exact h.play
  | pause => exact h.pause
  | setPlaybackSpeed speed =>
    simp only [Machine.next, playbackMachine, ReplayPlaybackController.setPlaybackSpeed]
    split
    · exact h
    · exact ⟨h.same, h.empty, h.inside, h.playing⟩
  | advance elapsedSeconds =>
    simp only [Machine.next, playbackMachine, ReplayPlaybackController.advance]
    split
    · exact h
    · split
      · exact h
      · exact (h.accumulated _).advanceLoop round _
  | stepForward => exact h.pause.moveTo rfl _
  | stepBackward => exact h.pause.moveTo rfl _
  | seek index => exact h.seek index
  | seekToTick targetTick =>
    simp only [Machine.next, playbackMachine, flagOf, ReplayPlaybackController.seekToTick]
    split
    · exact h.seek _
    · exact h
  | reset => exact h.reset

end Placed

/-- INTERNAL: a controller that was made stands at the start, with a finite time for each entry. -/
theorem make_ok {timeline : ReplayTimeline} {secondsPerEntry : Double}
    {controller : ReplayPlaybackController}
    (h : ReplayPlaybackController.make timeline secondsPerEntry = .ok controller) :
    ∃ seconds, secondsPerEntry = .finite seconds ∧ 0 < seconds ∧ controller = {
      timeline, secondsPerEntry
      accumulatedSeconds := .finite 0
      currentIndex := if timeline.entries.length = 0 then -1 else 0
      isPlaying := false
      playbackSpeed := .finite 1 } := by
  unfold ReplayPlaybackController.make at h
  cases secondsPerEntry with
  | nan => cases h
  | infinity negative => cases h
  | finite seconds =>
    dsimp only [Double.notPositive] at h
    split at h
    · cases h
    · next hpositive =>
      cases h
      exact ⟨seconds, rfl, by simpa using hpositive, rfl⟩

theorem placed_of_make {timeline : ReplayTimeline} {secondsPerEntry : Double}
    {controller : ReplayPlaybackController}
    (h : ReplayPlaybackController.make timeline secondsPerEntry = .ok controller) :
    Placed timeline controller := by
  obtain ⟨seconds, -, -, rfl⟩ := make_ok h
  refine ⟨rfl, fun hempty => by simp [hempty], fun hentries => ?_, fun hplaying => nomatch hplaying⟩
  have hpos : 0 < timeline.entries.length := List.length_pos_iff.mpr hentries
  show 0 ≤ (if _ then _ else _ : ℤ) ∧ (if _ then _ else _ : ℤ) < _
  rw [if_neg (by omega)]
  omega

/-! ## Exact times -/

/-- INTERNAL: a loop whose condition fails is over. -/
theorem advanceLoop_of_not_goesOn {controller : ReplayPlaybackController}
    (h : controller.goesOn = false) (round : ℚ → Double) (fuel : ℕ) :
    controller.advanceLoop round fuel = (0, controller) := by
  cases fuel with
  | zero => rfl
  | succ fuel =>
    rw [ReplayPlaybackController.advanceLoop, if_neg]
    simp [h]

/-- Where playback is behind a time that has accumulated: a whole number of entries on, with the
rest of the time kept, or stopped at the last entry. -/
def playedTo (seconds total : ℚ) (controller : ReplayPlaybackController) :
    ℕ × ReplayPlaybackController :=
  if controller.count - 1 - controller.currentIndex ≤ ⌊total / seconds⌋ then
    ((controller.count - 1 - controller.currentIndex).toNat, { controller with
      accumulatedSeconds := .finite 0
      isPlaying := false
      currentIndex := controller.count - 1 })
  else
    (⌊total / seconds⌋.toNat, { controller with
      accumulatedSeconds := .finite (total - ⌊total / seconds⌋ * seconds)
      currentIndex := controller.currentIndex + ⌊total / seconds⌋ })

/-- INTERNAL: a time that reaches the last entry. -/
theorem playedTo_stopped {seconds total : ℚ} {controller : ReplayPlaybackController}
    (h : controller.count - 1 - controller.currentIndex ≤ ⌊total / seconds⌋) :
    playedTo seconds total controller =
      ((controller.count - 1 - controller.currentIndex).toNat, { controller with
        accumulatedSeconds := .finite 0
        isPlaying := false
        currentIndex := controller.count - 1 }) := if_pos h

/-- INTERNAL: a time that does not. -/
theorem playedTo_moving {seconds total : ℚ} {controller : ReplayPlaybackController}
    (h : ¬ controller.count - 1 - controller.currentIndex ≤ ⌊total / seconds⌋) :
    playedTo seconds total controller =
      (⌊total / seconds⌋.toNat, { controller with
        accumulatedSeconds := .finite (total - ⌊total / seconds⌋ * seconds)
        currentIndex := controller.currentIndex + ⌊total / seconds⌋ }) := if_neg h

/-- INTERNAL: a time shorter than an entry's moves nothing. -/
theorem playedTo_of_lt {timeline : ReplayTimeline} {controller : ReplayPlaybackController}
    (h : Placed timeline controller) (hplaying : controller.isPlaying = true) {seconds total : ℚ}
    (htotal : 0 ≤ total) (hless : total < seconds)
    (haccumulated : controller.accumulatedSeconds = .finite total) :
    playedTo seconds total controller = (0, controller) := by
  have hpos : 0 < seconds := lt_of_le_of_lt htotal hless
  have hfloor : ⌊total / seconds⌋ = 0 := by
    rw [Int.floor_eq_zero_iff]
    exact ⟨div_nonneg htotal hpos.le, (div_lt_one hpos).mpr hless⟩
  have hbefore := h.playing hplaying
  rw [playedTo, hfloor, h.count, if_neg (by omega)]
  simp [← haccumulated]

/-- INTERNAL: a round takes the time of one entry off. -/
theorem playedTo_of_le {timeline : ReplayTimeline} {controller : ReplayPlaybackController}
    (h : Placed timeline controller) (hplaying : controller.isPlaying = true) {seconds total : ℚ}
    (hpos : 0 < seconds) (hle : seconds ≤ total) :
    playedTo seconds total controller =
      if controller.currentIndex + 1 < timeline.entries.length - 1 then
        let (advanced, after) := playedTo seconds (total - seconds) { controller with
          accumulatedSeconds := .finite (total - seconds)
          currentIndex := controller.currentIndex + 1 }
        (1 + advanced, after)
      else (1, { controller with
        accumulatedSeconds := .finite 0
        isPlaying := false
        currentIndex := controller.currentIndex + 1 }) := by
  have hbefore := h.playing hplaying
  have hone : 1 ≤ ⌊total / seconds⌋ := by
    rw [Int.le_floor]
    exact_mod_cast (one_le_div hpos).mpr hle
  have hfloor : ⌊(total - seconds) / seconds⌋ = ⌊total / seconds⌋ - 1 := by
    rw [sub_div, div_self hpos.ne', Int.floor_sub_one]
  simp only [playedTo, ReplayPlaybackController.count, h.same, hfloor]
  by_cases hlast : controller.currentIndex + 1 < timeline.entries.length - 1
  · rw [if_pos hlast]
    by_cases hstop : (timeline.entries.length : ℤ) - 1 - controller.currentIndex ≤ ⌊total / seconds⌋
    · rw [if_pos hstop, if_pos (by omega)]
      exact Prod.ext (by dsimp only; omega) rfl
    · rw [if_neg hstop, if_neg (by omega)]
      have hrest : total - seconds - ((⌊total / seconds⌋ - 1 : ℤ) : ℚ) * seconds =
          total - ⌊total / seconds⌋ * seconds := by
        push_cast
        ring
      refine Prod.ext (by dsimp only; omega) ?_
      simp only [hrest]
      rw [show controller.currentIndex + 1 + (⌊total / seconds⌋ - 1) =
        controller.currentIndex + ⌊total / seconds⌋ by omega]
  · have hnext : (timeline.entries.length : ℤ) - 1 = controller.currentIndex + 1 := by omega
    rw [if_neg hlast, if_pos (by omega), hnext]
    exact Prod.ext (by dsimp only; omega) rfl

/-- **The loop of `Advance` is a division**: behind enough rounds it has moved by the entries that
the time is worth. -/
theorem advanceLoop_eq {timeline : ReplayTimeline} {controller : ReplayPlaybackController}
    (h : Placed timeline controller) (hplaying : controller.isPlaying = true) {seconds total : ℚ}
    (hpos : 0 < seconds) (htotal : 0 ≤ total)
    (hseconds : controller.secondsPerEntry = .finite seconds)
    (haccumulated : controller.accumulatedSeconds = .finite total) {fuel : ℕ}
    (hfuel : controller.count - 1 - controller.currentIndex ≤ fuel) :
    controller.advanceLoop Double.finite fuel = playedTo seconds total controller := by
  have hbefore := h.playing hplaying
  rw [h.count] at hfuel
  induction fuel generalizing controller total with
  | zero => omega
  | succ fuel ih =>
    by_cases hle : seconds ≤ total
    · have hgoes : controller.goesOn = true := by
        simp [ReplayPlaybackController.goesOn, hplaying, hseconds, haccumulated, Double.atLeast, hle]
      have hsub : controller.accumulatedSeconds.sub Double.finite controller.secondsPerEntry =
          .finite (total - seconds) := by
        simp [hseconds, haccumulated, Double.sub, Double.neg, Double.add, sub_eq_add_neg]
      rw [ReplayPlaybackController.advanceLoop, if_pos hgoes, h.advanceRound_eq hplaying, hsub,
        playedTo_of_le h hplaying hpos hle]
      by_cases hlast : controller.currentIndex + 1 < timeline.entries.length - 1
      · rw [if_pos hlast, if_pos hlast]
        have hnext := h.advanceRound hplaying Double.finite
        rw [h.advanceRound_eq hplaying, if_pos hlast, hsub] at hnext
        dsimp only at hnext ⊢
        rw [ih hnext hplaying (sub_nonneg.mpr hle) hseconds rfl (by dsimp only; omega) hlast]
      · rw [if_neg hlast, if_neg hlast]
        dsimp only
        rw [advanceLoop_of_not_goesOn rfl]
        rfl
    · have hgoes : controller.goesOn = false := by
        simp [ReplayPlaybackController.goesOn, hseconds, haccumulated, Double.atLeast,
          not_le.mp hle]
      rw [advanceLoop_of_not_goesOn hgoes,
        playedTo_of_lt h hplaying htotal (not_le.mp hle) haccumulated]

/-- The times of a controller are exact: less than an entry's time has accumulated. -/
structure Timed (seconds : ℚ) (controller : ReplayPlaybackController) (accumulated speed : ℚ) :
    Prop where
  secondsPerEntry : controller.secondsPerEntry = .finite seconds
  accumulatedSeconds : controller.accumulatedSeconds = .finite accumulated
  playbackSpeed : controller.playbackSpeed = .finite speed
  nonneg : 0 ≤ accumulated
  less : accumulated < seconds
  positive : 0 < speed

/-- INTERNAL: what is left of a time behind its whole entries. -/
theorem rest_of_floor {seconds total : ℚ} (hpos : 0 < seconds) :
    0 ≤ total - ⌊total / seconds⌋ * seconds ∧ total - ⌊total / seconds⌋ * seconds < seconds := by
  have hle := (le_div_iff₀ hpos).mp (Int.floor_le (total / seconds))
  have hlt := (div_lt_iff₀ hpos).mp (Int.lt_floor_add_one (total / seconds))
  constructor
  · linarith
  · linarith

namespace Timed

variable {timeline : ReplayTimeline} {controller : ReplayPlaybackController}
  {seconds accumulated speed : ℚ}

theorem pos (h : Timed seconds controller accumulated speed) : 0 < seconds :=
  lt_of_le_of_lt h.nonneg h.less

/-- INTERNAL: behind a pause no time has accumulated. -/
theorem pause (h : Timed seconds controller accumulated speed) :
    Timed seconds controller.pause 0 speed :=
  ⟨h.secondsPerEntry, rfl, h.playbackSpeed, le_rfl, h.pos, h.positive⟩

/-- INTERNAL: a position is not a time. -/
theorem moved (h : Timed seconds controller accumulated speed) (currentIndex : ℤ) :
    Timed seconds { controller with currentIndex } accumulated speed :=
  ⟨h.secondsPerEntry, h.accumulatedSeconds, h.playbackSpeed, h.nonneg, h.less, h.positive⟩

theorem moveTo (h : Timed seconds controller accumulated speed)
    (hplaced : Placed timeline controller) (index : ℤ) :
    Timed seconds (controller.moveTo index).2 accumulated speed := by
  rw [hplaced.moveTo_eq]
  split
  · exact h.moved index
  · exact h

theorem seek (h : Timed seconds controller accumulated speed)
    (hplaced : Placed timeline controller) (index : ℤ) :
    Timed seconds (controller.seek index).2 0 speed := by
  rw [hplaced.seek_eq]
  split
  · exact h.pause.moved index
  · exact h.pause

/-- INTERNAL: the times behind a time that was played. -/
theorem playedTo (h : Timed seconds controller accumulated speed) (total : ℚ) :
    ∃ rest, Timed seconds (playedTo seconds total controller).2 rest speed := by
  unfold Analysis.playedTo
  split
  · exact ⟨0, h.secondsPerEntry, rfl, h.playbackSpeed, le_rfl, h.pos, h.positive⟩
  · obtain ⟨hnonneg, hless⟩ := @rest_of_floor seconds total h.pos
    exact ⟨_, h.secondsPerEntry, rfl, h.playbackSpeed, hnonneg, hless, h.positive⟩

/-- **Advancing is a division** of the time that has accumulated with it. -/
theorem advance_eq (h : Timed seconds controller accumulated speed)
    (hplaced : Placed timeline controller) {elapsed : ℚ} (helapsed : 0 ≤ elapsed) :
    controller.advance Double.finite (.finite elapsed) =
      .ok (if controller.isPlaying then
        Analysis.playedTo seconds (accumulated + elapsed * speed) controller
      else (0, controller)) := by
  unfold ReplayPlaybackController.advance
  rw [if_neg (by simpa [Double.notFinite, Double.negative] using helapsed)]
  by_cases hplaying : controller.isPlaying = true
  · have hbefore := hplaced.playing hplaying
    have hnonneg := hplaced.nonneg hplaying
    have hcount : controller.count ≠ 0 := by
      rw [hplaced.count]
      omega
    have htime : controller.accumulatedSeconds.add Double.finite
        ((Double.finite elapsed).mul Double.finite controller.playbackSpeed) =
          .finite (accumulated + elapsed * speed) := by
      simp [h.accumulatedSeconds, h.playbackSpeed, Double.mul, Double.add]
    have htotal : 0 ≤ accumulated + elapsed * speed :=
      add_nonneg h.nonneg (mul_nonneg helapsed h.positive.le)
    rw [if_neg (by simp [hplaying, hcount]), htime, if_pos hplaying,
      advanceLoop_eq (hplaced.accumulated (.finite (accumulated + elapsed * speed))) hplaying h.pos
        htotal h.secondsPerEntry rfl]
    · rfl
    · show (controller.count : ℤ) - 1 - controller.currentIndex ≤ _
      rw [hplaced.count, hplaced.same]
      omega
  · rw [if_pos (by simp [hplaying]), if_neg hplaying]

/-- INTERNAL: every operation keeps the times of a controller exact. -/
theorem next (h : Timed seconds controller accumulated speed)
    (hplaced : Placed timeline controller) (operation : PlaybackOperation) :
    ∃ accumulated' speed', Timed seconds
      ((playbackMachine Double.finite).next operation controller) accumulated' speed' := by
  cases operation with
  | play =>
    refine ⟨accumulated, speed, ?_⟩
    simp only [Machine.next, playbackMachine, flagOf, ReplayPlaybackController.play]
    split <;> exact ⟨h.secondsPerEntry, h.accumulatedSeconds, h.playbackSpeed, h.nonneg, h.less,
      h.positive⟩
  | pause => exact ⟨0, speed, h.pause⟩
  | setPlaybackSpeed value =>
    simp only [Machine.next, playbackMachine, ReplayPlaybackController.setPlaybackSpeed]
    split
    · exact ⟨accumulated, speed, h⟩
    · next hvalid =>
      cases value with
      | nan => simp [Double.notFinite] at hvalid
      | infinity negative => simp [Double.notFinite] at hvalid
      | finite value =>
        refine ⟨accumulated, value, h.secondsPerEntry, h.accumulatedSeconds, rfl, h.nonneg, h.less, ?_⟩
        simpa [Double.notFinite, Double.notPositive] using hvalid
  | advance elapsedSeconds =>
    simp only [Machine.next, playbackMachine]
    by_cases hvalid : ∃ elapsed, 0 ≤ elapsed ∧ elapsedSeconds = .finite elapsed
    · obtain ⟨elapsed, helapsed, rfl⟩ := hvalid
      rw [h.advance_eq hplaced helapsed]
      simp only [replyOf]
      split
      · obtain ⟨rest, hrest⟩ := h.playedTo (accumulated + elapsed * speed)
        exact ⟨rest, speed, hrest⟩
      · exact ⟨accumulated, speed, h⟩
    · have hrefused : elapsedSeconds.notFinite || elapsedSeconds.negative := by
        cases elapsedSeconds with
        | nan => rfl
        | infinity negative => rfl
        | finite elapsed =>
          simpa [Double.notFinite, Double.negative] using fun hnonneg => hvalid ⟨elapsed, hnonneg, rfl⟩
      rw [ReplayPlaybackController.advance, if_pos hrefused]
      exact ⟨accumulated, speed, h⟩
  | stepForward => exact ⟨0, speed, h.pause.moveTo hplaced.pause _⟩
  | stepBackward => exact ⟨0, speed, h.pause.moveTo hplaced.pause _⟩
  | seek index => exact ⟨0, speed, h.seek hplaced index⟩
  | seekToTick targetTick =>
    simp only [Machine.next, playbackMachine, flagOf, ReplayPlaybackController.seekToTick]
    split
    · exact ⟨0, speed, h.seek hplaced _⟩
    · exact ⟨accumulated, speed, h⟩
  | reset => exact ⟨0, speed, h.pause.moved _⟩

/-- INTERNAL: advancing keeps a controller on its timeline. -/
theorem placed_of_advance (hplaced : Placed timeline controller) {elapsed : Double}
    {advanced : ℕ} {after : ReplayPlaybackController}
    (h : controller.advance Double.finite elapsed = .ok (advanced, after)) :
    Placed timeline after := by
  have hnext := hplaced.next Double.finite (.advance elapsed)
  simp only [Machine.next, playbackMachine, h] at hnext
  exact hnext

/-- INTERNAL: playing on behind a time that did not reach the last entry. -/
theorem playedTo_add (hpos : 0 < seconds) {total more : ℚ} (htotal : 0 ≤ total) (hmore : 0 ≤ more)
    (hmoving : ¬ controller.count - 1 - controller.currentIndex ≤ ⌊total / seconds⌋) :
    Analysis.playedTo seconds (total + more) controller =
      let (advanced, after) := Analysis.playedTo seconds
        (total - ⌊total / seconds⌋ * seconds + more) (Analysis.playedTo seconds total controller).2
      ((Analysis.playedTo seconds total controller).1 + advanced, after) := by
  have hfloor : ⌊(total - ⌊total / seconds⌋ * seconds + more) / seconds⌋ =
      ⌊(total + more) / seconds⌋ - ⌊total / seconds⌋ := by
    rw [← Int.floor_sub_intCast]
    congr 1
    field_simp
    ring
  have hzero : 0 ≤ ⌊total / seconds⌋ := Int.floor_nonneg.mpr (div_nonneg htotal hpos.le)
  have hgrows : ⌊total / seconds⌋ ≤ ⌊(total + more) / seconds⌋ :=
    Int.floor_le_floor (div_le_div_of_nonneg_right (by linarith) hpos.le)
  rw [playedTo_moving hmoving]
  dsimp only
  by_cases hstop : controller.count - 1 - controller.currentIndex ≤ ⌊(total + more) / seconds⌋
  · rw [playedTo_stopped hstop, playedTo_stopped (by
      show controller.count - 1 - (controller.currentIndex + ⌊total / seconds⌋) ≤ _
      omega)]
    refine Prod.ext ?_ rfl
    show (controller.count - 1 - controller.currentIndex).toNat =
      _ + (controller.count - 1 - (controller.currentIndex + ⌊total / seconds⌋)).toNat
    omega
  · rw [playedTo_moving hstop, playedTo_moving (by
      show ¬ controller.count - 1 - (controller.currentIndex + ⌊total / seconds⌋) ≤ _
      omega), hfloor]
    have hrest : total - ⌊total / seconds⌋ * seconds + more -
        ((⌊(total + more) / seconds⌋ - ⌊total / seconds⌋ : ℤ) : ℚ) * seconds =
          total + more - ⌊(total + more) / seconds⌋ * seconds := by
      push_cast
      ring
    refine Prod.ext (by dsimp only; omega) ?_
    simp only [hrest]
    rw [show controller.currentIndex + ⌊total / seconds⌋ +
      (⌊(total + more) / seconds⌋ - ⌊total / seconds⌋) =
        controller.currentIndex + ⌊(total + more) / seconds⌋ by omega]

/-- **Two slices of a time are as good as one.** -/
theorem advance_add (h : Timed seconds controller accumulated speed)
    (hplaced : Placed timeline controller) {first second : ℚ} (hfirst : 0 ≤ first)
    (hsecond : 0 ≤ second) :
    ∃ advanced advanced' middle after,
      controller.advance Double.finite (.finite first) = .ok (advanced, middle) ∧
      middle.advance Double.finite (.finite second) = .ok (advanced', after) ∧
      controller.advance Double.finite (.finite (first + second)) =
        .ok (advanced + advanced', after) := by
  have hnonneg : ∀ {elapsed : ℚ}, 0 ≤ elapsed → 0 ≤ elapsed * speed :=
    fun helapsed => mul_nonneg helapsed h.positive.le
  have hboth : accumulated + (first + second) * speed =
      accumulated + first * speed + second * speed := by ring
  have hstart := h.advance_eq hplaced hfirst
  have hwhole := h.advance_eq hplaced (add_nonneg hfirst hsecond)
  rw [hboth] at hwhole
  by_cases hplaying : controller.isPlaying = true
  · rw [if_pos hplaying] at hstart hwhole
    obtain ⟨rest, hrest⟩ := h.playedTo (accumulated + first * speed)
    rcases hplayed : Analysis.playedTo seconds (accumulated + first * speed) controller with
      ⟨advanced, middle⟩
    rw [hplayed] at hstart hrest
    have hmiddle := hrest.advance_eq (placed_of_advance hplaced hstart) hsecond
    by_cases hstop : controller.count - 1 - controller.currentIndex ≤
        ⌊(accumulated + first * speed) / seconds⌋
    · -- The first slice reached the last entry, so that the second finds playback stopped.
      have hlater : controller.count - 1 - controller.currentIndex ≤
          ⌊(accumulated + first * speed + second * speed) / seconds⌋ :=
        hstop.trans (Int.floor_le_floor
          (div_le_div_of_nonneg_right (by linarith [hnonneg hsecond]) h.pos.le))
      rw [playedTo_stopped hstop, Prod.mk.injEq] at hplayed
      obtain ⟨rfl, rfl⟩ := hplayed
      rw [if_neg (by simp)] at hmiddle
      rw [playedTo_stopped hlater] at hwhole
      exact ⟨_, _, _, _, hstart, hmiddle, hwhole⟩
    · have hadd := playedTo_add h.pos (add_nonneg h.nonneg (hnonneg hfirst)) (hnonneg hsecond)
        hstop
      rw [hplayed] at hadd
      rw [playedTo_moving hstop, Prod.mk.injEq] at hplayed
      have hstill : middle.isPlaying = true := by
        rw [← hplayed.2]
        exact hplaying
      have hsame : rest = accumulated + first * speed -
          ⌊(accumulated + first * speed) / seconds⌋ * seconds := by
        have htime := hrest.accumulatedSeconds
        rw [← hplayed.2] at htime
        exact (Double.finite.inj htime).symm
      rw [if_pos hstill, hsame] at hmiddle
      rcases hrest' : Analysis.playedTo seconds (accumulated + first * speed -
          ⌊(accumulated + first * speed) / seconds⌋ * seconds + second * speed) middle with
        ⟨advanced', after⟩
      rw [hrest'] at hmiddle hadd
      rw [hadd] at hwhole
      exact ⟨_, _, _, _, hstart, hmiddle, hwhole⟩
  · rw [if_neg hplaying] at hstart hwhole
    have hmiddle := h.advance_eq hplaced hsecond
    rw [if_neg hplaying] at hmiddle
    exact ⟨0, 0, controller, controller, hstart, hmiddle, hwhole⟩

/-- INTERNAL: advancing by no time. -/
theorem advance_zero (h : Timed seconds controller accumulated speed)
    (hplaced : Placed timeline controller) :
    controller.advance Double.finite (.finite 0) = .ok (0, controller) := by
  rw [h.advance_eq hplaced le_rfl, zero_mul, add_zero]
  split
  · next hplaying =>
    rw [playedTo_of_lt hplaced hplaying h.nonneg h.less h.accumulatedSeconds]
  · rfl

/-- **A time may be cut into any slices.** -/
theorem advance_slices (h : Timed seconds controller accumulated speed)
    (hplaced : Placed timeline controller) {slices : List ℚ}
    (hslices : ∀ slice ∈ slices, 0 ≤ slice) :
    ∃ counts : List ℕ,
      (((playbackMachine Double.finite).trace controller
        (slices.map fun slice => .advance (.finite slice))).map (·.2)) =
          counts.map (fun count => .ok (.count count)) ∧
      controller.advance Double.finite (.finite slices.sum) = .ok (counts.sum,
        (playbackMachine Double.finite).final controller
          (slices.map fun slice => .advance (.finite slice))) := by
  induction slices generalizing controller accumulated with
  | nil => exact ⟨[], rfl, h.advance_zero hplaced⟩
  | cons slice slices ih =>
    obtain ⟨hslice, hrest⟩ := List.forall_mem_cons.mp hslices
    obtain ⟨advanced, advanced', middle, after, hfirst, hsecond, hboth⟩ :=
      h.advance_add hplaced hslice (List.sum_nonneg hrest)
    have hperform : (playbackMachine Double.finite).perform (.advance (.finite slice)) controller =
        (.ok (.count advanced), middle) := by
      simp [playbackMachine, hfirst, replyOf]
    have hmiddle : ∃ accumulated', Timed seconds middle accumulated' speed := by
      rw [h.advance_eq hplaced hslice, Except.ok.injEq] at hfirst
      split at hfirst
      · obtain ⟨rest, htimed⟩ := h.playedTo (accumulated + slice * speed)
        rw [hfirst] at htimed
        exact ⟨rest, htimed⟩
      · cases hfirst
        exact ⟨accumulated, h⟩
    obtain ⟨accumulated', htimed⟩ := hmiddle
    obtain ⟨counts, htrace, hsum⟩ := ih htimed (placed_of_advance hplaced hfirst) hrest
    rw [hsum, Except.ok.injEq, Prod.mk.injEq] at hsecond
    refine ⟨advanced :: counts, ?_, ?_⟩
    · rw [List.map_cons, Machine.trace_cons, List.map_cons, List.map_cons, Machine.answer,
        Machine.next, hperform, htrace]
    · rw [List.sum_cons, List.sum_cons, hboth, List.map_cons, Machine.final_cons, Machine.next,
        hperform, hsecond.1, hsecond.2]

end Timed

/-- What a playing controller comes to with a time in all. -/
structure PlayedOn (before : ReplayPlaybackController) (seconds total : ℚ) (advanced : ℕ)
    (after : ReplayPlaybackController) : Prop where
  count : (advanced : ℤ) = min ⌊total / seconds⌋ (before.count - 1 - before.currentIndex)
  index : after.currentIndex = before.currentIndex + advanced
  stops : after.isPlaying = false ↔ after.currentIndex = before.count - 1
  stopped : after.isPlaying = false → after.accumulatedSeconds = .finite 0
  goesOn : after.isPlaying = true → after.accumulatedSeconds = .finite (total - advanced * seconds)

/-- INTERNAL: where playback is behind a time. -/
theorem advanced_playedTo {timeline : ReplayTimeline} {controller : ReplayPlaybackController}
    (h : Placed timeline controller) (hplaying : controller.isPlaying = true) {seconds total : ℚ}
    (hpos : 0 < seconds) (htotal : 0 ≤ total) :
    PlayedOn controller seconds total (playedTo seconds total controller).1
      (playedTo seconds total controller).2 := by
  have hbefore := h.playing hplaying
  have hcount := h.count
  have hfloor : 0 ≤ ⌊total / seconds⌋ := Int.floor_nonneg.mpr (div_nonneg htotal hpos.le)
  by_cases hstop : controller.count - 1 - controller.currentIndex ≤ ⌊total / seconds⌋
  · rw [playedTo_stopped hstop]
    exact ⟨by dsimp only; omega, by dsimp only; omega, by simp, fun _ => rfl,
      fun hstill => nomatch hstill⟩
  · rw [playedTo_moving hstop]
    refine ⟨by dsimp only; omega, by dsimp only; omega, ?_, ?_, fun _ => ?_⟩
    · simp only [hplaying, Bool.true_eq_false, false_iff]
      omega
    · simp [hplaying]
    · have hcast : ((⌊total / seconds⌋.toNat : ℕ) : ℚ) = ⌊total / seconds⌋ := by
        exact_mod_cast Int.toNat_of_nonneg hfloor
      simp only [hcast]

/-- **Playback in exact time** from a controller on: what advancing a playing one comes to, in at
most one round for each entry but one, and that a time may be cut into slices. -/
structure ExactPlayback (seconds : ℚ) (controller : ReplayPlaybackController) : Prop where
  advances : ∀ accumulated speed, controller.accumulatedSeconds = .finite accumulated →
    controller.playbackSpeed = .finite speed → controller.isPlaying = true →
    ∀ elapsed, 0 ≤ elapsed → ∃ advanced after,
      controller.advance Double.finite (.finite elapsed) = .ok (advanced, after) ∧
      PlayedOn controller seconds (accumulated + elapsed * speed) advanced after ∧
      after.goesOn = false ∧
      ∀ rounds : ℕ, controller.count - 1 ≤ rounds →
        ReplayPlaybackController.advanceLoop Double.finite rounds { controller with
          accumulatedSeconds := .finite (accumulated + elapsed * speed) } = (advanced, after)
  adds : ∀ first second, 0 ≤ first → 0 ≤ second → ∃ advanced advanced' middle after,
    controller.advance Double.finite (.finite first) = .ok (advanced, middle) ∧
    middle.advance Double.finite (.finite second) = .ok (advanced', after) ∧
    controller.advance Double.finite (.finite (first + second)) = .ok (advanced + advanced', after)
  slices : ∀ slices : List ℚ, (∀ slice ∈ slices, 0 ≤ slice) → ∃ counts : List ℕ,
    ((playbackMachine Double.finite).trace controller
      (slices.map fun slice => .advance (.finite slice))).map (·.2) =
        counts.map (fun count => .ok (.count count)) ∧
    controller.advance Double.finite (.finite slices.sum) = .ok (counts.sum,
      (playbackMachine Double.finite).final controller
        (slices.map fun slice => .advance (.finite slice)))

/-- INTERNAL: a controller with exact times plays in exact time. -/
theorem Timed.exactPlayback {timeline : ReplayTimeline} {controller : ReplayPlaybackController}
    {seconds accumulated speed : ℚ} (h : Timed seconds controller accumulated speed)
    (hplaced : Placed timeline controller) : ExactPlayback seconds controller where
  advances accumulated' speed' haccumulated hspeed hplaying elapsed helapsed := by
    obtain rfl := Double.finite.inj (h.accumulatedSeconds.symm.trans haccumulated)
    obtain rfl := Double.finite.inj (h.playbackSpeed.symm.trans hspeed)
    have htotal : 0 ≤ accumulated + elapsed * speed :=
      add_nonneg h.nonneg (mul_nonneg helapsed h.positive.le)
    have hadvance := h.advance_eq hplaced helapsed
    rw [if_pos hplaying] at hadvance
    obtain ⟨rest, hrest⟩ := h.playedTo (accumulated + elapsed * speed)
    refine ⟨_, _, hadvance, advanced_playedTo hplaced hplaying h.pos htotal, ?_, ?_⟩
    · show (Analysis.playedTo seconds (accumulated + elapsed * speed) controller).2.goesOn = false
      rw [ReplayPlaybackController.goesOn, hrest.accumulatedSeconds, hrest.secondsPerEntry]
      simp [Double.atLeast, hrest.less]
    · intro rounds hrounds
      have hnonneg := hplaced.nonneg hplaying
      refine advanceLoop_eq (hplaced.accumulated (.finite (accumulated + elapsed * speed))) hplaying
        h.pos htotal h.secondsPerEntry rfl ?_
      show controller.count - 1 - controller.currentIndex ≤ _
      omega
  adds _ _ hfirst hsecond := h.advance_add hplaced hfirst hsecond
  slices _ hslices := h.advance_slices hplaced hslices

/-- **Playback time is exact and does not depend on how it is sliced**: behind any operations on a
new controller.
SRC: ReplayPlaybackController.cs:81-121, 171-186 -/
theorem advance_exact {timeline : ReplayTimeline} {seconds : ℚ} {start : ReplayPlaybackController}
    (hmake : ReplayPlaybackController.make timeline (.finite seconds) = .ok start)
    (operations : List PlaybackOperation) :
    ExactPlayback seconds ((playbackMachine Double.finite).final start operations) := by
  have hstart : Placed timeline start ∧ ∃ accumulated speed, Timed seconds start accumulated speed := by
    refine ⟨placed_of_make hmake, 0, 1, ?_⟩
    obtain ⟨seconds', heq, hpos, rfl⟩ := make_ok hmake
    cases heq
    exact ⟨rfl, rfl, rfl, le_rfl, hpos, one_pos⟩
  have hstep : ∀ operation controller,
      (Placed timeline controller ∧ ∃ accumulated speed, Timed seconds controller accumulated speed) →
      Placed timeline ((playbackMachine Double.finite).next operation controller) ∧
        ∃ accumulated speed, Timed seconds
          ((playbackMachine Double.finite).next operation controller) accumulated speed := by
    rintro operation controller ⟨hplaced, accumulated, speed, htimed⟩
    exact ⟨hplaced.next _ operation, htimed.next hplaced operation⟩
  obtain ⟨hplaced, accumulated, speed, htimed⟩ := Machine.final_invariant hstep hstart operations
  exact htimed.exactPlayback hplaced

/-- An entry of a timeline, with nothing but its place. -/
def placeEntry (index : ℕ) : ReplayTimelineEntry where
  index
  ordinal := Int32.ofNat index
  clientId := none
  sessionId := none
  sessionSequence := 0
  targetTick := 0
  commandType := none
  outcome := none
  rejectionCode := none
  previousDigest := none
  recordDigest := none

/-- A timeline of three entries. -/
def threeEntries : ReplayTimeline where
  archiveDigest := none
  initialHeadDigest := none
  trustedHeadDigest := none
  replay := none
  entries := [placeEntry 0, placeEntry 1, placeEntry 2]

/-- The start of that timeline, with half a second for each entry. -/
def halfSeconds : ReplayPlaybackController where
  timeline := threeEntries
  secondsPerEntry := .finite (1 / 2)
  accumulatedSeconds := .finite 0
  currentIndex := 0
  isPlaying := false
  playbackSpeed := .finite 1

/-- Playing it at twice the speed. -/
theorem advance_exact_three :
    ExactPlayback (1 / 2) ((playbackMachine Double.finite).final halfSeconds
      [.setPlaybackSpeed (.finite 2), .play]) := by
  refine advance_exact (show ReplayPlaybackController.make threeEntries (.finite (1 / 2)) =
    .ok halfSeconds from ?_) _
  unfold ReplayPlaybackController.make
  rw [if_neg (by norm_num [Double.notPositive])]
  rfl

end Tickline.Analysis
