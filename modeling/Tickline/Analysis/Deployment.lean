import Tickline.Analysis.Marks
import Tickline.Analysis.Submission

/-!
# Many pipelines, sessions and worlds

Runs in which any number of sessions submit through any number of pipelines to any number
of worlds.  `DeploymentStep` says that a call does to the objects it names what
`SubmitStep` or `WorldStep` says, and nothing to the others.

No step lowers a high-water mark (`DeploymentStep.rises`), and an acceptance is above all
the marks it is checked against.  So what a session accepts is in order, and so is what a
world accepts for one entity, and a world accepts no envelope twice (`accepted_in_order`).
-/

set_option autoImplicit false

namespace Tickline.Analysis

open Tickline.Library Tickline.Model

variable {ι κ π : Type} [DecidableEq ι] [DecidableEq κ] [DecidableEq π]

/-! ## Steps -/

/-- Worlds with the invariant and logs that fit a vector. -/
structure Deployed (d : Deployment ι κ π) : Prop where
  worlds : ∀ k, Sound (d.worlds k)
  logs : ∀ p, LogFits (d.pipelines p).evidence

/-- How a deployment answers one call, and what it becomes. -/
inductive DeploymentStep (d : Deployment ι κ π) :
    DeploymentCall ι κ π → Answer → Deployment ι κ π → Prop
  | submit (p : π) (i : ι) (k : κ) (command : CommandEnvelope) (answer : Answer) (s' : Exchange)
      (h : SubmitStep (d.exchange p i k) command answer s') :
      DeploymentStep d (.submit p i k command) answer (d.withExchange p i k s')
  | addEntity (k : κ) (entity : EntityState) (answer : Answer) (world' : World)
      (h : WorldStep (d.worlds k) (.addEntity entity) answer world') :
      DeploymentStep d (.addEntity k entity) answer (d.withWorld k world')
  | advance (k : κ) (answer : Answer) (world' : World)
      (h : WorldStep (d.worlds k) .advance answer world') :
      DeploymentStep d (.advance k) answer (d.withWorld k world')

/-- Every call is one of the steps. -/
theorem deploymentStep {d : Deployment ι κ π} (h : Deployed d) (call : DeploymentCall ι κ π) :
    DeploymentStep d call (Deployment.machine.answer call d) (Deployment.machine.next call d) := by
  cases call with
  | submit p i k command =>
    exact .submit p i k command _ _ (submitStep (h.worlds k) (h.logs p) command)
  | addEntity k entity => exact .addEntity k entity _ _ (worldStep (h.worlds k).invariant _)
  | advance k => exact .advance k _ _ (worldStep (h.worlds k).invariant _)

/-- One step keeps every world and every log. -/
theorem DeploymentStep.deployed {d d' : Deployment ι κ π} {call : DeploymentCall ι κ π}
    {answer : Answer} (h : Deployed d) (hstep : DeploymentStep d call answer d') : Deployed d' := by
  have hupdate : ∀ k world', Sound world' → ∀ l, Sound (Function.update d.worlds k world' l) := by
    intro k world' hworld l
    rw [Function.update_apply]
    split_ifs
    · exact hworld
    · exact h.worlds l
  cases hstep with
  | submit p i k command answer s' hs =>
    refine ⟨hupdate k _ (hs.sound (h.worlds k)), fun q => ?_⟩
    simp only [Deployment.withExchange, Function.update_apply]
    split_ifs
    · exact hs.logFits (h.logs p)
    · exact h.logs q
  | addEntity k entity answer world' hw =>
    exact ⟨hupdate k _ ⟨hw.invariant (h.worlds k).invariant, hw.fits (h.worlds k).fits⟩, h.logs⟩
  | advance k answer world' hw =>
    exact ⟨hupdate k _ ⟨hw.invariant (h.worlds k).invariant, hw.fits (h.worlds k).fits⟩, h.logs⟩

theorem Deployed.next {d : Deployment ι κ π} (call : DeploymentCall ι κ π) (h : Deployed d) :
    Deployed (Deployment.machine.next call d) :=
  (deploymentStep h call).deployed h

/-! ## Marks rise -/

/-- A submission lowers no mark of its world. -/
theorem SubmitStep.rises {s s' : Exchange} {command : CommandEnvelope} {answer : Answer}
    (hstep : SubmitStep s command answer s') : Rises s.world s'.world := by
  rcases hstep.world with heq | ⟨worldAnswer, hworld⟩
  · rw [heq]
    exact Rises.refl _
  · exact hworld.rises

/-- A submission does not lower the session's sequence. -/
theorem SubmitStep.session_le {s s' : Exchange} {command : CommandEnvelope} {answer : Answer}
    (hstep : SubmitStep s command answer s') :
    s.session.highestAcceptedSequence ≤ s'.session.highestAcceptedSequence := by
  cases hstep with
  | accepted _ _ hcode => exact UInt64.le_of_lt (admissionDecision_eq_none.mp hcode).2
  | _ => exact UInt64.le_refl _

/-- What an accepted submission was ahead of, and where it leaves the three marks. -/
theorem SubmitStep.accepts {s s' : Exchange} {command : CommandEnvelope}
    {result : CommandSubmissionResult} (hstep : SubmitStep s command (.submitted result) s')
    (haccepted : result.accepted = true) :
    Admissible s.session s.world command ∧
      s'.session.highestAcceptedSequence = command.sequence ∧
      s'.world = withCommand s.world (CommandSession.translate command) := by
  cases hstep with
  | refused _ code _ _ hne => exact absurd (of_decide_eq_true haccepted) hne
  | declined _ queueResult _ _ _ hne =>
    exact absurd (commandRejectionFromQueueResult_eq_none.mp (of_decide_eq_true haccepted)) hne
  | accepted _ _ hcode hqueue => exact ⟨admissible_iff.mp ⟨hcode, hqueue⟩, rfl, rfl⟩

/-! ## Acceptances -/

/-- An envelope that a session and a world accepted. -/
structure Acceptance (ι κ : Type) where
  session : ι
  world : κ
  command : CommandEnvelope

/-- The acceptance that a call of a run shows. -/
def acceptance? : DeploymentCall ι κ π × Answer → Option (Acceptance ι κ)
  | (.submit _ session world command, .submitted result) =>
    if result.accepted then some { session, world, command } else none
  | _ => none

/-- The acceptances of a run, in order. -/
def acceptances (trace : List (DeploymentCall ι κ π × Answer)) : List (Acceptance ι κ) :=
  trace.filterMap acceptance?

/-- The marks of a deployment are at or above an acceptance. -/
structure Covered (d : Deployment ι κ π) (a : Acceptance ι κ) : Prop where
  session : a.command.sequence ≤ (d.sessions a.session).highestAcceptedSequence
  known : (d.worlds a.world).entities.contains a.command.payload.entityId = true
  sequence : a.command.sequence ≤ highestOf (d.worlds a.world) a.command.payload.entityId
  target : a.command.targetTick ≤ latestOf (d.worlds a.world) a.command.payload.entityId

/-- One acceptance before another, by session and by entity of a world. -/
structure InOrder (a b : Acceptance ι κ) : Prop where
  session : a.session = b.session → a.command.sequence < b.command.sequence
  entity : a.world = b.world → a.command.payload.entityId = b.command.payload.entityId →
    a.command.sequence < b.command.sequence ∧ a.command.targetTick ≤ b.command.targetTick

/-- No mark of a deployment falls. -/
theorem DeploymentStep.rises {d d' : Deployment ι κ π} {call : DeploymentCall ι κ π}
    {answer : Answer} (hstep : DeploymentStep d call answer d') :
    (∀ i, (d.sessions i).highestAcceptedSequence ≤ (d'.sessions i).highestAcceptedSequence) ∧
      ∀ k, Rises (d.worlds k) (d'.worlds k) := by
  have hupdate : ∀ k world', Rises (d.worlds k) world' →
      ∀ l, Rises (d.worlds l) (Function.update d.worlds k world' l) := by
    intro k world' hworld l
    rw [Function.update_apply]
    split_ifs with hl
    · exact hl ▸ hworld
    · exact Rises.refl _
  cases hstep with
  | submit p i k command answer s' hs =>
    refine ⟨fun j => ?_, hupdate k _ hs.rises⟩
    simp only [Deployment.withExchange, Function.update_apply]
    split_ifs with hj
    · exact hj ▸ hs.session_le
    · exact UInt64.le_refl _
  | addEntity k entity answer world' hw => exact ⟨fun _ => UInt64.le_refl _, hupdate k _ hw.rises⟩
  | advance k answer world' hw => exact ⟨fun _ => UInt64.le_refl _, hupdate k _ hw.rises⟩

/-- What is covered stays covered. -/
theorem DeploymentStep.covered {d d' : Deployment ι κ π} {call : DeploymentCall ι κ π}
    {answer : Answer} (hstep : DeploymentStep d call answer d') {a : Acceptance ι κ}
    (ha : Covered d a) : Covered d' a := by
  obtain ⟨hsession, hworld⟩ := hstep.rises
  obtain ⟨hknown, hsequence, htarget⟩ := hworld a.world _ ha.known
  exact ⟨UInt64.le_trans ha.session (hsession _), hknown, UInt64.le_trans ha.sequence hsequence,
    UInt64.le_trans ha.target htarget⟩

/-- An acceptance is ahead of everything covered, and then covered itself. -/
theorem DeploymentStep.acceptance {d d' : Deployment ι κ π} {call : DeploymentCall ι κ π}
    {answer : Answer} (hstep : DeploymentStep d call answer d') {a : Acceptance ι κ}
    (ha : acceptance? (call, answer) = some a) :
    Covered d' a ∧ ∀ b, Covered d b → InOrder b a := by
  cases hstep with
  | submit p i k command answer s' hs =>
    cases answer with
    | submitted result =>
      simp only [acceptance?, Option.ite_none_right_eq_some, Option.some.injEq] at ha
      obtain ⟨haccepted, rfl⟩ := ha
      obtain ⟨hadmissible, hsession, hworld⟩ := hs.accepts haccepted
      constructor
      · refine ⟨?_, ?_, ?_, ?_⟩
        · simp [Deployment.withExchange, hsession]
        · simp only [Deployment.withExchange, Function.update_self, hworld]
          exact hadmissible.known
        · simp only [Deployment.withExchange, Function.update_self, hworld]
          exact (highestOf_withMarks _ _ _).trans (if_pos rfl) ▸ UInt64.le_refl _
        · simp only [Deployment.withExchange, Function.update_self, hworld]
          exact (latestOf_withMarks _ _ _).trans (if_pos rfl) ▸ UInt64.le_refl _
      · rintro b hb
        refine ⟨fun hi => ?_, fun hk hid => ?_⟩
        · have hle := hb.session
          rw [hi] at hle
          exact UInt64.lt_of_le_of_lt hle hadmissible.sequence.2
        · have hle := hb.sequence
          have htarget := hb.target
          rw [hk, hid] at hle htarget
          exact ⟨UInt64.lt_of_le_of_lt hle hadmissible.entitySequence,
            UInt64.le_trans htarget hadmissible.entityTarget⟩
    | _ => simp [acceptance?] at ha
  | addEntity => simp [acceptance?] at ha
  | advance => simp [acceptance?] at ha

/-- Acceptances come in order. -/
theorem acceptances_inOrder {d : Deployment ι κ π} (h : Deployed d)
    (calls : List (DeploymentCall ι κ π)) :
    (acceptances (Deployment.machine.trace d calls)).Pairwise InOrder :=
  Machine.trace_pairwise (I := Deployed) (C := Covered) (fun call _ => Deployed.next call)
    (fun call _ _ hd ha => (deploymentStep hd call).covered ha)
    (fun call _ _ hd ha => (deploymentStep hd call).acceptance ha) h calls

/-- **No replay.**  In every run from reachable worlds the sequences accepted through one
session increase; the sequences accepted by one world for one entity increase and their
target ticks never fall, through whatever sessions and pipelines they came; and so a world
accepts no envelope twice.
SRC: command_session.cpp:105-149, world.cpp:143-222 -/
theorem accepted_in_order {d : Deployment ι κ π} (hworlds : ∀ k, (d.worlds k).Reachable)
    (hlogs : ∀ p, LogFits (d.pipelines p).evidence) (calls : List (DeploymentCall ι κ π)) :
    let accepted := acceptances (Deployment.machine.trace d calls)
    (∀ i, (accepted.filter fun a => a.session = i).Pairwise
      fun a b => a.command.sequence < b.command.sequence) ∧
    (∀ k id, (accepted.filter fun a => a.world = k ∧ a.command.payload.entityId = id).Pairwise
      fun a b => a.command.sequence < b.command.sequence ∧
        a.command.targetTick ≤ b.command.targetTick) ∧
    ∀ k, ((accepted.filter fun a => a.world = k).map (·.command)).Nodup := by
  intro accepted
  have horder : accepted.Pairwise InOrder :=
    acceptances_inOrder ⟨fun k => reachable_sound (hworlds k), hlogs⟩ calls
  refine ⟨fun i => ?_, fun k id => ?_, fun k => ?_⟩
  · rw [List.pairwise_filter]
    refine horder.imp fun {a b} hab ha hb => hab.session ?_
    exact (of_decide_eq_true ha).trans (of_decide_eq_true hb).symm
  · rw [List.pairwise_filter]
    refine horder.imp fun {a b} hab ha hb => ?_
    obtain ⟨hak, haid⟩ := of_decide_eq_true ha
    obtain ⟨hbk, hbid⟩ := of_decide_eq_true hb
    exact hab.entity (hak.trans hbk.symm) (haid.trans hbid.symm)
  · rw [List.Nodup, List.pairwise_map, List.pairwise_filter]
    refine horder.imp fun {a b} hab ha hb hsame => ?_
    have hworld := (of_decide_eq_true ha).trans (of_decide_eq_true hb).symm
    have hlt := (hab.entity hworld (by rw [hsame])).1
    rw [hsame] at hlt
    exact UInt64.lt_irrefl _ hlt

/-! ## A sample -/

/-- One pipeline, one session and one world. -/
def sampleDeployment : Deployment Unit Unit Unit where
  sessions _ := sampleSession
  worlds _ := sampleWorld
  pipelines _ := {}

/-- The sample command, submitted twice. -/
def sampleCalls : List (DeploymentCall Unit Unit Unit) :=
  [.submit () () () sampleEnvelope, .submit () () () sampleEnvelope]

/-- The sample run accepts the command once. -/
theorem accepted_in_order_sample :
    (((acceptances (Deployment.machine.trace sampleDeployment sampleCalls)).filter
      fun a => a.world = ()).map (·.command)).Nodup :=
  (accepted_in_order (d := sampleDeployment) (fun _ => sampleWorld_reachable)
    (fun _ => Nat.zero_le _) sampleCalls).2.2 ()

end Tickline.Analysis
