import Tickline.Analysis.WorldSpec
import Tickline.Model.Runs

/-!
# What a session and a world accept

The decision about an envelope is made in three places with their own orders of checks:
the validator (`validationDecision`), the session (`admissionDecision`) and the world
(`queueDecision`).  `Admissible` says what all three together accept, with the window of
target ticks over the naturals (`admissible_iff`).
-/

set_option autoImplicit false

namespace Tickline.Analysis

open Tickline.Library Tickline.Model

/-! ## Admission -/

/-- The validator compares both axes with its own limit.
SRC: command_validator.cpp:114-128 -/
theorem validatorVelocity_eq (validator : CommandValidator) (velocity : Velocity2) :
    validator.velocityIsValid velocity =
      .ok (decide (VelocityWithin validator.policy.maxAbsVelocity velocity)) :=
  within_both (int64_lt_iff.mp validator.velocity_positive) velocity.x.count velocity.y.count

/-- The code the validator gives an envelope, against the session's own identity.
SRC: command_validator.cpp:46-112 -/
def validationDecision (session : CommandSession) (command : CommandEnvelope) (tick : UInt64) :
    CommandRejectionCode :=
  if command.schemaVersion ≠ commandSchemaVersion then .unsupportedSchemaVersion
  else if command.type ≠ .setVelocity then .unsupportedCommandType
  else if (!command.clientId.valid) = true then .invalidClientId
  else if (!command.sessionId.valid) = true then .invalidSessionId
  else if command.clientId ≠ session.clientId then .clientIdentityMismatch
  else if command.sessionId ≠ session.sessionId then .sessionIdentityMismatch
  else if command.sequence = 0 then .sequenceZero
  else if command.targetTick ≤ tick then .staleTargetTick
  else if session.validator.policy.maximumFutureTicks < command.targetTick - tick then
    .targetTickTooFarFuture
  else if ¬ VelocityWithin session.validator.policy.maxAbsVelocity command.payload.velocity then
    .velocityOutOfRange
  else .none

/-- INTERNAL: a chain of checks that each return a code returns the chain's code. -/
theorem ite_code {c : Prop} [Decidable c] {x y : Except Fault CommandValidationResult}
    {a b : CommandRejectionCode} (hx : x = .ok ⟨a⟩) (hy : y = .ok ⟨b⟩) :
    (if c then x else y) = .ok ⟨if c then a else b⟩ := by
  by_cases hc : c
  · rw [if_pos hc, if_pos hc, hx]
  · rw [if_neg hc, if_neg hc, hy]

/-- The validator decides by `validationDecision`; a session's identity is never zero. -/
theorem validate_eq (session : CommandSession) (command : CommandEnvelope) (tick : UInt64) :
    session.validator.validate command
      { authenticatedClientId := session.clientId, activeSessionId := session.sessionId,
        currentTick := tick } = .ok ⟨validationDecision session command tick⟩ := by
  have hclient : ¬ (!session.clientId.valid) = true := by simp [session.client_valid]
  have hsession : ¬ (!session.sessionId.valid) = true := by simp [session.session_valid]
  unfold CommandValidator.validate
  rw [if_neg hclient, if_neg hsession, validatorVelocity_eq]
  refine ite_code rfl (ite_code rfl (ite_code rfl (ite_code rfl (ite_code rfl (ite_code rfl
    (ite_code rfl (ite_code rfl (ite_code rfl ?_))))))))
  by_cases hvelocity :
      VelocityWithin session.validator.policy.maxAbsVelocity command.payload.velocity
  · simp only [hvelocity]
    rfl
  · simp only [hvelocity]
    rfl

/-- The code the session gives an envelope.
SRC: command_session.cpp:105-132 -/
def admissionDecision (session : CommandSession) (command : CommandEnvelope) (tick : UInt64) :
    CommandRejectionCode :=
  if validationDecision session command tick ≠ .none then validationDecision session command tick
  else if command.sequence = session.highestAcceptedSequence then .duplicateSequence
  else if command.sequence < session.highestAcceptedSequence then .sequenceRegression
  else .none

/-- INTERNAL: a rejection can be made of every code but `none`.
SRC: command_session.cpp:19-32 -/
theorem reject_eq {code : CommandRejectionCode} (h : code ≠ .none) :
    ∃ admission, CommandAdmissionResult.reject code = .ok admission ∧ admission.code = code ∧
      admission.command = none := by
  have hconsistent : code = .none ↔ (none : Option VelocityCommand).isSome = true := by simp [h]
  refine ⟨⟨code, none, hconsistent⟩, ?_, rfl, rfl⟩
  rw [CommandAdmissionResult.reject, if_neg h, CommandAdmissionResult.make, dif_pos hconsistent]

/-- **The session** decides by `admissionDecision`, and an admitted envelope comes with its
translation.
SRC: command_session.cpp:105-143 -/
theorem evaluate_eq (session : CommandSession) (command : CommandEnvelope) (tick : UInt64) :
    ∃ admission, session.evaluate command tick = .ok admission ∧
      admission.code = admissionDecision session command tick ∧
      (admission.code = .none → admission.command = some (CommandSession.translate command)) := by
  have hvalidate := validate_eq session command tick
  by_cases hvalid : validationDecision session command tick = .none
  · by_cases hsame : command.sequence = session.highestAcceptedSequence
    · obtain ⟨admission, hreject, hcode, -⟩ :=
        reject_eq (show CommandRejectionCode.duplicateSequence ≠ .none by decide)
      refine ⟨admission, ?_, ?_, fun h => absurd (hcode.symm.trans h) (by decide)⟩
      · simp [CommandSession.evaluate, hvalidate, CommandValidationResult.accepted, hvalid, hsame,
          hreject, bind, Except.bind]
      · simp [admissionDecision, hvalid, hsame, hcode]
    · by_cases hless : command.sequence < session.highestAcceptedSequence
      · obtain ⟨admission, hreject, hcode, -⟩ :=
          reject_eq (show CommandRejectionCode.sequenceRegression ≠ .none by decide)
        refine ⟨admission, ?_, ?_, fun h => absurd (hcode.symm.trans h) (by decide)⟩
        · simp [CommandSession.evaluate, hvalidate, CommandValidationResult.accepted, hvalid, hsame,
            hless, hreject, bind, Except.bind]
        · simp [admissionDecision, hvalid, hsame, hless, hcode]
      · refine ⟨⟨.none, some (CommandSession.translate command), by simp⟩, ?_, ?_, fun _ => rfl⟩
        · simp [CommandSession.evaluate, hvalidate, CommandValidationResult.accepted, hvalid, hsame,
            hless, CommandAdmissionResult.accept, CommandAdmissionResult.make, bind, Except.bind]
        · simp [admissionDecision, hvalid, hsame, hless]
  · obtain ⟨admission, hreject, hcode, -⟩ := reject_eq hvalid
    refine ⟨admission, ?_, ?_, fun h => absurd (hcode.symm.trans h) hvalid⟩
    · simp [CommandSession.evaluate, hvalidate, CommandValidationResult.accepted, hvalid, hreject,
        bind, Except.bind]
    · simp [admissionDecision, hvalid, hcode]

/-- An envelope with no rejection code is admitted, with its translation. -/
theorem evaluate_admitted {session : CommandSession} {command : CommandEnvelope} {tick : UInt64}
    (h : admissionDecision session command tick = .none) :
    ∃ admission, session.evaluate command tick = .ok admission ∧ admission.accepted = true ∧
      admission.command = some (CommandSession.translate command) := by
  obtain ⟨admission, hevaluate, hcode, hcommand⟩ := evaluate_eq session command tick
  rw [h] at hcode
  exact ⟨admission, hevaluate, decide_eq_true hcode, hcommand hcode⟩

/-- An envelope with a rejection code is refused with it. -/
theorem evaluate_refused {session : CommandSession} {command : CommandEnvelope} {tick : UInt64}
    {code : CommandRejectionCode} (h : admissionDecision session command tick = code)
    (hne : code ≠ .none) :
    ∃ admission, session.evaluate command tick = .ok admission ∧ admission.accepted = false ∧
      admission.code = code := by
  obtain ⟨admission, hevaluate, hcode, -⟩ := evaluate_eq session command tick
  rw [h] at hcode
  refine ⟨admission, hevaluate, ?_, hcode⟩
  rw [CommandAdmissionResult.accepted, hcode]
  exact decide_eq_false hne

/-- INTERNAL: every code in a chain of checks is known, so the chain's code is. -/
theorem ite_known {c : Prop} [Decidable c] {a b : CommandRejectionCode}
    (ha : isKnownRejectionCode a = true) (hb : isKnownRejectionCode b = true) :
    isKnownRejectionCode (if c then a else b) = true := by
  split_ifs <;> assumption

/-- The session gives known codes only. -/
theorem isKnown_admissionDecision (session : CommandSession) (command : CommandEnvelope)
    (tick : UInt64) : isKnownRejectionCode (admissionDecision session command tick) = true := by
  have hvalid : isKnownRejectionCode (validationDecision session command tick) = true := by
    unfold validationDecision
    iterate 10 refine ite_known (by decide) ?_
    decide
  exact ite_known hvalid (ite_known (by decide) (ite_known (by decide) (by decide)))

/-! ## What is accepted -/

/-- What a session and a world accept, with the window of target ticks over the naturals. -/
structure Admissible (session : CommandSession) (world : World) (command : CommandEnvelope) :
    Prop where
  schemaVersion : command.schemaVersion = commandSchemaVersion
  type : command.type = .setVelocity
  clientId : command.clientId.value ≠ 0 ∧ command.clientId = session.clientId
  sessionId : command.sessionId.value ≠ 0 ∧ command.sessionId = session.sessionId
  sequence : command.sequence ≠ 0 ∧ session.highestAcceptedSequence < command.sequence
  future : world.currentTick.index.toNat < command.targetTick.toNat
  near : command.targetTick.toNat ≤
    world.currentTick.index.toNat + session.validator.policy.maximumFutureTicks.toNat
  sessionVelocity :
    VelocityWithin session.validator.policy.maxAbsVelocity command.payload.velocity
  worldVelocity : VelocityWithin world.limits.maxAbsVelocity command.payload.velocity
  known : world.entities.contains command.payload.entityId = true
  entitySequence : highestOf world command.payload.entityId < command.sequence
  entityTarget : latestOf world command.payload.entityId ≤ command.targetTick

/-- INTERNAL: a chain of checks passes when the first check and the rest pass. -/
theorem ite_eq_none {c : Prop} [Decidable c] {a b : CommandRejectionCode} (ha : a ≠ .none) :
    (if c then a else b) = .none ↔ ¬ c ∧ b = .none := by
  by_cases hc : c
  · simp [hc, ha]
  · simp [hc]

/-- What the validator accepts, check by check. -/
theorem validationDecision_eq_none {session : CommandSession} {command : CommandEnvelope}
    {tick : UInt64} :
    validationDecision session command tick = .none ↔
      command.schemaVersion = commandSchemaVersion ∧ command.type = .setVelocity ∧
      command.clientId.value ≠ 0 ∧ command.sessionId.value ≠ 0 ∧
      command.clientId = session.clientId ∧ command.sessionId = session.sessionId ∧
      command.sequence ≠ 0 ∧ tick < command.targetTick ∧
      command.targetTick - tick ≤ session.validator.policy.maximumFutureTicks ∧
      VelocityWithin session.validator.policy.maxAbsVelocity command.payload.velocity := by
  unfold validationDecision
  rw [ite_eq_none (by decide), ite_eq_none (by decide), ite_eq_none (by decide),
    ite_eq_none (by decide), ite_eq_none (by decide), ite_eq_none (by decide),
    ite_eq_none (by decide), ite_eq_none (by decide), ite_eq_none (by decide),
    ite_eq_none (by decide)]
  simp only [not_not, UInt64.not_le, UInt64.not_lt, ClientId.valid, SessionId.valid, ne_eq,
    decide_not, Bool.not_not, decide_eq_true_eq, and_true]

/-- The session accepts what the validator accepts above its highest sequence. -/
theorem admissionDecision_eq_none {session : CommandSession} {command : CommandEnvelope}
    {tick : UInt64} :
    admissionDecision session command tick = .none ↔
      validationDecision session command tick = .none ∧
        session.highestAcceptedSequence < command.sequence := by
  unfold admissionDecision
  by_cases hvalid : validationDecision session command tick = .none
  · rw [if_neg (not_not.mpr hvalid), ite_eq_none (by decide), ite_eq_none (by decide)]
    simp only [hvalid, true_and, and_true, UInt64.not_lt]
    rw [UInt64.le_iff_lt_or_eq]
    constructor
    · rintro ⟨hne, hlt | heq⟩
      · exact hlt
      · exact absurd heq.symm hne
    · intro hlt
      exact ⟨(UInt64.ne_of_lt hlt).symm, Or.inl hlt⟩
  · simp [hvalid]

/-- The two decisions together accept exactly what is admissible. -/
theorem admissible_iff {session : CommandSession} {world : World} {command : CommandEnvelope} :
    admissionDecision session command world.currentTick.index = .none ∧
        queueDecision world (CommandSession.translate command) = .accepted ↔
      Admissible session world command := by
  rw [admissionDecision_eq_none, validationDecision_eq_none, queueDecision_eq_accepted]
  have hwindow : world.currentTick.index < command.targetTick →
      (command.targetTick - world.currentTick.index ≤
          session.validator.policy.maximumFutureTicks ↔
        command.targetTick.toNat ≤
          world.currentTick.index.toNat + session.validator.policy.maximumFutureTicks.toNat) := by
    intro hlt
    rw [UInt64.le_iff_toNat_le, UInt64.toNat_sub_of_le _ _ (UInt64.le_of_lt hlt)]
    omega
  constructor
  · rintro ⟨⟨⟨h1, h2, h3, h4, h5, h6, h7, h8, h9, h10⟩, h11⟩, h12, h13, h14, h15, h16⟩
    exact ⟨h1, h2, ⟨h3, h5⟩, ⟨h4, h6⟩, ⟨h7, h11⟩, UInt64.lt_iff_toNat_lt.mp h8,
      (hwindow h8).mp h9, h10, h16, h13, h14, h15⟩
  · rintro ⟨h1, h2, ⟨h3, h5⟩, ⟨h4, h6⟩, ⟨h7, h11⟩, h8, h9, h10, h16, h13, h14, h15⟩
    have hfuture := UInt64.lt_iff_toNat_lt.mpr h8
    exact ⟨⟨⟨h1, h2, h3, h4, h5, h6, h7, hfuture, (hwindow hfuture).mpr h9, h10⟩, h11⟩,
      hfuture, h13, h14, h15, h16⟩

end Tickline.Analysis
