import Mathlib.Logic.Basic
import L1Agent.Engine.Journal

/-! # The run-level state machine (`engine/state_machine.py`)

The transition table as the source writes it, and what it says about the two
states that matter: `resolved` is entered only from `verified`, and `verified`
only from `verifying` on a passed assertion, or kept over a note.

`transition_verified` and `transition_resolved` say so.  `transition_error` is the state that an
error leads to from everywhere, and `outcomeOf` what is recorded of the state that a run ends in.
-/
namespace L1Agent

/-- `RunState`. -/
inductive RunState where
  | received | matching | binding | executing | verifying | verified
  | policyCheck | awaitingApproval | acting | rollingBack
  | resolved | escalated | needsHuman | aborted
  deriving DecidableEq, Repr

/-- `RunState.value` -/
def RunState.value : RunState → String
  | received => "received"
  | matching => "matching"
  | binding => "binding"
  | executing => "executing"
  | verifying => "verifying"
  | verified => "verified"
  | policyCheck => "policy_check"
  | awaitingApproval => "awaiting_approval"
  | acting => "acting"
  | rollingBack => "rolling_back"
  | resolved => "resolved"
  | escalated => "escalated"
  | needsHuman => "needs_human"
  | aborted => "aborted"

/-- `RunEvent`. -/
inductive RunEvent where
  | start | claimLost | sopMatched | noSop | lowConfidence | sopInvalid
  | paramsBound | paramsInvalid | noteDone | stepDone
  | verifyStarted | verifyPassed | verifyFailed
  | actionStarted | policyDenied | policyShadow | policyRecommend | policyAllowed
  | approvalRequired | approvalGranted | approvalRefused
  | actionNotDone | actionVerified | actionFailed | rollbackDone
  | escalate | resolve | stepsExhausted | error | abort
  deriving DecidableEq, Repr

namespace RunEvent

/-- `RunEvent.value`, the text that a step result carries. -/
def value : RunEvent → String
  | start => "start"
  | claimLost => "claim_lost"
  | sopMatched => "sop_matched"
  | noSop => "no_sop"
  | lowConfidence => "low_confidence"
  | sopInvalid => "sop_invalid"
  | paramsBound => "params_bound"
  | paramsInvalid => "params_invalid"
  | noteDone => "note_done"
  | stepDone => "step_done"
  | verifyStarted => "verify_started"
  | verifyPassed => "verify_passed"
  | verifyFailed => "verify_failed"
  | actionStarted => "action_started"
  | policyDenied => "policy_denied"
  | policyShadow => "policy_shadow"
  | policyRecommend => "policy_recommend"
  | policyAllowed => "policy_allowed"
  | approvalRequired => "approval_required"
  | approvalGranted => "approval_granted"
  | approvalRefused => "approval_refused"
  | actionNotDone => "action_not_done"
  | actionVerified => "action_verified"
  | actionFailed => "action_failed"
  | rollbackDone => "rollback_done"
  | escalate => "escalate"
  | resolve => "resolve"
  | stepsExhausted => "steps_exhausted"
  | error => "error"
  | abort => "abort"

def all : List RunEvent :=
  [start, claimLost, sopMatched, noSop, lowConfidence, sopInvalid, paramsBound, paramsInvalid,
    noteDone, stepDone, verifyStarted, verifyPassed, verifyFailed, actionStarted, policyDenied,
    policyShadow, policyRecommend, policyAllowed, approvalRequired, approvalGranted,
    approvalRefused, actionNotDone, actionVerified, actionFailed, rollbackDone, escalate,
    resolve, stepsExhausted, error, abort]

/-- `RunEvent(name)`; `none` where the source raises `ValueError`. -/
def ofName? : Json → Option RunEvent
  | .str name => all.find? fun e => e.value == name
  | _ => none

end RunEvent

/-- `is_terminal`. -/
def RunState.isTerminal : RunState → Bool
  | .resolved | .escalated | .needsHuman | .aborted => true
  | _ => false

/-- `TRANSITIONS`.  A pair that is not listed has no entry. -/
def transitions : RunState → RunEvent → Option RunState
  | .received, .start => some .matching
  | .received, .claimLost => some .aborted
  | .matching, .sopMatched => some .binding
  | .matching, .noSop => some .escalated
  | .matching, .lowConfidence => some .escalated
  | .binding, .sopInvalid => some .needsHuman
  | .binding, .paramsInvalid => some .needsHuman
  | .binding, .paramsBound => some .executing
  | .executing, .noteDone => some .executing
  | .executing, .stepDone => some .executing
  | .executing, .verifyStarted => some .verifying
  | .executing, .escalate => some .escalated
  | .verifying, .verifyPassed => some .verified
  | .verifying, .verifyFailed => some .executing
  -- After a passed verification only notes keep the run verified.
  | .verified, .noteDone => some .verified
  | .verified, .stepDone => some .executing
  | .verified, .verifyStarted => some .verifying
  | .verified, .escalate => some .escalated
  | .verified, .resolve => some .resolved
  -- An action.  Nothing here leads to `verified`.
  | .executing, .actionStarted => some .policyCheck
  | .verified, .actionStarted => some .policyCheck
  | .policyCheck, .policyDenied => some .escalated
  | .policyCheck, .policyShadow => some .executing
  | .policyCheck, .policyRecommend => some .escalated
  | .policyCheck, .policyAllowed => some .acting
  | .policyCheck, .approvalRequired => some .awaitingApproval
  | .awaitingApproval, .approvalGranted => some .acting
  | .awaitingApproval, .approvalRefused => some .escalated
  | .acting, .actionNotDone => some .executing
  | .acting, .actionVerified => some .executing
  | .acting, .actionFailed => some .rollingBack
  | .rollingBack, .rollbackDone => some .escalated
  -- Every state that is not terminal can be stopped or can fail.
  | s, .error => if s.isTerminal then none else some .needsHuman
  | s, .stepsExhausted => if s.isTerminal then none else some .needsHuman
  | s, .abort => if s.isTerminal then none else some .aborted
  | _, _ => none

/-- `transition`: an unknown pair fails closed; a run that has ended raises
`InvalidTransition`. -/
def transition (state : RunState) (event : RunEvent) : Except Exn RunState :=
  if state.isTerminal then
    .error (.other "InvalidTransition"
      s!"Run already ended in {state.value}; cannot apply {event.value}")
  else .ok ((transitions state event).getD .needsHuman)

/-- `outcome_of`; `none` where the source raises `KeyError`. -/
def outcomeOf : RunState → Option ExecutionOutcome
  | .resolved => some .resolved
  | .escalated => some .escalated
  | .needsHuman => some .needsHuman
  | .aborted => some .aborted
  | _ => none

section

attribute [local simp] transitions

theorem transition_ok {state next : RunState} {event : RunEvent}
    (h : transition state event = .ok next) :
    state.isTerminal = false ∧ next = (transitions state event).getD .needsHuman := by
  unfold transition at h
  split at h
  · cases h
  · rename_i hs
    exact ⟨by simpa using hs, by cases h; rfl⟩

/-- `verified` is entered only from `verifying` on a passed assertion, or kept
over a note. -/
theorem transition_verified {state : RunState} {event : RunEvent}
    (h : transition state event = .ok .verified) :
    (state = .verifying ∧ event = .verifyPassed) ∨ (state = .verified ∧ event = .noteDone) := by
  have hn := (transition_ok h).2
  cases state <;> cases event <;> simp [transitions, RunState.isTerminal] at hn ⊢

/-- `resolved` is entered only from `verified`, by a RESOLVE. -/
theorem transition_resolved {state : RunState} {event : RunEvent}
    (h : transition state event = .ok .resolved) : state = .verified ∧ event = .resolve := by
  have hn := (transition_ok h).2
  cases state <;> cases event <;> simp [transitions, RunState.isTerminal] at hn ⊢

theorem transition_error {state next : RunState} (h : transition state .error = .ok next) :
    next = .needsHuman := by
  obtain ⟨hs, hn⟩ := transition_ok h
  cases state <;> simp_all [transitions, RunState.isTerminal]

theorem transition_escalate {state next : RunState} (h : transition state .escalate = .ok next) :
    next = .escalated ∨ next = .needsHuman := by
  obtain ⟨hs, hn⟩ := transition_ok h
  cases state <;> simp_all [transitions, RunState.isTerminal]

/-- After a check, a decision or a verification the run is executing, or handed to
a person. -/
theorem transition_worked {state next : RunState} {event : RunEvent}
    (he : event = .stepDone ∨ event = .verifyFailed) (h : transition state event = .ok next) :
    next = .executing ∨ next = .needsHuman := by
  obtain ⟨hs, hn⟩ := transition_ok h
  rcases he with rfl | rfl <;> cases state <;> simp_all [transitions, RunState.isTerminal]

theorem transition_verifyPassed {state next : RunState}
    (h : transition state .verifyPassed = .ok next) :
    next = .verified ∨ next = .needsHuman := by
  obtain ⟨hs, hn⟩ := transition_ok h
  cases state <;> simp_all [transitions, RunState.isTerminal]

theorem transition_noteDone {state next : RunState} (h : transition state .noteDone = .ok next) :
    (next = state ∧ (state = .executing ∨ state = .verified)) ∨ next = .needsHuman := by
  obtain ⟨hs, hn⟩ := transition_ok h
  cases state <;> simp_all [transitions, RunState.isTerminal]

theorem transition_resolve {state next : RunState} (h : transition state .resolve = .ok next) :
    (next = .resolved ∧ state = .verified) ∨ next = .needsHuman := by
  obtain ⟨hs, hn⟩ := transition_ok h
  cases state <;> simp_all [transitions, RunState.isTerminal]

end

theorem outcomeOf_resolved {state : RunState} (h : outcomeOf state = some .resolved) :
    state = .resolved := by
  cases state <;> simp [outcomeOf] at h ⊢

end L1Agent
