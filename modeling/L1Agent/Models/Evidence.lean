import L1Agent.Library.Json

/-! # Step results and the summary of a run (`models/evidence.py`)

A `StepResult` is what a step leaves behind, in memory and, as JSON, in the run's
journal; the two forms carry the same information (`StepResult.fromDict_toDict`).
The time stamp and the duration of a result are read by no modelled function and
are left out.

An `ExecutionSummary` cannot be built with the outcome `resolved` and no
verification on record: the check of `__post_init__`, `__setattr__` and `conclude`
is a field of the structure.

`ExecutionSummary.applyAll` is a caller that goes on after a refused assignment; whatever it tries,
what it has is a summary.
-/
namespace L1Agent

/-- `StepStatus`. -/
inductive StepStatus where
  | success | fail | skip | escalated
  /-- The engine could not run the step safely.  Always ends the run. -/
  | error
  deriving DecidableEq, Repr

namespace StepStatus

def value : StepStatus → String
  | success => "success"
  | fail => "fail"
  | skip => "skip"
  | escalated => "escalated"
  | error => "error"

/-- `StepStatus(text)`; `none` where the source raises `ValueError`. -/
def ofValue? : Json → Option StepStatus
  | .str text => [success, fail, skip, escalated, error].find? fun s => s.value == text
  | _ => none

theorem ofValue?_value (s : StepStatus) : ofValue? (.str s.value) = some s := by
  cases s <;> decide

end StepStatus

/-- Result of executing a single step.  The three free texts are whatever the
step put there: a text, or another JSON value that can be sliced. -/
structure StepResult where
  stepId : String
  stepType : String
  status : StepStatus
  evidence : Json := .str ""
  errorMessage : Json := .str ""
  toolCalled : String := ""
  inputSummary : String := ""
  outputSummary : Json := .str ""
  recommendedNextStep : String := ""
  /-- Structured output, read by DECISION and VERIFY expressions. -/
  data : Json := .obj []
  deriving DecidableEq

namespace StepResult

/-- `to_dict`: everything, for the run journal. -/
def toDict (r : StepResult) : Json :=
  .obj [("step_id", .str r.stepId), ("step_type", .str r.stepType),
    ("status", .str r.status.value), ("evidence", r.evidence),
    ("error_message", r.errorMessage), ("tool_called", .str r.toolCalled),
    ("input_summary", .str r.inputSummary), ("output_summary", r.outputSummary),
    ("recommended_next_step", .str r.recommendedNextStep), ("data", r.data)]

/-- A field of the journal's object that must be a text. -/
def textField (d : Json) (key : String) : Option String :=
  match d.get? key with
  | some (.str s) => some s
  | none => some ""
  | _ => none

/-- `from_dict`: a field that is missing takes its default. -/
def fromDict (d : Json) : Option StepResult := do
  let status ← StepStatus.ofValue? (← d.get? "status")
  let stepId ← textField d "step_id"
  let stepType ← textField d "step_type"
  let toolCalled ← textField d "tool_called"
  let inputSummary ← textField d "input_summary"
  let recommendedNextStep ← textField d "recommended_next_step"
  pure
    { stepId, stepType, status, toolCalled, inputSummary, recommendedNextStep,
      evidence := d.getD "evidence" (.str ""),
      errorMessage := d.getD "error_message" (.str ""),
      outputSummary := d.getD "output_summary" (.str ""),
      data := d.getD "data" (.obj []) }

/-- **`from_dict` restores an equal result.** -/
theorem fromDict_toDict (r : StepResult) : fromDict r.toDict = some r := by
  obtain ⟨stepId, stepType, status, evidence, err, tool, inp, out, rec, data⟩ := r
  simp [fromDict, toDict, textField, Json.get?, Json.getD, List.lookup_cons, StepStatus.ofValue?_value]

end StepResult

/-- `ExecutionOutcome`: the terminal states of a run. -/
inductive ExecutionOutcome where
  | resolved | escalated | needsHuman | aborted
  deriving DecidableEq, Repr

namespace ExecutionOutcome

def value : ExecutionOutcome → String
  | resolved => "resolved"
  | escalated => "escalated"
  | needsHuman => "needs_human"
  | aborted => "aborted"

end ExecutionOutcome

/-- `_check_outcome`: whether it lets the pair pass. -/
def checkOutcome (outcome : Option ExecutionOutcome) (verifiedBy : String) : Bool :=
  !(outcome == some .resolved && verifiedBy == "")

/-- A run given to a person needs no verification on record. -/
theorem checkOutcome_needsHuman : checkOutcome (some .needsHuman) "" = true := rfl

/-- Summary of an entire execution.  `outcome` is `none` until the run reaches a
terminal state. -/
structure ExecutionSummary where
  incidentNumber : String
  sopId : String
  sopTitle : String
  outcome : Option ExecutionOutcome := none
  stepResults : List StepResult := []
  escalationReason : Json := .str ""
  verifiedBy : String := ""
  /-- `resolved` is recorded only together with the step that verified it. -/
  checked : checkOutcome outcome verifiedBy = true := by rfl

namespace ExecutionSummary

/-- What can be done to a summary from outside: `conclude`, or an assignment to
one of its fields. -/
inductive Op where
  | conclude (outcome : Option ExecutionOutcome) (reason : Json) (verifiedBy : String)
  | setOutcome (outcome : Option ExecutionOutcome)
  | setVerifiedBy (verifiedBy : String)
  | setIncidentNumber (text : String)
  | setSopId (text : String)
  | setSopTitle (text : String)
  | setStepResults (results : List StepResult)
  | setEscalationReason (reason : Json)
  /-- `started_at`, `completed_at`, `total_duration_ms` or `model_note`. -/
  | setOther (field : String) (value : Json)

/-- Construction: `__init__` followed by the check of `__post_init__`. -/
def make (incidentNumber sopId sopTitle : String) (outcome : Option ExecutionOutcome)
    (stepResults : List StepResult) (escalationReason : Json) (verifiedBy : String) :
    Except String ExecutionSummary :=
  if h : checkOutcome outcome verifiedBy = true then
    .ok ⟨incidentNumber, sopId, sopTitle, outcome, stepResults, escalationReason, verifiedBy, h⟩
  else .error "UnverifiedResolutionError"

/-- `conclude`: a summary can be concluded once. -/
def conclude (s : ExecutionSummary) (outcome : Option ExecutionOutcome) (reason : Json)
    (verifiedBy : String) : Except String ExecutionSummary :=
  if s.outcome.isSome then .error "ValueError"
  else if h : checkOutcome outcome verifiedBy = true then
    .ok { s with
      outcome, verifiedBy, checked := h
      escalationReason := if reason.truthy then reason else s.escalationReason }
  else .error "UnverifiedResolutionError"

/-- `conclude` and `__setattr__`: an operation that raises changes nothing. -/
def apply (s : ExecutionSummary) : Op → Except String ExecutionSummary
  | .conclude outcome reason verifiedBy => s.conclude outcome reason verifiedBy
  | .setOutcome outcome =>
    if h : checkOutcome outcome s.verifiedBy = true then .ok { s with outcome, checked := h }
    else .error "UnverifiedResolutionError"
  | .setVerifiedBy verifiedBy =>
    if h : checkOutcome s.outcome verifiedBy = true then .ok { s with verifiedBy, checked := h }
    else .error "UnverifiedResolutionError"
  | .setIncidentNumber text => .ok { s with incidentNumber := text }
  | .setSopId text => .ok { s with sopId := text }
  | .setSopTitle text => .ok { s with sopTitle := text }
  | .setStepResults results => .ok { s with stepResults := results }
  | .setEscalationReason reason => .ok { s with escalationReason := reason }
  | .setOther _ _ => .ok s

/-- A sequence of operations, each of which may raise and is then without
effect. -/
def applyAll (s : ExecutionSummary) : List Op → ExecutionSummary
  | [] => s
  | op :: ops =>
    match s.apply op with
    | .ok s' => applyAll s' ops
    | .error _ => applyAll s ops

/-- The field says what the two public fields may be. -/
theorem verifiedBy_ne_empty (s : ExecutionSummary) (h : s.outcome = some .resolved) :
    s.verifiedBy ≠ "" := by
  intro hv
  have hc := s.checked
  rw [h, hv] at hc
  simp [checkOutcome] at hc

end ExecutionSummary
end L1Agent
