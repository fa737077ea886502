import Mathlib.Data.List.Nodup
import L1Agent.Library.Json

/-! # SOPs and their steps (`models/sop.py`)

The parts of an SOP that the validator and the engine read.  What only the
matcher, the editor or the reviewer reads (services, categories, keywords, the
escalation criteria) has no place in a run and is left out.

An SOP is what the engine executes; `SopContent` is a version's content with the fields that have
no place in a run, and `Sop/Content.lean` has the content as the JSON document that it is
stored as.
-/
namespace L1Agent

/-- The step types.  Their values are the names in capitals (`StepType.value`). -/
inductive StepType where
  | splunkSearch | mqCheck | fileCheck | autosysStatus
  | dynatraceVmCheck | dynatraceMetrics | webUiCheck | mainframeCheck
  /-- A read check that names a connector capability. -/
  | check
  | decision
  | note
  /-- A write: goes through policy (ADR 0008). -/
  | action
  /-- Runs a read check and applies an assertion.  The only route to `resolve`. -/
  | verify
  | escalate
  | resolve
  deriving DecidableEq, Repr

namespace StepType

/-- `StepType.value`. -/
def value : StepType → String
  | splunkSearch => "SPLUNK_SEARCH"
  | mqCheck => "MQ_CHECK"
  | fileCheck => "FILE_CHECK"
  | autosysStatus => "AUTOSYS_STATUS"
  | dynatraceVmCheck => "DYNATRACE_VM_CHECK"
  | dynatraceMetrics => "DYNATRACE_METRICS"
  | webUiCheck => "WEB_UI_CHECK"
  | mainframeCheck => "MAINFRAME_CHECK"
  | check => "CHECK"
  | decision => "DECISION"
  | note => "NOTE"
  | action => "ACTION"
  | verify => "VERIFY"
  | escalate => "ESCALATE"
  | resolve => "RESOLVE"

def all : List StepType :=
  [splunkSearch, mqCheck, fileCheck, autosysStatus, dynatraceVmCheck, dynatraceMetrics,
    webUiCheck, mainframeCheck, check, decision, note, action, verify, escalate, resolve]

/-- The step type with a given value. -/
def ofValue? (name : String) : Option StepType := all.find? fun t => t.value == name

/-- `CHECK_STEP_TYPES`: the step types that call a tool adapter. -/
def isCheck : StepType → Bool
  | splunkSearch | mqCheck | fileCheck | autosysStatus
  | dynatraceVmCheck | dynatraceMetrics | webUiCheck | mainframeCheck => true
  | _ => false

/-- `CONNECTOR_STEP_TYPES`: the typed checks and the generic `CHECK`. -/
def isConnector (t : StepType) : Bool := t.isCheck || t == check

/-- `TERMINAL_STEP_TYPES`. -/
def isTerminal : StepType → Bool
  | escalate | resolve => true
  | _ => false

end StepType

/-- The capital of a character: besides the letters themselves, the characters
whose capital is made of letters of the alphabet. -/
def upperChar (c : Char) : List Char :=
  match c.toNat with
  | 0xDF => ['S', 'S']
  | 0x131 => ['I']
  | 0x17F => ['S']
  | 0xFB00 => ['F', 'F']
  | 0xFB01 => ['F', 'I']
  | 0xFB02 => ['F', 'L']
  | 0xFB03 => ['F', 'F', 'I']
  | 0xFB04 => ['F', 'F', 'L']
  | 0xFB05 => ['S', 'T']
  | 0xFB06 => ['S', 'T']
  | _ => [c.toUpper]

/-- `text.upper()`, as far as a comparison with a step type can tell. -/
def upper (text : String) : String := String.ofList (text.toList.flatMap upperChar)

/-- The step type a text names, in whatever case it is written. -/
def stepTypeOf (text : String) : Option StepType := StepType.ofValue? (upper text)

/-- A single executable step (`SOPStep`). -/
structure SOPStep where
  stepId : String := ""
  stepType : String := ""
  description : String := ""
  parameters : Json := .obj []
  expectedOutput : String := ""
  onSuccess : String := ""
  onFailure : String := ""
  requiresApproval : Bool := false
  timeoutSeconds : Int := 60
  /-- For a CHECK or ACTION step: the connector capability id. -/
  capability : String := ""
  /-- For an ACTION step: overrides for the capability's own verification. -/
  verify : Json := .obj []
  deriving DecidableEq

/-- What `step.step_type.upper()` is: one of the step types, or unknown. -/
def SOPStep.type? (step : SOPStep) : Option StepType := stepTypeOf step.stepType

/-- The step without its parameters: all that rendering leaves as it was. -/
def SOPStep.shape (step : SOPStep) : SOPStep := { step with parameters := .obj [] }

/-- A typed parameter, bound from the ticket before any step runs. -/
structure ParameterSpec where
  name : String := ""
  type : String := "string"
  source : Json := .obj []
  pattern : String := ""
  enum : List Json := []
  maxLength : Nat := 128
  deriving DecidableEq

/-- A standard operating procedure. -/
structure SOP where
  sopId : String := ""
  title : String := ""
  steps : List SOPStep := []
  version : String := "1.0"
  parameters : List ParameterSpec := []
  status : String := "published"
  /-- SHA-256 of the published version's content; empty for an SOP that did not
  come from the version store. -/
  contentHash : String := ""
  /-- The standard change template every ACTION step is carried out under. -/
  changeTemplate : String := ""
  deriving DecidableEq

/-- A draft is never matched and never executed. -/
def SOP.isDraft (sop : SOP) : Bool := sop.status != "published"

/-- `{s.step_id: s for s in steps}`: of several steps with one id the last is
kept. -/
def stepIndex (steps : List SOPStep) (stepId : String) : Option SOPStep :=
  steps.reverse.find? fun s => s.stepId == stepId

theorem stepIndex_id {steps : List SOPStep} {stepId : String} {step : SOPStep}
    (h : stepIndex steps stepId = some step) : step.stepId = stepId := by
  simpa using List.find?_some h

theorem stepIndex_mem {steps : List SOPStep} {stepId : String} {step : SOPStep}
    (h : stepIndex steps stepId = some step) : step ∈ steps :=
  List.mem_reverse.mp (List.mem_of_find?_eq_some h)

theorem stepIndex_isSome {steps : List SOPStep} {step : SOPStep} (h : step ∈ steps) :
    ∃ found, stepIndex steps step.stepId = some found := by
  rw [← Option.isSome_iff_exists, stepIndex, List.find?_isSome]
  exact ⟨step, List.mem_reverse.mpr h, by simp⟩

theorem stepIndex_shape (steps : List SOPStep) (stepId : String) :
    stepIndex (steps.map SOPStep.shape) stepId = (stepIndex steps stepId).map SOPStep.shape := by
  unfold stepIndex
  rw [← List.map_reverse, List.find?_map]
  rfl

/-- Where the ids are distinct, the index gives back the step itself. -/
theorem stepIndex_self {steps : List SOPStep} (hnd : (steps.map (·.stepId)).Nodup)
    {step : SOPStep} (h : step ∈ steps) : stepIndex steps step.stepId = some step := by
  obtain ⟨found, hf⟩ := stepIndex_isSome h
  have hid := stepIndex_id hf
  rw [hf, List.inj_on_of_nodup_map hnd (stepIndex_mem hf) h hid]

end L1Agent
