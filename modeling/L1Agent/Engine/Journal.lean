import L1Agent.Library.Program
import L1Agent.Models.Evidence
import L1Agent.Models.Sop

/-! # What the engine calls (`engine/journal.py`, and the calls of `engine/executor.py`)

The exceptions that pass through the engine, and the points at which it gives up
control: the journal's writes, a call of a connector, the action pipeline, the
model advisor.  Each of these may fail with an exception of its own.  A work note
is left out: `_note` swallows whatever its callback raises, and nothing is read
back from it.

An answer is what the other side gives: a connector's `AdapterResult`, the pipeline's `ActionAnswer`,
a value that a model has located, or nothing where a row was written.  `EngineOp.Val` says which
belongs to which call.
-/
namespace L1Agent
open Interleaving

/-- An exception, as the engine's handlers tell them apart. -/
inductive Exn where
  /-- `RunSuspended` -/
  | suspended (message : String)
  /-- `ParameterError` -/
  | parameter (message : String)
  /-- `ExpressionError` -/
  | expression (message : String)
  /-- Any other class, by its name. -/
  | other (kind message : String)
  deriving DecidableEq, Repr

namespace Exn

/-- `type(exc).__name__` -/
def kind : Exn → String
  | suspended _ => "RunSuspended"
  | parameter _ => "ParameterError"
  | expression _ => "ExpressionError"
  | other kind _ => kind

/-- `str(exc)` -/
def message : Exn → String
  | suspended m | parameter m | expression m | other _ m => m

def isSuspended : Exn → Bool
  | suspended _ => true
  | _ => false

end Exn

/-- `AdapterResult` of a call, as a step's result is built from it. -/
structure AdapterResult where
  evidenceSnippet : String := ""
  summary : String := ""
  data : List (String × Json) := []
  deriving DecidableEq

/-- What `_call_adapter` returns. -/
structure CallAnswer where
  status : StepStatus
  result : Option AdapterResult := none
  tool : String := ""
  error : String := ""
  deriving DecidableEq

/-- What the action pipeline fills in of a step's result.  The ids are those of
the step it was called with, and it names no next step. -/
structure ActionAnswer where
  status : StepStatus
  evidence : String := ""
  errorMessage : String := ""
  toolCalled : String := "action"
  inputSummary : String := ""
  outputSummary : String := ""
  data : Json := .obj []
  deriving DecidableEq

/-- `_result` of the action pipeline, for the step it was called with. -/
def ActionAnswer.toResult (a : ActionAnswer) (step : SOPStep) : StepResult where
  stepId := step.stepId
  stepType := step.stepType
  status := a.status
  evidence := .str a.evidence
  errorMessage := .str a.errorMessage
  toolCalled := a.toolCalled
  inputSummary := a.inputSummary
  outputSummary := .str a.outputSummary
  data := a.data

/-- The calls the engine makes. -/
inductive EngineOp where
  /-- The tenant's connectors are built. -/
  | connectors
  | stepStarted (step : SOPStep)
  | stepCompleted (step : SOPStep) (result : StepResult)
  /-- `_call_adapter`, the `attempt`-th time within the step. -/
  | callAdapter (name : String) (parameters : Json) (stepId : String) (attempt : Nat)
  | perform (step : SOPStep)
  /-- `advisor.extract` -/
  | extract (askable : List ParameterSpec)
  | recordAdvised (values : List (String × String))
  deriving DecidableEq

/-- What a call returns. -/
def EngineOp.Val : EngineOp → Type
  | connectors | stepStarted _ | stepCompleted _ _ | recordAdvised _ => Unit
  | callAdapter .. => CallAnswer
  | perform _ => ActionAnswer
  | extract _ => List (String × Json)

/-- Each call returns or raises. -/
abbrev EngineCalls : Signature := ⟨EngineOp, fun o => Except Exn o.Val⟩

/-- A program of the engine. -/
abbrev Engine.Prog (α : Type) := Program EngineCalls Exn α

/-- One call, whose exception is raised. -/
def request (o : EngineOp) : Engine.Prog o.Val :=
  .call (E := EngineCalls) o fun answer => Program.ofExcept answer

end L1Agent
