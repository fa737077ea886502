import L1Agent.Engine.StateMachine
import L1Agent.Models.Incident
import L1Agent.Sop.Validator

/-! # The SOP executor (`engine/executor.py`)

`executeSop` validates the SOP, binds its parameters, and walks the step graph
(`runSteps`).  A step that the journal holds a result for is replayed from it;
any other step is executed by the handler of its type.  `advance` is the part of
the loop that feeds the result to the state machine and picks the next step.

The walk keeps, besides the locals of the source's loop, the list of steps it
went through with the state on entry (`Visit`): the results alone do not say
which step they were recorded for.  The loop is bounded by the number of steps,
which never cuts it short (`runLoop_always`).

`runLoop_always` is the rule through which every later statement about the walk is proved: what one
round keeps, and what each way out of the loop gives, holds of every end of it.  `Advanced` lists
what a round can do to the position.
-/
namespace L1Agent
open Interleaving

/-- What `bind_what_can_be` returns. -/
structure Bound where
  values : List (String × Json)
  /-- The text of each failure's `ParameterError`, by parameter name. -/
  failures : List (String × String)
  notFound : List ParameterSpec

/-- What the executor calls in other modules, and whether it has an action
pipeline. -/
structure Engine where
  catalog : Catalog
  /-- `expressions.evaluate` -/
  evaluate : Json → Json → Except Exn Bool
  /-- `bind_what_can_be` -/
  bindWhatCanBe : SOP → Incident → Except Exn Bound
  /-- `accept_advised` -/
  acceptAdvised : ParameterSpec → Json → Incident → Except Exn Json
  /-- `render` -/
  render : Json → List (String × Json) → Except Exn Json
  hasActions : Bool := true

/-- The journal, as an attempt has loaded it. -/
structure RunJournal where
  completed : List (String × StepResult) := []
  advised : List (String × String) := []

/-- One step that the walk went through. -/
structure Visit where
  step : SOPStep
  /-- The state when the step was entered. -/
  entry : RunState
  /-- `none` where the step raised before it had a result. -/
  result : Option StepResult
  deriving DecidableEq

/-- `summary.step_results` -/
def results (went : List Visit) : List StepResult := went.filterMap (·.result)

/-- An exception that leaves the walk, with what the run holds at that point:
`execute_sop`'s own `state`, and the steps gone through. -/
structure Fault where
  state : RunState
  exn : Exn
  went : List Visit

/-- What the walk ends with. -/
structure Ending where
  state : RunState
  reason : Json := .str ""
  verifiedBy : String := ""
  went : List Visit := []
  /-- The walk ran out of steps. -/
  exhausted : Bool := false

/-- The steps gone through when the walk ended, in whatever way. -/
def wentThrough : Except Fault Ending → List Visit
  | .ok e => e.went
  | .error f => f.went

namespace Executor
variable (eng : Engine)

/-- The language's own text handling. -/
abbrev py : Builtins := eng.catalog.builtins

/-- `text[:n]` on a text. -/
def clip (n : Nat) (text : String) : String := String.ofList (text.toList.take n)

/-- `parameters.get(key, default)` -/
def param (parameters : Json) (key : String) (default : Json) : Except Exn Json :=
  if parameters.isObj then .ok (parameters.getD key default)
  else .error (.other "AttributeError" s!"'{parameters.typeName}' object has no attribute 'get'")

/-- `value[:n]` -/
def sliced (n : Nat) (value : Json) : Except Exn Json :=
  match value.slice n, value with
  | some v, _ => .ok v
  | none, .obj _ => .error (.other "TypeError" "unhashable type: 'slice'")
  | none, v => .error (.other "TypeError" s!"'{v.typeName}' object is not subscriptable")

/-- What `int(value)` raises. -/
def intError : Json → Exn
  | .str s => .other "ValueError"
      s!"invalid literal for int() with base 10: {(py eng).repr (.str s)}"
  | v => .other "TypeError"
      ("int() argument must be a string, a bytes-like object or a real number, not '" ++
        v.typeName ++ "'")

/-- What `float(value)` raises. -/
def floatError : Json → Exn
  | .str s => .other "ValueError" s!"could not convert string to float: {(py eng).repr (.str s)}"
  | v => .other "TypeError"
      ("float() argument must be a string or a real number, not '" ++ v.typeName ++ "'")

/-- `_context`: the names available to DECISION rules and VERIFY assertions. -/
def context (inc : Incident) (done : List StepResult) (values : List (String × Json)) :
    List (String × Json) :=
  let checks := done.filter fun r =>
    match stepTypeOf r.stepType with
    | some t => t.isConnector || t == .verify
    | none => false
  [("steps", .ofPairs (done.map fun r => (r.stepId, r.data))),
    ("status", .ofPairs (done.map fun r => (r.stepId, .str r.status.value))),
    ("incident", inc.toDict),
    ("params", .obj values),
    ("any_failed", .bool (checks.any fun r => r.status != .success)),
    ("all_success", .bool (checks.all fun r => r.status == .success))]

/-! ## The handlers -/

/-- `_error`: the step could not be run. -/
def errorResult (step : SOPStep) (message tool : String) : StepResult where
  stepId := step.stepId
  stepType := step.stepType
  status := .error
  errorMessage := .str message
  toolCalled := tool
  inputSummary := (py eng).str step.parameters
  outputSummary := .str (clip 200 s!"Cannot continue: {message}")

/-- The approval gate: no approval workflow exists for a step, so it goes to a
person. -/
def approvalGate (step : SOPStep) : StepResult where
  stepId := step.stepId
  stepType := step.stepType
  status := .escalated
  errorMessage := .str "Step requires approval; escalating to L2"
  toolCalled := "approval_gate"
  inputSummary := step.description
  outputSummary := .str "Escalated: approval required"

/-- `_handle_note_step` -/
def handleNote (step : SOPStep) : Except Exn StepResult := do
  let text ← param step.parameters "text" (.str step.description)
  let shown ← sliced 200 text
  pure
    { stepId := step.stepId, stepType := step.stepType, status := .success, evidence := text,
      toolCalled := "note", inputSummary := step.description, outputSummary := shown }

/-- `_handle_decision_step`: a true rule takes `on_success`, except that the rule
`any_failed` keeps its historical direction. -/
def handleDecision (inc : Incident) (done : List StepResult) (values : List (String × Json))
    (step : SOPStep) : Except Exn StepResult := do
  let rule ← param step.parameters "rule" (.str "")
  let ctx := context inc done values
  let ruled :=
    if rule = .str legacyAnyFailedRule then
      .ok (!((Json.obj ctx).getD "any_failed" .null).truthy)
    else eng.evaluate rule (.obj ctx)
  match ruled with
  | .error (.expression message) =>
    pure (errorResult eng step s!"decision rule could not be evaluated: {message}" "decision")
  | .error e => throw e
  | .ok takeSuccess =>
    let branch := if takeSuccess then step.onSuccess else step.onFailure
    let stuck := !takeSuccess && branch == ""
    pure
      { stepId := step.stepId, stepType := step.stepType,
        status := if stuck then .fail else .success,
        errorMessage :=
          if stuck then .str s!"rule '{(py eng).str rule}' is false and no failure branch is set"
          else .str ""
        toolCalled := "decision", inputSummary := s!"Rule: {(py eng).str rule}",
        outputSummary :=
          .str (if takeSuccess then "Decision: success branch" else "Decision: failure branch")
        recommendedNextStep := branch }

/-- The ESCALATE step. -/
def handleEscalate (step : SOPStep) : Except Exn StepResult := do
  let reason ← param step.parameters "reason" .null
  let text ← param step.parameters "text" .null
  let text := (reason.orElse text).orElse
    ((Json.str step.description).orElse (.str "SOP routed this incident to L2"))
  let shown ← sliced 200 text
  pure
    { stepId := step.stepId, stepType := step.stepType, status := .escalated,
      errorMessage := text, evidence := text, toolCalled := "escalate",
      inputSummary := step.description, outputSummary := shown }

/-- The RESOLVE step: a success only straight after a passed verification. -/
def handleResolve (step : SOPStep) (state : RunState) : Except Exn StepResult := do
  let text ← param step.parameters "text" (.str step.description)
  let text := text.orElse (.str "Resolved")
  if state = .verified then
    let shown ← sliced 200 text
    pure
      { stepId := step.stepId, stepType := step.stepType, status := .success, evidence := text,
        toolCalled := "resolve", inputSummary := step.description, outputSummary := shown }
  else
    pure
      { stepId := step.stepId, stepType := step.stepType, status := .fail,
        errorMessage := .str "no passed verification", toolCalled := "resolve",
        inputSummary := step.description, outputSummary := .str "Refused: not verified" }

/-- `_handle_adapter_step`: the capability the step names, or its legacy step
type's. -/
def handleAdapter (step : SOPStep) : Engine.Prog StepResult := do
  let name := if step.capability = "" then upper step.stepType else step.capability
  let a ← request (.callAdapter name step.parameters step.stepId 0)
  if a.status = .error then pure (errorResult eng step a.error a.tool)
  else
    pure
      { stepId := step.stepId, stepType := step.stepType, status := a.status,
        evidence := .str (a.result.elim "" (·.evidenceSnippet)),
        errorMessage := .str a.error, toolCalled := a.tool,
        inputSummary := (py eng).str step.parameters,
        outputSummary := .str (a.result.elim a.error (·.summary)),
        data := .obj (if a.status = .success then a.result.elim [] (·.data) else []) }

/-- `_handle_action_step`: the engine itself never makes a write. -/
def handleAction (step : SOPStep) : Engine.Prog StepResult :=
  if eng.hasActions then do
    let a ← request (.perform step)
    pure (a.toResult step)
  else
    let text := "Actions are not enabled here; the step was not carried out"
    pure
      { stepId := step.stepId, stepType := step.stepType, status := .escalated,
        errorMessage := .str text, toolCalled := "action",
        inputSummary := s!"{step.capability} {(py eng).str step.parameters}",
        outputSummary := .str text,
        data := .obj [("events", .arr [.str RunEvent.policyDenied.value])] }

/-- The VERIFY step's result after its last read. -/
def notVerified (step : SOPStep) (assertion : Json) (lastError : String)
    (last : Option AdapterResult) (tool : String) : StepResult where
  stepId := step.stepId
  stepType := step.stepType
  status := .fail
  evidence := .str (last.elim "" (·.evidenceSnippet))
  errorMessage := .str lastError
  toolCalled := tool
  inputSummary := s!"assert {(py eng).str assertion}"
  outputSummary := .str (s!"Not verified: {lastError}" ++ last.elim "" fun r => "\n" ++ r.summary)
  data := .obj (last.elim [] (·.data))

/-- The reads of a VERIFY step: `n` are left. -/
def verifyReads (step : SOPStep) (check : String) (checkParams assertion : Json)
    (ctx : List (String × Json)) :
    Nat → Nat → String → Option AdapterResult → String → Engine.Prog StepResult
  | 0, _, lastError, last, tool => pure (notVerified eng step assertion lastError last tool)
  | n + 1, attempt, _, last, _ => do
    let a ← request (.callAdapter check checkParams step.stepId attempt)
    if a.status = .error then pure (errorResult eng step a.error a.tool)
    else match if a.status = .success then a.result else none with
    | none =>
      verifyReads step check checkParams assertion ctx n (attempt + 1)
        s!"check failed: {a.error}" last a.tool
    | some r =>
      match eng.evaluate assertion (.ofPairs (ctx ++ [("result", .obj r.data)])) with
      | .ok true =>
        pure
          { stepId := step.stepId, stepType := step.stepType, status := .success,
            evidence := .str r.evidenceSnippet, toolCalled := a.tool,
            inputSummary := s!"assert {(py eng).str assertion}",
            outputSummary := .str s!"Verified: {(py eng).str assertion}\n{r.summary}",
            data := .obj r.data }
      | .ok false =>
        verifyReads step check checkParams assertion ctx n (attempt + 1)
          s!"assertion is false: {(py eng).str assertion}" (some r) a.tool
      | .error (.expression message) =>
        verifyReads step check checkParams assertion ctx n (attempt + 1)
          s!"assertion could not be evaluated: {message}" (some r) a.tool
      | .error e => throw e

/-- `_handle_verify_step`: run the check and apply the assertion.  Inconclusive
counts as a fail. -/
def handleVerify (inc : Incident) (done : List StepResult) (values : List (String × Json))
    (step : SOPStep) : Engine.Prog StepResult := do
  let named ← Program.ofExcept (param step.parameters "check" (.str ""))
  let named := (py eng).str named
  -- The step types with a legacy adapter are the keys of STEP_CAPABILITIES.
  let check := if ((stepTypeOf named).map StepType.isCheck).getD false then upper named else named
  let checkParams := step.parameters.getD "parameters" (.obj [])
  let assertion := step.parameters.getD "assert" (.str "")
  let retries := step.parameters.getD "retries" (.int 0)
  let wait := step.parameters.getD "wait_seconds" (.int 0)
  match (py eng).toInt retries, (py eng).isNumber wait with
  | some retries, true =>
    verifyReads eng step check checkParams assertion (context inc done values)
      (retries + 1).toNat 0 "" none check
  | none, _ => throw (intError eng retries)
  | _, false => throw (floatError eng wait)

/-- The dispatch of `_execute_step` on the step type. -/
def dispatch (inc : Incident) (done : List StepResult) (values : List (String × Json))
    (state : RunState) (step : SOPStep) : Engine.Prog StepResult :=
  match step.type? with
  | some .note => .ofExcept (handleNote step)
  | some .decision => .ofExcept (handleDecision eng inc done values step)
  | some .verify => handleVerify eng inc done values step
  | some .escalate => .ofExcept (handleEscalate step)
  | some .resolve => .ofExcept (handleResolve step state)
  | some .action => handleAction eng step
  | none => pure (errorResult eng step s!"Unknown step type: {step.stepType}" "none")
  | some _ => handleAdapter eng step

/-- `_execute_step`: an exception other than the suspension is a result. -/
def executeStep (inc : Incident) (done : List StepResult) (values : List (String × Json))
    (state : RunState) (step : SOPStep) : Engine.Prog StepResult :=
  if step.requiresApproval then pure (approvalGate step)
  else (dispatch eng inc done values state step).tryCatch fun e =>
    if e.isSuspended then throw e
    else pure (errorResult eng step s!"{e.kind}: {e.message}" step.stepType)

/-! ## The loop -/

/-- The locals of the loop that decide where it goes next. -/
structure Position where
  state : RunState
  verifiedBy : String
  reason : Json
  nextId : String := ""

/-- `RunEvent(name)` -/
def eventOf (name : Json) : Except Exn RunEvent :=
  match RunEvent.ofName? name with
  | some event => .ok event
  | none => .error (.other "ValueError" "not a valid RunEvent")

/-- `for name in path` -/
def namesOf (path : Json) : Except Exn (List Json) :=
  match path.elements with
  | some names => .ok names
  | none => .error (.other "TypeError" s!"'{path.typeName}' object is not iterable")

/-- The events of an action's result, in their order. -/
def feed (state : RunState) : List Json → Except Exn RunState
  | [] => .ok state
  | name :: names => do
    let event ← eventOf name
    let next ← transition state event
    feed next names

/-- The state in which the table leaves an action decides how the walk goes on. -/
def afterAction (step : SOPStep) (result : StepResult) (state : RunState) (reason : Json) :
    Except Exn Position :=
  if state.isTerminal then
    .ok ⟨state, "", result.errorMessage.orElse result.outputSummary, ""⟩
  else if state ≠ .executing then do
    let next ← transition state .error
    pure ⟨next, "", .str s!"Action {step.stepId} ended in an unexpected state", ""⟩
  else if result.status = .fail then
    if step.onFailure = "" then do
      let next ← transition state .escalate
      pure ⟨next, "",
        .str s!"Step {step.stepId} was not done: {(py eng).str result.errorMessage}", ""⟩
    else .ok ⟨state, "", reason, step.onFailure⟩
  else .ok ⟨state, "", reason, step.onSuccess⟩

/-- An action reports its route through the table; the table decides the state. -/
def advanceAction (step : SOPStep) (result : StepResult) (path : Json) (state : RunState)
    (reason : Json) : Except Exn Position := do
  let started ← transition state .actionStarted
  let names ← namesOf path
  let state ← feed started names
  afterAction eng step result state reason

/-- Every other step: the status and the step's type decide the event. -/
def advanceStep (step : SOPStep) (result : StepResult) (state : RunState) (verifiedBy : String)
    (reason : Json) : Except Exn Position :=
  let message := (py eng).str result.errorMessage
  if result.status = .error then do
    let next ← transition state .error
    pure ⟨next, verifiedBy, .str s!"Step {step.stepId} could not run: {message}", ""⟩
  else if result.status = .escalated then do
    let next ← transition state .escalate
    pure ⟨next, verifiedBy, result.errorMessage.orElse (.str "Step required escalation"), ""⟩
  else match step.type? with
  | some .resolve => do
    let next ← transition state .resolve
    pure ⟨next, verifiedBy,
      if next = .resolved then reason
      else .str "RESOLVE step reached without a passed verification", ""⟩
  | some .verify =>
    if result.status = .success then do
      let next ← transition state .verifyPassed
      pure ⟨next, step.stepId, reason, step.onSuccess⟩
    else if step.onFailure = "" then do
      let next ← transition state .verifyFailed
      let next ← transition next .escalate
      pure ⟨next, "", .str s!"Verification {step.stepId} did not pass: {message}", ""⟩
    else do
      let next ← transition state .verifyFailed
      pure ⟨next, "", reason, step.onFailure⟩
  | some .note => do
    let next ← transition state .noteDone
    pure ⟨next, verifiedBy, reason, step.onSuccess⟩
  | _ =>
    if result.status ≠ .fail then do
      let next ← transition state .stepDone
      -- A DECISION picks its own branch through recommended_next_step.
      pure ⟨next, "", reason,
        if result.recommendedNextStep = "" then step.onSuccess else result.recommendedNextStep⟩
    else if step.onFailure = "" then do
      let next ← transition state .stepDone
      let next ← transition next .escalate
      pure ⟨next, "", .str s!"Step {step.stepId} failed: {message}", ""⟩
    else do
      let next ← transition state .stepDone
      pure ⟨next, "", reason, step.onFailure⟩

/-- `result.data.get("events")` of an ACTION step. -/
def actionPath (step : SOPStep) (result : StepResult) : Except Exn Json :=
  if step.type? = some .action then param result.data "events" .null else .ok .null

/-- Which of the two it is depends on whether the result has events. -/
def route (step : SOPStep) (result : StepResult) (path : Json) (state : RunState)
    (verifiedBy : String) (reason : Json) : Except Exn Position :=
  if path.truthy then advanceAction eng step result path state reason
  else advanceStep eng step result state verifiedBy reason

/-- `if state not in (VERIFIED, RESOLVED): verified_by = ""` -/
def Position.cleared (p : Position) : Position :=
  if p.state = .verified ∨ p.state = .resolved then p else { p with verifiedBy := "" }

/-- Decide the transition and the next step. -/
def advance (step : SOPStep) (result : StepResult) (state : RunState) (verifiedBy : String)
    (reason : Json) : Except Exn Position := do
  let path ← actionPath step result
  let p ← route eng step result path state verifiedBy reason
  pure p.cleared

/-- A VERIFY step that may run starts the verification. -/
def started (step : SOPStep) (state : RunState) : Except Exn RunState :=
  if step.type? = some .verify ∧ step.requiresApproval = false then transition state .verifyStarted
  else .ok state

/-- The locals of `_run_steps`. -/
structure Loop where
  state : RunState := .executing
  reason : Json := .str ""
  verifiedBy : String := ""
  currentId : String
  visited : List String := []
  /-- `journal._completed` -/
  completed : List (String × StepResult) := []
  went : List Visit := []

/-- Exceptions on the way, with what the run holds. -/
def guarded {α : Type} (went : List Visit) (p : Engine.Prog α) : Program EngineCalls Fault α :=
  p.mapExn fun e => ⟨.executing, e, went⟩

/-- The start of a step goes on record, and the step is executed. -/
def executeStarted (inc : Incident) (values : List (String × Json)) (journaled : Bool)
    (l : Loop) (state : RunState) (step : SOPStep) : Engine.Prog StepResult := do
  if journaled then request (.stepStarted step)
  executeStep eng inc (results l.went) values state step

/-- The result is committed, then published. -/
def tell (journaled : Bool) (step : SOPStep) (result : StepResult) : Engine.Prog Unit := do
  if journaled then
    -- The audit event of `step_completed` holds the start of the output.
    let _ ← Program.ofExcept (sliced 300 result.outputSummary)
    request (.stepCompleted step result)
  let _ ← Program.ofExcept (sliced 200 result.outputSummary)

/-- A step without a recorded result: it is executed, and with a journal its
result is committed before anything else is told about it. -/
def executeAndRecord (inc : Incident) (values : List (String × Json)) (journaled : Bool)
    (l : Loop) (state : RunState) (step : SOPStep) : Program EngineCalls Fault StepResult :=
  (guarded (l.went ++ [⟨step, l.state, none⟩]) (executeStarted eng inc values journaled l state
    step)).bind fun result =>
  (guarded (l.went ++ [⟨step, l.state, some result⟩]) (tell journaled step result)).bind fun _ =>
  pure result

/-- The recorded result of the step, or a new one. -/
def obtainResult (inc : Incident) (values : List (String × Json)) (journaled : Bool)
    (l : Loop) (state : RunState) (step : SOPStep) : Program EngineCalls Fault StepResult :=
  match l.completed.lookup step.stepId with
  | some result => pure result
  | none => executeAndRecord eng inc values journaled l state step

/-- The walk is over. -/
def Loop.finish (l : Loop) : Ending :=
  { state := l.state, reason := l.reason, went := l.went
    verifiedBy := if l.state = .resolved then l.verifiedBy else "" }

/-- The walk ran out of steps, in state `state`. -/
def Loop.exhausted (l : Loop) (state : RunState) : Ending :=
  { state, reason := .str "SOP ended without an ESCALATE or RESOLVE step", went := l.went
    verifiedBy := if state = .resolved then l.verifiedBy else "", exhausted := true }

/-- There is no next step, or it has been visited: an engine fault. -/
def Loop.exhaust (l : Loop) : Program EngineCalls Fault Ending :=
  (guarded l.went (Program.ofExcept (transition l.state .stepsExhausted))).bind fun state =>
    pure (l.exhausted state)

/-- The loop after a step with its result. -/
def Loop.next (l : Loop) (journaled : Bool) (step : SOPStep) (result : StepResult)
    (p : Position) : Loop where
  state := p.state
  reason := p.reason
  verifiedBy := p.verifiedBy
  currentId := p.nextId
  visited := l.currentId :: l.visited
  completed := if (l.completed.lookup step.stepId).isNone && journaled then
    (step.stepId, result) :: l.completed else l.completed
  went := l.went ++ [⟨step, l.state, some result⟩]

/-- `index.get(current_id) if current_id else None`, when it was not visited. -/
def Loop.current (l : Loop) (steps : List SOPStep) : Option SOPStep :=
  if l.currentId = "" ∨ l.currentId ∈ l.visited then none else stepIndex steps l.currentId

/-- The loop of `_run_steps`, for at most the given number of rounds. -/
def runLoop (inc : Incident) (steps : List SOPStep) (values : List (String × Json))
    (journaled : Bool) : Nat → Loop → Program EngineCalls Fault Ending
  | 0, l => .raise ⟨.executing, .other "OutOfRounds" "", l.went⟩
  | n + 1, l =>
    if l.state.isTerminal then .ret l.finish
    else match l.current steps with
    | none => l.exhaust
    | some step =>
      (guarded (l.went ++ [⟨step, l.state, none⟩])
        (Program.ofExcept (started step l.state))).bind fun state =>
      (obtainResult eng inc values journaled l state step).bind fun result =>
      (guarded (l.went ++ [⟨step, l.state, some result⟩])
        (Program.ofExcept (advance eng step result state l.verifiedBy l.reason))).bind fun p =>
      runLoop inc steps values journaled n (l.next journaled step result p)

/-- `_run_steps`.  Each round visits a step that was not visited before. -/
def runSteps (inc : Incident) (steps : List SOPStep) (values : List (String × Json))
    (journal : Option RunJournal) : Program EngineCalls Fault Ending :=
  match steps with
  | [] => .raise ⟨.executing, .other "IndexError" "list index out of range", []⟩
  | first :: _ =>
    runLoop eng inc steps values journal.isSome (steps.length + 1)
      { currentId := first.stepId, completed := (journal.map (·.completed)).getD [] }

/-! ## The whole execution -/

/-- `may_be_advised` -/
def mayBeAdvised (spec : ParameterSpec) : Bool :=
  spec.source.getD "kind" .null = .str "extraction" && spec.source.getD "advisor" .null = .bool true

/-- The values a model located, each accepted or its own failure raised. -/
def acceptAll (inc : Incident) (failures : List (String × String))
    (located : List (String × Json)) : List ParameterSpec → Except Exn (List (String × Json))
  | [] => .ok []
  | spec :: specs => do
    let value ←
      match eng.acceptAdvised spec ((located.lookup spec.name).getD .null) inc with
      | .error (.parameter _) => .error (.parameter ((failures.lookup spec.name).getD ""))
      | r => r
    pure ((spec.name, value) :: (← acceptAll inc failures located specs))

/-- `_bind`: bind every parameter, or raise `ParameterError`. -/
def bindAll (inc : Incident) (sop : SOP) (journal : Option RunJournal) (advisor : Bool) :
    Engine.Prog (List (String × Json)) := do
  let bound ← Program.ofExcept (eng.bindWhatCanBe sop inc)
  match bound.failures with
  | [] => pure bound.values
  | (_, first) :: _ =>
    let askable := bound.notFound.filter fun s =>
      (bound.failures.lookup s.name).isSome && mayBeAdvised s
    if sop.acts ∨ askable.length ≠ bound.failures.length then throw (.parameter first)
    else
      let stored := (journal.map (·.advised)).getD []
      let known := askable.all fun s => (stored.lookup s.name).isSome
      let located ←
        if known then pure (stored.map fun p => (p.1, Json.str p.2))
        else if advisor then request (.extract askable)
        else throw (.parameter first)
      let advised ← Program.ofExcept (acceptAll eng inc bound.failures located askable)
      if !known && journal.isSome then
        request (.recordAdvised (advised.map fun p => (p.1, (py eng).str p.2)))
      let values := advised.foldl (fun vs p => Json.setField vs p.1 p.2) bound.values
      Program.ofExcept (sop.parameters.mapM fun spec =>
        match values.lookup spec.name with
        | some value => .ok (spec.name, value)
        | none => .error (.other "KeyError" spec.name))

/-- `_render_step` -/
def renderStep (values : List (String × Json)) (step : SOPStep) : Except Exn SOPStep := do
  pure { step with parameters := ← eng.render step.parameters values }

/-- The values and the steps to run, or the text of a `ParameterError`. -/
def bindAndRender (inc : Incident) (sop : SOP) (journal : Option RunJournal) (advisor : Bool) :
    Engine.Prog (Except String (List (String × Json) × List SOPStep)) :=
  let bound : Engine.Prog (List (String × Json) × List SOPStep) := do
    let values ← bindAll eng inc sop journal advisor
    let steps ← Program.ofExcept (sop.steps.mapM (renderStep eng values))
    pure (values, steps)
  bound.attempt.bind fun
  | .ok r => pure (.ok r)
  | .error (.parameter message) => pure (.error message)
  | .error e => throw e

/-- Exceptions before the walk has begun. -/
def binding {α : Type} (p : Engine.Prog α) : Program EngineCalls Fault α :=
  p.mapExn fun e => ⟨.binding, e, []⟩

/-- The body of `execute_sop`'s `try`. -/
def body (inc : Incident) (sop : SOP) (journal : Option RunJournal) (advisor : Bool) :
    Program EngineCalls Fault Ending := do
  match validateSop eng.catalog sop with
  | [] =>
    match ← binding (bindAndRender eng inc sop journal advisor) with
    | .error message =>
      let state ← binding (Program.ofExcept (transition .binding .paramsInvalid))
      pure { state, reason := .str s!"Parameter binding failed: {message}" }
    | .ok (values, steps) =>
      let _ ← binding (Program.ofExcept (transition .binding .paramsBound))
      guarded [] (request .connectors)
      runSteps eng inc steps values journal
  | problems =>
    let state ← binding (Program.ofExcept (transition .binding .sopInvalid))
    pure
      { state, reason := .str ("SOP failed validation: " ++ "; ".intercalate (problems.take 5)) }

/-- The state after an internal error. -/
def failedState (state : RunState) : Except Exn RunState :=
  if state.isTerminal then .ok state else transition state .error

/-- The `except` clauses: a suspension passes, any other exception is an outcome. -/
def caught : Except Fault Ending → Except Exn Ending
  | .ok e => .ok e
  | .error f =>
    if f.exn.isSuspended then .error f.exn
    else do
      let state ← failedState f.state
      pure { state, reason := .str s!"Internal error: {f.exn.kind}", went := f.went }

/-- The summary is concluded, and refuses an unverified resolution. -/
def conclude (inc : Incident) (sop : SOP) (e : Ending) : Except Exn ExecutionSummary :=
  let summary : ExecutionSummary :=
    { incidentNumber := inc.number, sopId := sop.sopId, sopTitle := sop.title
      stepResults := results e.went }
  match outcomeOf e.state with
  | none => .error (.other "KeyError" e.state.value)
  | some outcome =>
    match summary.conclude (some outcome) e.reason e.verifiedBy with
    | .ok s => .ok s
    | .error kind =>
      if kind = "UnverifiedResolutionError" then
        (summary.conclude (some .needsHuman)
          (.str "Internal error: resolution had no verification record") "").mapError
            fun kind => .other kind ""
      else .error (.other kind "")

/-- What the execution returns for an end of its body. -/
def settle (inc : Incident) (sop : SOP) (r : Except Fault Ending) :
    Except Exn ExecutionSummary := do
  conclude inc sop (← caught r)

/-- `execute_sop` -/
def executeSop (inc : Incident) (sop : SOP) (journal : Option RunJournal) (advisor : Bool) :
    Engine.Prog ExecutionSummary :=
  (body eng inc sop journal advisor).attempt.bind fun r => Program.ofExcept (settle inc sop r)

/-! ## What one step can do -/

variable {eng}

/-- **What `advance` makes of a result**: everything it can do to the position. -/
inductive Advanced (step : SOPStep) (result : StepResult) (state : RunState)
    (verifiedBy : String) (p : Position) : Prop where
  /-- The run ends, and not in a resolution with a verification on record. -/
  | stopped (hend : p.state.isTerminal = true) (hres : p.state = .resolved → p.verifiedBy = "")
  /-- A RESOLVE step in a verified run. -/
  | resolved (ht : step.type? = some .resolve) (hs : state = .verified) (hp : p.state = .resolved)
      (hv : p.verifiedBy = verifiedBy)
  /-- A VERIFY step that passed. -/
  | passed (ht : step.type? = some .verify) (hr : result.status = .success)
      (hp : p.state = .verified) (hv : p.verifiedBy = step.stepId) (hn : p.nextId = step.onSuccess)
  /-- A note leaves the state as it was. -/
  | noted (ht : step.type? = some .note) (hs : state = .executing ∨ state = .verified)
      (hp : p.state = state) (hv : state = .verified → p.verifiedBy = verifiedBy)
      (hn : p.nextId = step.onSuccess)
  /-- Any other step that failed takes its failure edge, if it has one. -/
  | failed (ht : step.type? ≠ some .note) (hres : step.type? ≠ some .resolve)
      (hr : if step.type? = some .verify then result.status ≠ .success else result.status = .fail)
      (hp : p.state = .executing) (he : step.onFailure ≠ "") (hn : p.nextId = step.onFailure)
  /-- Any other step takes the branch its result names, or its success edge. -/
  | worked (ht : step.type? ≠ some .note) (hres : step.type? ≠ some .resolve)
      (hv : step.type? ≠ some .verify) (hr : result.status ≠ .fail) (hp : p.state = .executing)
      (hn : (result.recommendedNextStep = "" ∨ step.type? = some .action) ∧
          p.nextId = step.onSuccess ∨
        result.recommendedNextStep ≠ "" ∧ p.nextId = result.recommendedNextStep)

theorem bind_eq_ok {ε α β : Type} {x : Except ε α} {f : α → Except ε β} {b : β}
    (h : (x >>= f) = .ok b) : ∃ a, x = .ok a ∧ f a = .ok b := by
  cases x with
  | error e => cases h
  | ok a => exact ⟨a, rfl, h⟩

@[simp] theorem cleared_state (p : Position) : p.cleared.state = p.state := by
  unfold Position.cleared
  split <;> rfl

@[simp] theorem cleared_nextId (p : Position) : p.cleared.nextId = p.nextId := by
  unfold Position.cleared
  split <;> rfl

theorem cleared_verifiedBy {p : Position} (h : p.state = .verified ∨ p.state = .resolved) :
    p.cleared.verifiedBy = p.verifiedBy := by
  unfold Position.cleared
  rw [if_pos h]

theorem cleared_of_empty {p : Position} (h : p.verifiedBy = "") : p.cleared.verifiedBy = "" := by
  unfold Position.cleared
  split
  · exact h
  · rfl

/-- An action leaves the walk executing, or ends it without a verification. -/
theorem afterAction_cases {step : SOPStep} {result : StepResult} {reason : Json}
    {state state' : RunState} {verifiedBy : String} {p : Position}
    (ht : step.type? = some .action) (h : afterAction eng step result state' reason = .ok p) :
    Advanced step result state verifiedBy p.cleared := by
  unfold afterAction at h
  split at h
  · rename_i hterm
    cases h
    exact .stopped (by simpa using hterm) fun _ => cleared_of_empty rfl
  split at h
  · obtain ⟨next, hnext, h⟩ := bind_eq_ok h
    cases h
    obtain rfl := transition_error hnext
    exact .stopped rfl fun _ => cleared_of_empty rfl
  rename_i hexec
  have hexec : state' = .executing := by simpa using hexec
  split at h
  · rename_i hfail
    split at h
    · obtain ⟨next, hnext, h⟩ := bind_eq_ok h
      cases h
      rcases transition_escalate hnext with rfl | rfl
      · exact .stopped rfl fun _ => cleared_of_empty rfl
      · exact .stopped rfl fun _ => cleared_of_empty rfl
    · rename_i hedge
      cases h
      exact .failed (by simp [ht]) (by simp [ht]) (by simp [ht, hfail]) (by simp [hexec]) hedge
        (by simp)
  · rename_i hfail
    cases h
    exact .worked (by simp [ht]) (by simp [ht]) (by simp [ht]) hfail (by simp [hexec])
      (Or.inl ⟨Or.inr ht, by simp⟩)

/-- A run that ends without a resolution. -/
theorem advanced_stopped {step : SOPStep} {result : StepResult} {state : RunState}
    {verifiedBy : String} {p : Position}
    (h : p.state = .needsHuman ∨ p.state = .escalated) :
    Advanced step result state verifiedBy p.cleared := by
  rcases h with h | h
  · exact .stopped (by simp [h, RunState.isTerminal]) (by simp [h])
  · exact .stopped (by simp [h, RunState.isTerminal]) (by simp [h])

theorem advanceStep_cases {step : SOPStep} {result : StepResult} {reason : Json}
    {state : RunState} {verifiedBy : String} {p : Position}
    (h : advanceStep eng step result state verifiedBy reason = .ok p) :
    Advanced step result state verifiedBy p.cleared := by
  unfold advanceStep at h
  simp only at h
  split at h
  · obtain ⟨next, hnext, h⟩ := bind_eq_ok h
    cases h
    exact advanced_stopped (Or.inl (transition_error hnext))
  split at h
  · obtain ⟨next, hnext, h⟩ := bind_eq_ok h
    cases h
    exact advanced_stopped (transition_escalate hnext).symm
  split at h
  · -- RESOLVE
    rename_i ht
    obtain ⟨next, hnext, h⟩ := bind_eq_ok h
    cases h
    rcases transition_resolve hnext with ⟨rfl, hs⟩ | rfl
    · exact .resolved ht hs (by simp) (cleared_verifiedBy (Or.inr rfl))
    · exact advanced_stopped (Or.inl rfl)
  · -- VERIFY
    rename_i ht
    split at h
    · rename_i hok
      obtain ⟨next, hnext, h⟩ := bind_eq_ok h
      cases h
      rcases transition_verifyPassed hnext with rfl | rfl
      · exact .passed ht hok (by simp) (cleared_verifiedBy (Or.inl rfl)) (by simp)
      · exact advanced_stopped (Or.inl rfl)
    rename_i hbad
    split at h
    · obtain ⟨next, -, h⟩ := bind_eq_ok h
      obtain ⟨last, hlast, h⟩ := bind_eq_ok h
      cases h
      exact advanced_stopped (transition_escalate hlast).symm
    · rename_i hedge
      obtain ⟨next, hnext, h⟩ := bind_eq_ok h
      cases h
      rcases transition_worked (Or.inr rfl) hnext with rfl | rfl
      · exact .failed (by simp [ht]) (by simp [ht]) (by simp [ht, hbad]) (by simp) hedge (by simp)
      · exact advanced_stopped (Or.inl rfl)
  · -- NOTE
    rename_i ht
    obtain ⟨next, hnext, h⟩ := bind_eq_ok h
    cases h
    rcases transition_noteDone hnext with ⟨rfl, hs⟩ | rfl
    · exact .noted ht hs (by simp) (fun hv => cleared_verifiedBy (Or.inl hv)) (by simp)
    · exact advanced_stopped (Or.inl rfl)
  · -- any other type
    rename_i hres hver hnote
    have hnote' : step.type? ≠ some .note := fun ht => hnote ht
    have hver' : step.type? ≠ some .verify := fun ht => hver ht
    have hres' : step.type? ≠ some .resolve := fun ht => hres ht
    split at h
    · rename_i hok
      obtain ⟨next, hnext, h⟩ := bind_eq_ok h
      cases h
      rcases transition_worked (Or.inl rfl) hnext with rfl | rfl
      · refine .worked hnote' hres' hver' hok (by simp) ?_
        simp only [cleared_nextId]
        by_cases hn : result.recommendedNextStep = ""
        · exact Or.inl ⟨Or.inl hn, if_pos hn⟩
        · exact Or.inr ⟨hn, if_neg hn⟩
      · exact advanced_stopped (Or.inl rfl)
    rename_i hfail
    have hfail : result.status = .fail := not_not.mp hfail
    split at h
    · obtain ⟨next, -, h⟩ := bind_eq_ok h
      obtain ⟨last, hlast, h⟩ := bind_eq_ok h
      cases h
      exact advanced_stopped (transition_escalate hlast).symm
    · rename_i hedge
      obtain ⟨next, hnext, h⟩ := bind_eq_ok h
      cases h
      rcases transition_worked (Or.inl rfl) hnext with rfl | rfl
      · exact .failed hnote' hres' (by simp [hver', hfail]) (by simp) hedge (by simp)
      · exact advanced_stopped (Or.inl rfl)

theorem advance_cases {step : SOPStep} {result : StepResult} {reason : Json} {state : RunState}
    {verifiedBy : String} {p : Position}
    (h : advance eng step result state verifiedBy reason = .ok p) :
    Advanced step result state verifiedBy p := by
  unfold advance at h
  obtain ⟨path, hpath, h⟩ := bind_eq_ok h
  obtain ⟨q, hq, h⟩ := bind_eq_ok h
  cases h
  unfold route at hq
  split at hq
  · rename_i htrue
    have ht : step.type? = some .action := by
      by_contra hne
      rw [actionPath, if_neg hne] at hpath
      cases hpath
      cases htrue
    unfold advanceAction at hq
    obtain ⟨s₁, -, hq⟩ := bind_eq_ok hq
    obtain ⟨names, -, hq⟩ := bind_eq_ok hq
    obtain ⟨s₂, -, hq⟩ := bind_eq_ok hq
    exact afterAction_cases ht hq
  · exact advanceStep_cases hq

/-- **A step that could not run, or handed over, ends the run**, unless it is an
action that reports its own route. -/
theorem advance_held {step : SOPStep} {result : StepResult} {reason : Json} {state : RunState}
    {verifiedBy : String} {p : Position} (hs : result.status = .error ∨ result.status = .escalated)
    (hpath : actionPath step result = .ok .null)
    (h : advance eng step result state verifiedBy reason = .ok p) :
    p.state.isTerminal = true := by
  unfold advance at h
  obtain ⟨path, hp, h⟩ := bind_eq_ok h
  rw [hpath] at hp
  cases hp
  obtain ⟨q, hq, h⟩ := bind_eq_ok h
  cases h
  rw [cleared_state]
  have hstep : advanceStep eng step result state verifiedBy reason = .ok q := hq
  unfold advanceStep at hstep
  rcases hs with hs | hs
  · simp only [hs, if_true] at hstep
    obtain ⟨next, hnext, hstep⟩ := bind_eq_ok hstep
    cases hstep
    rw [transition_error hnext]
    rfl
  · simp only [hs, if_true, reduceCtorEq, if_false] at hstep
    obtain ⟨next, hnext, hstep⟩ := bind_eq_ok hstep
    cases hstep
    rcases transition_escalate hnext with rfl | rfl
    · rfl
    · rfl

/-! ## What a run of the loop keeps -/

variable {inc : Incident} {steps : List SOPStep} {values : List (String × Json)}
  {journaled : Bool}

theorem current_eq_some {l : Loop} {step : SOPStep} (h : l.current steps = some step) :
    l.currentId ≠ "" ∧ l.currentId ∉ l.visited ∧ step.stepId = l.currentId ∧ step ∈ steps := by
  unfold Loop.current at h
  split at h
  · cases h
  · rename_i hne
    obtain ⟨hid, hvis⟩ := not_or.mp hne
    exact ⟨hid, hvis, stepIndex_id h, stepIndex_mem h⟩

/-- The steps visited so far are distinct steps of the list. -/
def Loop.Counted (steps : List SOPStep) (l : Loop) : Prop :=
  l.visited.Nodup ∧ l.visited ⊆ steps.map (·.stepId)

theorem counted_next {l : Loop} {step : SOPStep} {result : StepResult} {p : Position}
    (hl : l.Counted steps) (h : l.current steps = some step) :
    (l.next journaled step result p).Counted steps := by
  obtain ⟨-, hvis, hid, hmem⟩ := current_eq_some h
  refine ⟨List.nodup_cons.mpr ⟨hvis, hl.1⟩, List.cons_subset.mpr ⟨?_, hl.2⟩⟩
  rw [← hid]
  exact List.mem_map_of_mem hmem

/-- What is known of every end of an exception-free part holds of what the walk
makes of it. -/
theorem guarded_always {α : Type} {went : List Visit} {p : Engine.Prog α}
    {Q : Except Fault α → Prop} (h : p.Always fun r => ∀ a, r = .ok a → Q (.ok a))
    (he : ∀ e, Q (.error ⟨.executing, e, went⟩)) : (guarded went p).Always Q := by
  refine Program.Always.mapExn (h.mono fun r hr => ?_)
  cases r with
  | ok a => exact hr a rfl
  | error e => exact he e

theorem ofExcept_always {α : Type} {r : Except Exn α} {Q : Except Exn α → Prop} (h : Q r) :
    (Program.ofExcept r : Engine.Prog α).Always Q := by
  cases r <;> exact h

/-- Executing a step gives what its handlers give, or an exception that finds the
step among those gone through. -/
theorem executeAndRecord_always {l : Loop} {state : RunState} {step : SOPStep}
    {Live : StepResult → Prop} {Q : Except Fault StepResult → Prop}
    (hlive : (executeStep eng inc (results l.went) values state step).Always fun r =>
      ∀ result, r = .ok result → Live result)
    (hok : ∀ result, Live result → Q (.ok result))
    (hfault : ∀ result e, Q (.error ⟨.executing, e, l.went ++ [⟨step, l.state, result⟩]⟩)) :
    (executeAndRecord eng inc values journaled l state step).Always Q := by
  refine Program.Always.bind (guarded_always ?_ fun e => hfault none e)
  have hstep : (executeStarted eng inc values journaled l state step).Always fun r =>
      ∀ result, r = .ok result → Live result := by
    unfold executeStarted
    split
    · refine Program.Always.bind ((Program.Always.trivial fun _ => True.intro).mono fun r _ => ?_)
      cases r with
      | ok _ => exact hlive
      | error e => rintro result ⟨⟩
    · exact hlive
  refine hstep.mono fun r hr result hresult => ?_
  have hl := hr result hresult
  refine Program.Always.bind (guarded_always ?_ fun e => hfault (some result) e)
  exact Program.Always.trivial fun r a _ => hok result hl

/-- A round of the loop. -/
theorem runLoop_round {l : Loop} {n : Nat} {step : SOPStep} (hrun : l.state.isTerminal = false)
    (hcur : l.current steps = some step) :
    runLoop eng inc steps values journaled (n + 1) l =
      (guarded (l.went ++ [⟨step, l.state, none⟩])
        (Program.ofExcept (started step l.state))).bind fun state =>
      (obtainResult eng inc values journaled l state step).bind fun result =>
      (guarded (l.went ++ [⟨step, l.state, some result⟩])
        (Program.ofExcept (advance eng step result state l.verifiedBy l.reason))).bind fun p =>
      runLoop eng inc steps values journaled n (l.next journaled step result p) := by
  rw [runLoop, if_neg (by simp [hrun]), hcur]

/-- **The rule for the loop.**  What one round keeps, and what each way out of the
loop gives, holds of every end of the walk; and the bound on the rounds is never
met.  `Live` is what is known of the result of a step that was executed. -/
theorem runLoop_always (I : Loop → Prop) (Live : Loop → SOPStep → RunState → StepResult → Prop)
    {Q : Except Fault Ending → Prop}
    (hlive : ∀ l step state, I l → l.current steps = some step →
      (executeStep eng inc (results l.went) values state step).Always fun r =>
        ∀ result, r = .ok result → Live l step state result)
    (hend : ∀ l, I l → l.state.isTerminal = true → Q (.ok l.finish))
    (hexhaust : ∀ l, I l → l.current steps = none → l.state.isTerminal = false →
      Q (.ok (l.exhausted .needsHuman)))
    (hfault : ∀ l step result e, I l → l.current steps = some step → l.state.isTerminal = false →
      Q (.error ⟨.executing, e, l.went ++ [⟨step, l.state, result⟩]⟩))
    (hnext : ∀ l step result state p, I l → l.current steps = some step →
      l.state.isTerminal = false → started step l.state = .ok state →
      (l.completed.lookup step.stepId = some result ∨ Live l step state result) →
      advance eng step result state l.verifiedBy l.reason = .ok p →
      I (l.next journaled step result p))
    {n : Nat} {l : Loop} (hl : I l) (hc : l.Counted steps)
    (hn : steps.length < n + l.visited.length) :
    (runLoop eng inc steps values journaled n l).Always Q := by
  induction n generalizing l with
  | zero =>
    have hle := (List.subperm_of_subset hc.1 hc.2).length_le
    rw [List.length_map] at hle
    omega
  | succ n ih =>
    unfold runLoop
    split
    · rename_i hterm
      exact hend l hl hterm
    rename_i hterm
    have hrun : l.state.isTerminal = false := by simpa using hterm
    split
    · rename_i hnone
      have htr : transition l.state .stepsExhausted = .ok .needsHuman := by
        simp only [transition, hrun]
        cases h : l.state <;> simp_all [transitions, RunState.isTerminal]
      have hq := hexhaust l hl hnone hrun
      simp only [Loop.exhaust, htr]
      exact hq
    · rename_i step hcur
      have hf := fun result e => hfault l step result e hl hcur hrun
      refine Program.Always.bind (guarded_always (ofExcept_always fun state hs => ?_) (hf none))
      have hgo : ∀ result,
          (l.completed.lookup step.stepId = some result ∨ Live l step state result) →
          ((guarded (l.went ++ [⟨step, l.state, some result⟩]) (Program.ofExcept
            (advance eng step result state l.verifiedBy l.reason))).bind fun p =>
              runLoop eng inc steps values journaled n (l.next journaled step result p)).Always
            Q := by
        intro result hres
        refine Program.Always.bind
          (guarded_always (ofExcept_always fun p hp => ?_) (hf (some result)))
        refine ih (hnext l step result state p hl hcur hrun hs hres hp) (counted_next hc hcur) ?_
        simp only [Loop.next, List.length_cons]
        omega
      refine Program.Always.bind (?_ : (obtainResult eng inc values journaled l state step).Always _)
      unfold obtainResult
      cases hrec : l.completed.lookup step.stepId with
      | some result => exact hgo result (Or.inl hrec)
      | none =>
        refine executeAndRecord_always (hlive l step state hl hcur) (fun result hres => ?_) hf
        with_reducible exact hgo result (Or.inr hres)

end Executor

/-! ## An SOP and an engine to run it -/

/-- A catalog without capabilities, whose expressions use no names. -/
def sampleCatalog : Catalog where
  builtins := ⟨fun _ => "", fun _ => none, fun _ => false⟩
  findCapability _ := none
  isStepCapability _ := false
  validateStepParameters _ _ := []
  rootNames _ := .ok []
  specProblems _ := []
  undeclaredPlaceholders _ := []

/-- An engine whose assertions hold and whose templates have no placeholders. -/
def sampleEngine : Engine where
  catalog := sampleCatalog
  evaluate _ _ := .ok true
  bindWhatCanBe _ _ := .ok ⟨[], [], []⟩
  acceptAdvised _ value _ := .ok value
  render parameters _ := .ok parameters

/-- Verify, then resolve; hand over if the verification fails. -/
def sampleSop : SOP where
  sopId := "restart-job"
  title := "Restart"
  steps :=
    [{ stepId := "check", stepType := "VERIFY", onSuccess := "note", onFailure := "l2"
       parameters := .obj [("check", .str "MQ_CHECK"), ("assert", .str "result.depth < 5")] },
      { stepId := "note", stepType := "NOTE", description := "Queue drained", onSuccess := "done" },
      { stepId := "done", stepType := "RESOLVE", description := "Resolved by the agent" },
      { stepId := "l2", stepType := "ESCALATE", description := "To L2" }]

end L1Agent
