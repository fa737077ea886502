import L1Agent.Service.Operations

/-! # The action pipeline (`actions/service.py`)

`perform` carries an ACTION step as far as it may go: decide, change record, approval,
pre-checks, execute, verify, roll back.  Each stage is a function of its own, in the
source's order and with its texts; a stage that ends the step before the write gives a
`Stop`.  The notes on the ticket are left out: they are best effort, and nothing is read
back from them.

The operations that the pipeline calls are those of `Service/Operations.lean`.  What `perform`
returns or raises, and how the sweeper and the approvers' answers enter, is here as well; what it
keeps to is proved in `Actions/Kept.lean` and after it.
-/
namespace L1Agent
open Interleaving

/-- `ActionCall`: one ACTION step of one run. -/
structure ActionCall where
  /-- The parameters are already rendered. -/
  step : SOPStep
  incident : Incident
  sop : SOP
  /-- `none` for a run that is not recorded, which has no tenant either. -/
  runId : Option Nat

/-- `action_hash`: what an approval is for. -/
def actionHash (site : Site) (incident : Incident) (sop : SOP) (capabilityId : String)
    (parameters : Json) : String :=
  site.sha (Json.canonical (.obj [("tenant", .str site.tenant), ("incident", .str incident.sysId),
    ("sop", .str sop.sopId), ("sop_sha256", .str sop.contentHash),
    ("capability", .str capabilityId), ("parameters", parameters)]))

/-- `" ".join(text.split())` -/
def squeeze (text : String) : String :=
  " ".intercalate (((text.toList.splitOnP Char.isWhitespace).map String.ofList).filter (· ≠ ""))

/-- How an exception is told to a person. -/
def Exn.told (e : Exn) : String := s!"{e.kind}: {e.message}"

/-- The same, on one line. -/
def Exn.short (e : Exn) : String :=
  if clipText 200 (squeeze e.message) = "" then e.kind else clipText 200 (squeeze e.message)

/-- The exception of an attribute that `None` does not have. -/
def noAttribute (name : String) : Exn :=
  .other "AttributeError" s!"'NoneType' object has no attribute '{name}'"

namespace ActionService
variable (site : Site)

/-! ## The result of a step -/

/-- `_result` -/
def resultOf (step : SOPStep) (status : StepStatus) (events : List RunEvent) (message : String)
    (evidence : String) (action : Json) : ActionAnswer where
  status := status
  evidence := evidence
  errorMessage := if status = .success ∨ status = .skip then "" else message
  toolCalled := "action"
  inputSummary := clipText 300 (step.capability ++ " " ++ site.canonicalText step.parameters)
  outputSummary := clipText 300 message
  data := .obj [("events", .arr (events.map fun e => .str e.value)), ("action", action)]

/-- `_events_before_acting` -/
def eventsBeforeActing (row : ActionRow) : List RunEvent :=
  if row.verdict = .allow then [.policyAllowed] else [.approvalRequired, .approvalGranted]

/-- The path of an approval that was asked for and not given. -/
def asked : List RunEvent := [.approvalRequired, .approvalRefused]

/-- The step's status and its path through the state machine, for an action that has
finished. -/
def finalStatus (row : ActionRow) : Option (StepStatus × List RunEvent) :=
  let acted := eventsBeforeActing row
  match row.status with
  | .shadowed => some (.skip, [.policyShadow])
  | .recommended => some (.escalated, [.policyRecommend])
  | .rejected | .expired => some (.escalated, asked)
  | .notDone => some (.fail, acted ++ [.actionNotDone])
  | .verified => some (.success, acted ++ [.actionVerified])
  | .rolledBack | .rollbackFailed => some (.escalated, acted ++ [.actionFailed, .rollbackDone])
  | .denied =>
    some (.escalated, [if row.reasonCode = killSwitchCode then .abort else .policyDenied])
  | .aborted => some (.escalated, acted ++ [.abort])
  | .invalid => some (.escalated, if row.verdict = .allow then [.policyDenied] else asked)
  | .failed =>
    if row.result.any (·.unknown) then some (.error, acted ++ [.error])
    else some (.escalated, acted ++ [.actionFailed, .rollbackDone])
  | .pending | .approved | .allowed | .executing | .executed | .rollingBack => none

/-- The text of a finished action. -/
def finalMessage (row : ActionRow) : String :=
  let what := row.capabilityId ++ " " ++ site.canonicalText row.parameters
  match row.status with
  | .shadowed => s!"Shadow mode: would have run {what}. Nothing was changed"
  | .recommended => s!"Recommended, not done: {what}"
  | .rejected => "The action was rejected by " ++ row.approverId.getD "None" ++
      if row.decisionNote = "" then "" else ": " ++ row.decisionNote
  | _ =>
    let stored := ((row.result.bind (·.message)).getD "")
    if stored ≠ "" then stored else if row.rule ≠ "" then row.rule else row.status.value

/-- `_final`: the step result for an action that has finished, from its record alone. -/
def finalResult (step : SOPStep) (row : ActionRow) : Except Exn ActionAnswer :=
  match finalStatus row with
  | none => .error (.other "KeyError" row.status.value)
  | some (status, events) =>
    .ok (resultOf site step status events (finalMessage site row)
      (row.result.elim "" (·.evidence))
      (.obj [("id", .str (toString row.id)), ("status", .str row.status.value),
        ("verdict", .str row.verdict.value), ("reason_code", .str row.reasonCode),
        ("tier", .str row.tier.value), ("change", .str row.changeNumber),
        ("approver", .str (row.approverId.getD "")), ("action_sha256", .str row.actionHash)]))

/-! ## Helpers -/

/-- `kill_switches`: every switch that is on now. -/
def killSwitches : Prog (List String) := do
  let on : List String ← askDb .switchesOn
  let file : Bool ← ask .localSwitch
  pure (on ++ if file then ["local"] else [])

/-- `_holds`: an assertion that cannot be evaluated does not hold. -/
def holds (assertion : Json) (result : AdapterResult) (parameters : Json) : Except Exn Bool :=
  match site.eng.evaluate assertion
      (.obj [("result", .obj result.data), ("params", parameters)]) with
  | .error (.expression _) => .ok false
  | r => r

/-- `_read_parameters`: those of the action's parameters that the other capability
declares, plus the fixed ones. -/
def readParameters (step : SOPStep) (capabilityId : String) (fixed : List (String × Json)) :
    Json :=
  let declared := (site.registry.capability capabilityId).elim [] (·.properties)
  let shared := match step.parameters with
    | .obj fields => fields.filter fun f => f.1 ∈ declared
    | _ => []
  .ofPairs (shared ++ fixed)

/-- What `_finish` is told besides the statuses. -/
structure Finish where
  toStatus : ActionStatus
  event : String
  message : String
  evidence : String := ""
  unknown : Bool := false
  verdict : Option Verdict := none
  reasonCode : Option String := none
  payload : List (String × Json) := []

/-- The columns that `_finish` sets. -/
def Finish.values (f : Finish) : Values where
  result := some
    { message := some f.message, evidence := clipText 2000 f.evidence, unknown := f.unknown }
  verdict := f.verdict
  reasonCode := f.reasonCode
  rule := if f.toStatus = .denied then some (clipText 300 f.message) else none

/-- `_finish`: the action is moved to a status.  If another attempt moved it first, that
attempt's status stands. -/
def finish (row : ActionRow) (fromStatuses : List ActionStatus) (f : Finish) :
    Prog ActionRow := do
  let moved : Option ActionRow ← askDb (.transition row.id fromStatuses f.toStatus f.event
    (("message", .str f.message) :: f.payload) f.values false)
  match moved with
  | some row => pure row
  | none => askDb (.get row.id)

/-! ## Stage 1: decide -/

/-- The values of the new row. -/
def decision (call : ActionCall) (capability : Capability) (runId : Nat) (wanted author : String)
    (now : Nat) (rules : Rules) (ruling : Ruling) : Decision :=
  let status := verdictStatus ruling.verdict
  { runId
    incidentNumber := call.incident.number
    stepId := call.step.stepId
    sopKey := call.sop.sopId
    sopVersion := call.sop.version
    sopHash := call.sop.contentHash
    sopAuthorId := author
    capabilityId := capability.id
    parameters := call.step.parameters
    callDigest := callDigest site.sha capability.id call.step.parameters
    actionHash := wanted
    tier := (ruling.tier.or capability.tier).getD .t2
    verdict := ruling.verdict
    reasonCode := ruling.reasonCode
    rule := clipText 300 ruling.rule
    status
    changeTemplate := call.sop.changeTemplate
    channels := if status = .pending then rules.channels else []
    expiresAt := if status = .pending then some (now + minutes rules.approvalTtlMinutes) else none
    validUntil := if status = .allowed then some (now + minutes rules.executeWithinMinutes)
      else none
    completedAt := if status.isFinal then some now else none }

/-- What the audit log keeps of a decision. -/
def decisionPayload (d : Decision) (autonomy : Autonomy) : List (String × Json) :=
  [("sop_id", .str d.sopKey), ("sop_version", .str d.sopVersion), ("sop_sha256", .str d.sopHash),
    ("capability", .str d.capabilityId), ("parameters", d.parameters),
    ("action_sha256", .str d.actionHash), ("tier", .str d.tier.value),
    ("verdict", .str d.verdict.value), ("reason_code", .str d.reasonCode), ("rule", .str d.rule),
    ("autonomy", .str autonomy.value)]

/-- `record_decision`: the row, or the one that another attempt at this step recorded
first. -/
def record (d : Decision) (autonomy : Autonomy) : Prog (Option ActionRow) := do
  let recorded ← (askDb (.recordDecision d (decisionPayload d autonomy))).attempt
  match recorded with
  | .ok row => pure (some row)
  | .error e =>
    if e.kind = "IntegrityError" then askDb (.find d.runId d.stepId) else throw e

/-- `_decide` -/
def decide (call : ActionCall) (capability : Capability) (runId : Nat) (wanted : String) :
    Prog (Option ActionRow) := do
  let policy : TenantPolicy ← askDb .getPolicy
  let found : Nat × String ←
    askDb (.situation policy.rules.rateMinutes call.sop.sopId call.sop.contentHash)
  let now : Nat ← ask .utcnow
  let on ← killSwitches
  let refusals : List String ← ask (.refusals capability.id call.step.parameters)
  let ruling := evaluate site.text
    { sopId := call.sop.sopId
      sopHash := call.sop.contentHash
      capabilityId := capability.id
      isDeclaredWrite := true
      baseTier := capability.tier
      targets := capability.targetParameters.map fun n =>
        site.eng.catalog.builtins.str (call.step.parameters.getD n (.str ""))
      now }
    { killSwitches := on
      tenantAutonomy := policy.autonomy
      rules := policy.rules
      maxTier := site.maxTier
      maxAutonomy := site.maxAutonomy
      recentActions := found.1
      refusals }
  record (decision site call capability runId wanted found.2 now policy.rules ruling)
    ruling.autonomy

/-! ## Stage 2: the change record -/

/-- `CHANGE_UNAVAILABLE` -/
def changeUnavailable : String := "change_record_unavailable"

/-- The change record that the write is made under, or why there is none. -/
def openChange (call : ActionCall) (row : ActionRow) : Prog ChangeRef :=
  if row.changeTemplate = "" then
    throw (.other "ChangeUnavailable" "the SOP names no change template")
  else ask (.openChange row call.incident.sysId)

/-- A change record could not be opened: the decision is a denial. -/
def noChange (e : Exn) : Finish where
  toStatus := .denied
  event := "policy.decided"
  message := s!"No change record could be opened ({e.short}), so the action was not taken"
  verdict := some .deny
  reasonCode := some changeUnavailable
  payload := [("verdict", .str Verdict.deny.value), ("reason_code", .str changeUnavailable)]

/-- The statuses before a write is authorised. -/
def undone : List ActionStatus := [.pending, .approved, .allowed]

/-- `_ensure_change` -/
def ensureChange (call : ActionCall) (row : ActionRow) : Prog ActionRow :=
  if row.changeNumber ≠ "" then pure row
  else do
    let opened ← (openChange call row).attempt
    match opened with
    | .error e => finish row undone (noChange e)
    | .ok ref =>
      askDb (.note row.id "change.opened"
        [("change", .str ref.number), ("template", .str row.changeTemplate),
          ("action_sha256", .str row.actionHash)]
        { changeSysId := some ref.sysId, changeNumber := some ref.number })

/-! ## Stage 3: approval -/

/-- The change record's own approval is asked for, if that channel is on. -/
def askInServicenow (row : ActionRow) : Prog Nat :=
  if channelServicenow ∈ row.channels then do
    let policy : TenantPolicy ← askDb .getPolicy
    let asked ← (ask (.requestChangeApproval ⟨row.changeSysId, row.changeNumber⟩
      policy.rules.servicenowGroup)).attempt
    -- The request can still be approved in the product, if that channel is on.
    pure (match asked with
      | .ok n => n
      | .error _ => 0)
  else pure 0

/-- `_request_approval` -/
def requestApproval (row : ActionRow) : Prog ActionRow := do
  let asked ← askInServicenow row
  let now : Nat ← ask .utcnow
  askDb (.note row.id "approval.requested"
    [("capability", .str row.capabilityId), ("parameters", row.parameters),
      ("action_sha256", .str row.actionHash), ("tier", .str row.tier.value),
      ("change", .str row.changeNumber), ("channels", .arr (row.channels.map .str)),
      ("asked_in_servicenow", .int asked),
      ("expires_at", .str (row.expiresAt.elim "" fun t => site.text.isoformat t))]
    { requestedAt := some now })

/-- `_expire` -/
def expire (row : ActionRow) (wake : Bool) : Prog (Option ActionRow) :=
  askDb (.transition row.id [.pending] .expired "approval.expired"
    [("expired_at", .str (row.expiresAt.elim "" fun t => site.text.isoformat t))]
    { result := some { message := some "The approval request expired with no decision" } } wake)

/-- A request that no decision came for in time has expired. -/
def lapse (row : ActionRow) (now : Nat) : Prog ActionRow :=
  match row.expiresAt with
  | none => throw (.other "TypeError" "'>=' not supported between instances")
  | some expiresAt =>
    if expiresAt ≤ now then do
      let expired ← expire site row false
      match expired with
      | some row => pure row
      | none => askDb (.get row.id)
    else pure row

/-- The request is made once. -/
def requestOnce (row : ActionRow) : Prog ActionRow :=
  if row.requestedAt.isNone then requestApproval site row else pure row

/-- A row that is pending is asked about, and waited for. -/
def await (call : ActionCall) (capability : Capability) (row : ActionRow) : Prog ActionRow :=
  if row.status = .pending then do
    let row ← requestOnce site row
    let now : Nat ← ask .utcnow
    let row ← lapse site row now
    if row.status = .pending then
      throw (.suspended s!"waiting for approval of {capability.id} on {call.incident.number}")
    else pure row
  else pure row

/-! ## Stages 4 to 9 -/

/-- Why an action is stopped before its write. -/
structure Stop where
  toStatus : ActionStatus
  event : String
  message : String
  evidence : String := ""

def Stop.finish (s : Stop) : Finish where
  toStatus := s.toStatus
  event := s.event
  message := s.message
  evidence := s.evidence

/-- The statuses that a write may be authorised from. -/
def waiting : List ActionStatus := [.approved, .allowed]

/-- The statuses in which a write has been authorised and has no result yet. -/
def openStatuses : List ActionStatus := [.executing, .executed, .rollingBack]

/-- The action is stopped, and its step has ended. -/
def stopped (call : ActionCall) (row : ActionRow) (s : Stop) : Prog ActionAnswer := do
  let row ← finish row waiting s.finish
  Program.ofExcept (finalResult site call.step row)

/-- A switch that is on stops the action. -/
def switchStop : Prog (Option Stop) := do
  let on ← killSwitches
  pure (if on = [] then none else some
    { toStatus := .aborted, event := "action.aborted"
      message := "Stopped before the write: kill switch is on (" ++ ", ".intercalate on ++ ")" })

/-- A decision that was not acted on in time no longer applies. -/
def timeStop (row : ActionRow) : Prog (Option Stop) := do
  let now : Nat ← ask .utcnow
  pure (if row.validUntil.all (· ≤ now) then some
    { toStatus := .invalid, event := "action.invalidated"
      message := "The decision was not acted on in time and no longer applies" } else none)

/-- Whether a pre-check passed. -/
def passed (call : ActionCall) (check : PreCheck) (a : CallAnswer) : Except Exn Bool :=
  match a.status, a.result with
  | .success, some result => holds site (.str check.assertion) result call.step.parameters
  | _, _ => .ok false

/-- The reads that the capability declares. -/
def preCheckStop (call : ActionCall) : List PreCheck → Prog (Option Stop)
  | [] => pure none
  | check :: checks => do
    let a : CallAnswer ← ask (.callAdapter check.capability
      (readParameters site call.step check.capability check.parameters) call.step.stepId 0 none)
    let ok ← Program.ofExcept (passed site call check a)
    if ok then preCheckStop call checks
    else
      let why := if a.error ≠ "" then a.error else s!"{check.assertion} is not true"
      pure (some
        { toStatus := .notDone, event := "action.not_done"
          message := s!"Pre-check {check.capability} did not pass ({why}); nothing was changed"
          evidence := a.result.elim "" (·.evidenceSnippet) })

/-- What a call that raised counts as. -/
def raised (e : Exn) : WriteAnswer := { success := false, error := e.told }

/-- The target is asked whether it would accept the write. -/
def dryRunStop (call : ActionCall) (capability : Capability) : Prog (Option Stop) :=
  if capability.supportsDryRun then do
    let trial ← (do
      ask (.checkCall capability.id call.step.parameters)
      ask (.dryRun capability.id call.step.parameters) : Prog WriteAnswer).attempt
    let trial := match trial with
      | .ok a => a
      | .error e => raised e
    pure (if trial.success then none else some
      { toStatus := .notDone, event := "action.not_done"
        message := s!"The dry run was refused ({trial.error}); nothing was changed" })
  else pure none

/-- The first stage that stops the action. -/
def firstStop : List (Prog (Option Stop)) → Prog (Option Stop)
  | [] => pure none
  | stage :: stages => do
    let stop ← stage
    match stop with
    | some s => pure (some s)
    | none => firstStop stages

/-- `_authorise`: the database records that the write may be made, and only then is the
grant for it minted. -/
def authorise (row : ActionRow) : Prog (Except String (ActionRow × Grant)) := do
  let file : Bool ← ask .localSwitch
  let authorised : Except String ActionRow ← askDb (.authoriseExecution row.id file)
  match authorised with
  | .error why => pure (.error why)
  | .ok executing =>
    let grant ← ask (.mint .write executing executing.capabilityId executing.callDigest)
    pure (.ok (executing, grant))

/-- `part in text` -/
def contains (part text : String) : Bool := (text.toList.tails.any part.toList.isPrefixOf)

/-- Why the write was not authorised decides the status. -/
def notAuthorised (why : String) : Stop where
  toStatus := if contains "kill switch" why then .aborted
    else if contains "already" why then .notDone else .invalid
  event := if contains "kill switch" why then "action.aborted"
    else if contains "already" why then "action.not_done" else "action.invalidated"
  message := s!"Not executed: {why}"

/-- `redeem`, and `invoke` around it: the switches are read once more, and the grant is
redeemed immediately before the write. -/
def invokeWrite (purpose : Purpose) (row : ActionRow) (capabilityId : String) (parameters : Json)
    (grant : Grant) : Prog WriteAnswer := do
  ask (.checkCall capabilityId parameters)
  let on ← killSwitches
  if on ≠ [] then throw (writeNotAuthorized ("kill switch is on: " ++ ", ".intercalate on))
  else ask (.write purpose row.id grant
    { tenantId := site.tenant, runId := toString row.runId, stepId := row.stepId, capabilityId
      parameters })

/-- `_note_change` -/
def noteChange (row : ActionRow) (text : String) : Prog Unit :=
  if row.changeSysId = "" then pure ()
  else do
    let _ ← (ask (.noteChange ⟨row.changeSysId, row.changeNumber⟩ text)).attempt
    pure ()

/-- `_close_change`: a refusal is recorded and changes nothing else. -/
def closeChange (row : ActionRow) (successful : Bool) (notes : String) : Prog Unit :=
  if row.changeSysId = "" then pure ()
  else do
    let closed ← (ask (.closeChange row.id ⟨row.changeSysId, row.changeNumber⟩ successful
      (clipText 1000 notes))).attempt
    let error := match closed with
      | .ok _ => ""
      | .error e => e.short
    let _ ← askDb (.note row.id
      (if closed.isOk then "change.closed" else "change.close_failed")
      [("change", .str row.changeNumber), ("successful", .bool successful), ("error", .str error)]
      {})
    pure ()

/-- `_authorise_rollback`: a grant for the declared rollback of a write. -/
def authoriseRollback (row : ActionRow) (capabilityId : String) (parameters : Json) :
    Prog (Option Grant) := do
  let on ← killSwitches
  if on ≠ [] then pure none
  else
    let moved : Option ActionRow ← askDb (.transition row.id [.executing, .executed] .rollingBack
      "action.rolling_back" [("rollback", .str capabilityId), ("parameters", parameters)] {} false)
    match moved with
    | none => pure none
    | some _ =>
      let grant ← ask (.mint .rollback row capabilityId
        (callDigest site.sha capabilityId parameters))
      pure (some grant)

/-- The rollback is made, if it may be. -/
def undo (row : ActionRow) (declared : String) (parameters : Json) : Prog WriteAnswer := do
  let grant ← authoriseRollback site row declared parameters
  match grant with
  | none => pure { success := false, error := "the rollback was not authorised" }
  | some grant =>
    let undone ← (invokeWrite site .rollback row declared parameters grant).attempt
    pure (match undone with
      | .ok a => a
      | .error e => raised e)

/-- `text.startswith("none:")` -/
def saysNone (text : String) : Bool := "none:".toList.isPrefixOf text.toList

/-- The reason after the colon. -/
def noneReason (declared : String) : String :=
  let reason := squeeze (partition ':' declared).2.2
  if reason = "" then "none is declared" else reason

/-- How an action ends whose write was rolled back, or could not be. -/
def afterUndo (declared why evidence : String) (undone : WriteAnswer) : Finish :=
  if undone.success then
    { toStatus := .rolledBack, event := "action.rolled_back"
      message := s!"{why}. Rolled back with {declared}", evidence
      payload := [("rollback", .str declared), ("reason", .str why)] }
  else
    { toStatus := .rollbackFailed, event := "action.rollback_failed"
      message := s!"{why}. The rollback ({declared}) also failed: {undone.error}", evidence
      payload := [("rollback", .str declared), ("reason", .str why)] }

/-- The write is undone where the manifest says how. -/
def settleRollback (call : ActionCall) (capability : Capability) (row : ActionRow)
    (why evidence : String) : Prog ActionRow :=
  let declared := capability.rollback
  if declared = "" ∨ saysNone declared = true then
    finish row openStatuses
      { toStatus := .failed, event := "action.failed"
        message := s!"{why}. No rollback: {noneReason declared}", evidence
        payload := [("rollback", .str "none"), ("reason", .str why)] }
  else do
    let undone ← undo site row declared (readParameters site call.step declared [])
    finish row openStatuses (afterUndo declared why evidence undone)

/-- `_roll_back`: undo the write, then hand the incident to a person. -/
def rollBack (call : ActionCall) (capability : Capability) (row : ActionRow)
    (why evidence : String) : Prog ActionAnswer := do
  let row ← settleRollback site call capability row why evidence
  closeChange row false ((row.result.bind (·.message)).getD why)
  Program.ofExcept (finalResult site call.step row)

/-- What the verification reads show. -/
inductive Seen where
  | shown (attempts : Nat) (result : AdapterResult)
  | notShown (why : String) (last : Option AdapterResult)

/-- What one read shows. -/
inductive Glance where
  | failed (error : String)
  | holds (result : AdapterResult)
  | failedAgain (result : AdapterResult)
  | notYet (result : AdapterResult)

/-- The read's result, against the assertion and against the sign of failure. -/
def glance (step : SOPStep) (assertion : Json) (failed : String) (a : CallAnswer) :
    Except Exn Glance :=
  match a.status, a.result with
  | .success, some result => do
    let yes ← holds site assertion result step.parameters
    if yes then pure (.holds result)
    else if failed = "" then pure (.notYet result)
    else
      let again ← holds site (.str failed) result step.parameters
      pure (if again then .failedAgain result else .notYet result)
  | _, _ => .ok (.failed a.error)

/-- The loop of the verification reads: `n` are left. -/
def verifyReads (step : SOPStep) (action : Nat) (spec : Verify) (assertion parameters : Json) :
    Nat → Nat → String → Option AdapterResult → Prog Seen
  | 0, _, why, last => pure (.notShown why last)
  | n + 1, attempt, _, last => do
    let a : CallAnswer ← ask (.callAdapter spec.capability parameters step.stepId attempt
      (some ⟨action, assertion, step.parameters⟩))
    let seen ← Program.ofExcept (glance site step assertion spec.failed a)
    match seen with
    | .failed error =>
      verifyReads step action spec assertion parameters n (attempt + 1)
        s!"the verification read failed: {error}" last
    | .holds result => pure (.shown (attempt + 1) result)
    | .failedAgain result => pure (.notShown s!"it failed again ({spec.failed})" (some result))
    | .notYet result =>
      verifyReads step action spec assertion parameters n (attempt + 1)
        (site.eng.catalog.builtins.str assertion ++ s!" was not true after {attempt + 1} read(s)")
        (some result)

/-- `"\n".join(filter(None, texts))` -/
def joinLines (texts : List String) : String := "\n".intercalate (texts.filter (· ≠ ""))

/-- `step.verify.get(key, default)` -/
def verifyOption (step : SOPStep) (key : String) (default : Json) : Except Exn Json :=
  Executor.param step.verify key default

/-- The assertion to verify by, and how many more reads may be made. -/
def verifyPlan (step : SOPStep) (spec : Verify) : Except Exn (Json × Int) := do
  let own ← verifyOption step "assert" .null
  let retries ← verifyOption step "retries" (.int spec.retries)
  let wait ← verifyOption step "wait_seconds" (.int 0)
  match site.eng.catalog.builtins.toInt retries, site.eng.catalog.builtins.isNumber wait with
  | some retries, true => .ok (own.orElse (.str spec.assertion), retries)
  | none, _ => .error (Executor.intError site.eng retries)
  | _, false => .error (Executor.floatError site.eng wait)

/-- An action whose write shows at the target. -/
def verifiedFinish (assertion : String) (evidence : String) (attempts : Nat)
    (result : AdapterResult) : Finish where
  toStatus := .verified
  event := "action.verified"
  message := s!"Verified: {assertion}"
  evidence := joinLines [evidence, result.evidenceSnippet]
  payload := [("assertion", .str assertion), ("attempts", .int attempts)]

/-- Nothing shows that the write happened, and nothing shows that it did not. -/
def unknownFinish (lost why : String) : Finish where
  toStatus := .failed
  event := "action.failed"
  message := s!"{lost}, and the target does not show its result ({why}). Whether it happened " ++
    "is not known, so it was not repeated"
  unknown := true

/-- How the action goes on after the verification reads.  With `lost` the write was
interrupted: rolling back something that may not have been done would be a second
unrequested change. -/
def afterReads (call : ActionCall) (capability : Capability) (row : ActionRow)
    (assertion evidence : String) (lost : Option String) : Seen → Prog ActionAnswer
  | .shown attempts result => do
    let row ← finish row [.executed, .executing]
      (verifiedFinish assertion evidence attempts result)
    closeChange row true s!"Verified: {assertion}"
    Program.ofExcept (finalResult site call.step row)
  | .notShown why last =>
    match lost with
    | some lost => do
      let row ← finish row [.executing] (unknownFinish lost why)
      Program.ofExcept (finalResult site call.step row)
    | none =>
      rollBack site call capability row s!"The action ran but was not verified: {why}"
        (joinLines [evidence, last.elim "" (·.evidenceSnippet)])

/-- `_verify_and_finish` -/
def verifyAndFinish (call : ActionCall) (capability : Capability) (row : ActionRow)
    (evidence : String) (lost : Option String) : Prog ActionAnswer :=
  match capability.verify with
  | none => throw (noAttribute "assertion")
  | some spec => do
    let plan ← Program.ofExcept (verifyPlan site call.step spec)
    let seen ← verifyReads site call.step row.id spec plan.1
      (readParameters site call.step spec.capability spec.parameters) (plan.2 + 1).toNat 0
      "the verification read did not succeed" none
    afterReads site call capability row (site.eng.catalog.builtins.str plan.1) evidence lost seen

/-- The write was accepted: that goes on record, and the target is read. -/
def recordExecuted (call : ActionCall) (capability : Capability) (row : ActionRow)
    (written : WriteAnswer) : Prog ActionAnswer := do
  let moved : Option ActionRow ← askDb (.transition row.id [.executing] .executed "action.executed"
    [("output_sha256", .str (site.sha written.data))]
    { result := some { evidence := clipText 2000 written.evidenceSnippet } } false)
  match moved with
  | none => throw (noAttribute "change_sys_id")
  | some row =>
    noteChange row
      (s!"L1 Agent ran {capability.id} " ++ site.canonicalText call.step.parameters ++ ".")
    verifyAndFinish site call capability row written.evidenceSnippet none

/-- The write that was authorised is made. -/
def send (call : ActionCall) (capability : Capability) (row : ActionRow) (grant : Grant) :
    Prog ActionAnswer := do
  let written ← (invokeWrite site .write row capability.id call.step.parameters grant).attempt
  match written with
  | .ok a =>
    if a.success then recordExecuted site call capability row a
    else rollBack site call capability row s!"The write failed: {a.error}" ""
  | .error e =>
    -- A runner took the write and did not answer.
    if e.kind = "OutcomeUnknown" then
      verifyAndFinish site call capability row ""
        (some "The runner took the write and returned no result")
    else rollBack site call capability row s!"The write failed: {e.told}" ""

/-- `_act` -/
def act (call : ActionCall) (capability : Capability) (row : ActionRow) : Prog ActionAnswer := do
  let stop ← firstStop [switchStop, timeStop row, preCheckStop site call capability.preChecks,
    dryRunStop call capability]
  match stop with
  | some s => stopped site call row s
  | none =>
    let authorised ← authorise row
    match authorised with
    | .error why => stopped site call row (notAuthorised why)
    | .ok (row, grant) => send site call capability row grant

/-! ## The step -/

/-- A rollback that another attempt had begun is not repeated. -/
def interruptedRollback : Finish where
  toStatus := .failed
  event := "action.failed"
  message := "The run was interrupted while a rollback was being made. Whether it happened is " ++
    "not known, so it was not repeated"
  unknown := true

/-- The part of `_continue` after the wait. -/
def proceed (call : ActionCall) (capability : Capability) (row : ActionRow) :
    Prog ActionAnswer :=
  match row.status with
  | .approved | .allowed => act site call capability row
  -- The write was recorded and the worker died while verifying.  Reads can be repeated.
  | .executed => verifyAndFinish site call capability row "" none
  -- The worker died between sending the write and recording its result.
  | .executing => verifyAndFinish site call capability row ""
      (some "The run was interrupted while the write was being made")
  | .rollingBack => do
    let row ← finish row [.rollingBack] interruptedRollback
    Program.ofExcept (finalResult site call.step row)
  | _ => Program.ofExcept (finalResult site call.step row)

/-- `_continue` -/
def continueStep (call : ActionCall) (capability : Capability) (row : ActionRow) :
    Prog ActionAnswer := do
  let row ← if row.status ∈ undone then ensureChange call row else pure row
  let row ← await site call capability row
  proceed site call capability row

/-- The step no longer renders to what was decided on, or approved. -/
def changed : Finish where
  toStatus := .invalid
  event := "action.invalidated"
  message := "The action is no longer the one that was decided on: its parameters changed"

/-- The row of the step, decided on now if it has not been. -/
def obtainRow (call : ActionCall) (capability : Capability) (runId : Nat) :
    Prog (Option ActionRow) := do
  let wanted := actionHash site call.incident call.sop capability.id call.step.parameters
  let found : Option ActionRow ← askDb (.find runId call.step.stepId)
  match found with
  | none => decide site call capability runId wanted
  | some row =>
    if row.actionHash ≠ wanted ∧ row.status.isFinal = false then do
      let row ← finish row undone changed
      pure (some row)
    else pure (some row)

/-- `perform`: raises `RunSuspended` to wait for an approval. -/
def perform (call : ActionCall) : Prog ActionAnswer :=
  match site.registry.capability call.step.capability with
  | none => pure (resultOf site call.step .error []
      s!"'{call.step.capability}' is not a declared write capability" "" (.obj []))
  | some capability =>
    if capability.kind ≠ .write then
      pure (resultOf site call.step .error []
        s!"'{call.step.capability}' is not a declared write capability" "" (.obj []))
    else match call.runId with
    | none => pure (resultOf site call.step .escalated [.policyDenied]
        "An action needs a recorded run; this run has none" "" (.obj []))
    | some runId => do
      let row ← obtainRow site call capability runId
      match row with
      | none => throw (noAttribute "status")
      | some row => continueStep site call capability row

/-! ## The worker's part: expiry, and approvals given in ServiceNow -/

/-- Why a decision made in ServiceNow is not accepted. -/
def problemWith (row : ActionRow) (found : ChangeApproval) : Prog String :=
  if found.correlation ≠ row.actionHash then
    pure "The change record no longer carries the hash of this action"
  else if found.approver = "" then pure "ServiceNow did not say who decided"
  else if found.state = "approved" ∧ row.tier = .t2 then do
    let author : String ← askDb (.authorEmail row.sopAuthorId)
    let approver := site.fold found.approverEmail
    pure (if author = "" ∨ approver = "" ∨ author = approver then
      "The ServiceNow approver could not be shown to be someone other than the author of the " ++
        "SOP, which a T2 action requires" else "")
  else pure ""

/-- A decision, which is refused after the fact when it came too late. -/
def decideAction (id : Nat) (answer : Answer) : Prog Unit := do
  let expired : Bool ← askDb (.decide id answer)
  if expired then throw (actionError "WrongState" "The approval request has expired")
  else pure ()

/-- The exceptions that `ActionError` covers. -/
def isActionError (e : Exn) : Bool :=
  e.kind ∈ ["ActionError", "NotFound", "WrongState", "NotAllowed"]

/-- `_collect`: an approval or rejection made on the change record is applied. -/
def collect (row : ActionRow) : Prog Nat := do
  let found : ChangeApproval ← ask (.changeApproval ⟨row.changeSysId, row.changeNumber⟩)
  if found.state ≠ "approved" ∧ found.state ≠ "rejected" then pure 0
  else
    let problem ← problemWith site row found
    if problem ≠ "" then
      let _ ← askDb (.transition row.id [.pending] .invalid "approval.not_accepted"
        [("via", .str channelServicenow), ("reason", .str problem)]
        { result := some { message := some problem } } true)
      pure 1
    else
      (decideAction row.id
        { actor := "user:servicenow|" ++ found.approver
          approve := found.state == "approved"
          seenHash := found.correlation
          noteText := found.comment
          via := channelServicenow
          approverEmail := found.approverEmail }).tryCatch fun e =>
        if isActionError e then pure () else throw e
      pure 1

/-- The part of `sweep` for one row. -/
def sweepRow (now : Nat) (pollDue : Bool) (row : ActionRow) : Prog Nat :=
  if row.expiresAt.any (· ≤ now) then do
    let expired ← expire site row true
    pure (if expired.isSome then 1 else 0)
  else if channelServicenow ∈ row.channels ∧ row.changeSysId ≠ "" ∧ pollDue = true then
    (collect site row).tryCatch fun _ => pure 0
  else pure 0

/-- The rows one after the other. -/
def sweepRows (now : Nat) (pollDue : Bool) : List ActionRow → Prog Nat
  | [] => pure 0
  | row :: rows => do
    let moved ← sweepRow site now pollDue row
    let more ← sweepRows now pollDue rows
    pure (moved + more)

/-- `sweep`: approval requests expire, and approvals given in ServiceNow are collected.
When the last poll was is the process's own affair. -/
def sweep (pollDue : Bool) : Prog Nat := do
  let waiting : List ActionRow ← askDb .pending
  let now : Nat ← ask .utcnow
  sweepRows site now pollDue waiting

end ActionService
end L1Agent
